/-
  RuleEngine/Program.lean
  =======================
  **The program.**

  A run of the program is a function of its arguments and of its surroundings: the
  files, the user's environment, the clock and a source of randomness.  It comes to
  an end with an exit code, what it printed, and what it told on the side.
-/
import RuleEngine.CommandLine.Help
import RuleEngine.Configuration.File
import RuleEngine.Session

namespace RuleEngine.Program

/-! ### Surroundings and outcomes -/

structure Surroundings where
  files : FileTree := {}
  user : UserEnvironment := {}
  /-- The clock, and the seed that is used where none is given. -/
  chances : Chances := {}

structure Outcome where
  /-- Zero for success, one for failure, two for wrong arguments. -/
  code : Nat
  /-- What was printed; an item may run over several lines. -/
  output : List String := []
  /-- What was told besides. -/
  messages : List String := []
deriving DecidableEq, Repr

/-- A failure that is told and not printed. -/
def failure (message : String) (notices : List String := []) : Outcome :=
  { code := 1, messages := notices ++ ["Error: " ++ message] }

/-! ### Telling -/

/-- A level of notices counts as louder the smaller its rank. -/
def rank : NoticeLevel → Nat
  | .error => 0
  | .warn => 1
  | .info => 2
  | .debug => 3
  | .trace => 4

/-- The notices that are told: up to `info`, or further where more logging was asked
    for. -/
def told (verbosity : Nat) (notices : Array Notice) : List String :=
  (notices.toList.filter fun n => rank n.level ≤ 2 + verbosity).map fun n =>
    n.level.name ++ " " ++ n.text

def loadMessage : LoadError → String
  | .unreadable path => s!"{path} cannot be read"
  | .yaml _ => "the file is no YAML document"
  | .toml _ => "the file is no TOML document"

def rulesMessage : RulesError → String
  | .load error => loadMessage error
  | .compile error => error.message

def configMessage : Configuration.LoadError → String
  | .missing path => s!"config file not found: {path}"
  | .unreadable path => s!"{path} cannot be read"
  | .notToml _ => "the config file is no TOML document"
  | .wrongType setting => s!"the setting '{setting}' has a value of the wrong type"

/-! ### Configuration -/

/-- The configuration of a run.  A file that the arguments name has to be there; the
    usual one may be missing. -/
def configuration (s : Surroundings) (config? : Option String) :
    Except Configuration.LoadError Configuration :=
  match config?, s.user.configPath? with
  | some path, _ => Configuration.load s.files path
  | none, none => .ok {}
  | none, some path =>
    match Configuration.load s.files path with
    | .error (.missing _) => .ok {}
    | result => result

/-- The log of a run can be opened: it does not go to a file, or the file can be
    made. -/
def logOpens (s : Surroundings) (c : Configuration) : Bool :=
  let path := s.user.logPath
  let (made, files) := s.files.makeParents path
  !c.log.toFile || (made && (files.overwrite? path (.bytes []) s.chances.clock).isSome)

/-- The settings of the expansions that a command works with. -/
def expansionSettings (s : Surroundings) (c : Configuration) (command : CommandLine.Command) :
    ExpansionHost.Settings :=
  let directory? := command.directory?.map NativePath.ofText
  (c.expansions.forCommand directory? false).hostSettings s.user

/-! ### Commands -/

def eventLine (e : EventSummary) : String :=
  s!"{e.name}: {e.conditions} condition(s), {e.actions} action(s), {e.disabled} disabled"

/-- Check a rule file.  A warning about its rules or about expansions is a failure. -/
def check (s : Surroundings) (settings : ExpansionHost.Settings) (verbosity : Nat)
    (rules : String) : Outcome :=
  let (result, session) := checkRules settings s.files rules
  let notices := session.engine.state.world.notices
  let messages := told verbosity notices
  match result with
  | .error e => failure s!"Failed to load rules from {rules}: {rulesMessage e}" messages
  | .ok events =>
    let warnings := notices.toList.countP Notice.isWarning
    let lines := events.map eventLine
    if warnings > 0 then
      { code := 1, output := lines,
        messages := messages ++ [s!"WARN {warnings} warning(s) in {rules}"] }
    else { code := 0, output := lines ++ [s!"{events.length} event(s) OK"], messages }

def run (s : Surroundings) (settings : ExpansionHost.Settings) (verbosity : Nat)
    (rules : String) (trial : Trial) (seed? : Option Nat) : Outcome :=
  let seed := seed?.elim s.chances.seed UInt64.ofNat
  let (result, session) := tryRules settings s.files rules trial { s.chances with seed }
  let messages := told verbosity session.engine.state.world.notices
  match result with
  | .error e => failure s!"Failed to load rules from {rules}: {rulesMessage e}" messages
  | .ok report =>
    let known := ", ".intercalate report.known
    let unknown := if report.known.contains trial.event then [] else
      [s!"WARN Event '{trial.event}' is not in {rules} (known: {known})"]
    let notFired := if report.fired then [] else
      [s!"'{trial.event}' did not fire: conditions not met"]
    let pending := if report.pending = 0 then [] else
      [s!"{report.pending} scheduled task(s) still pending"]
    { code := 0
      output := report.transcript.filterMap Console.line? ++ notFired ++ pending
      messages := messages ++ unknown }

def installedLine (i : Installed) : String :=
  s!"{i.typeKey} v{i.version} by {i.author} ({i.path})" ++
    (if i.displaced?.isSome then " overrides built-in" else "")

/-- List the expansions of a directory.  One that does not load is a failure. -/
def list (s : Surroundings) (settings : ExpansionHost.Settings) (verbosity : Nat) : Outcome :=
  let (report, engine) := listExpansions settings s.files
  let failed := report.failed.map fun (path, e) => s!"FAILED {path}: {e.message}"
  { code := if report.failed.isEmpty then 0 else 1
    output := report.installed.map installedLine ++ failed
    messages := told verbosity engine.state.world.notices }

def perform (s : Surroundings) (i : CommandLine.Invocation) : Outcome :=
  match configuration s i.config? with
  | .error e => failure s!"Failed to load config: {configMessage e}"
  | .ok c =>
    if !logOpens s c then failure s!"{s.user.logPath} cannot be written"
    else
      let settings := expansionSettings s c i.command
      match i.command with
      | .check rules _ => check s settings i.verbosity rules
      | .run rules event subject properties placeholders ticks _ seed? =>
        run s settings i.verbosity rules { event, subject, properties, placeholders, ticks } seed?
      | .expansions _ => list s settings i.verbosity

def rulesOf : CommandLine.Command → List String
  | .check rules _ => [rules]
  | .run rules _ _ _ _ _ _ _ => [rules]
  | .expansions _ => []

/-- The files that a run looks at by name: its configuration and its rules. -/
def filesRead (user : UserEnvironment) (arguments : List String) : List String :=
  match CommandLine.Invocation.ofArguments arguments with
  | .ok i => ((i.config?.orElse fun _ => user.configPath?).toList) ++ rulesOf i.command
  | .error _ => []

def execute (s : Surroundings) (arguments : List String) : Outcome :=
  match CommandLine.Invocation.ofArguments arguments with
  | .ok invocation => perform s invocation
  | .error (.help command?) => { code := 0, output := CommandLine.helpLines command? }
  | .error .version => { code := 0, output := [CommandLine.versionLine] }
  | .error (.misuse cause) => { code := 2, messages := ["error: " ++ cause.message] }

end RuleEngine.Program
