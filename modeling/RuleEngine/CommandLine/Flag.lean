/-
  RuleEngine/CommandLine/Flag.lean
  ================================
  **The vocabulary of the command line.**

  The program has three commands.  Each understands its own flags besides those of
  the program; a flag is a switch or takes a value.
-/
import RuleEngine.Assignment
import RuleEngine.Decimal.Reader

namespace RuleEngine.CommandLine

/-! ### Commands -/

inductive CommandName where
  | check
  | run
  | expansions
deriving DecidableEq, Repr

def CommandName.word : CommandName → String
  | .check => "check"
  | .run => "run"
  | .expansions => "expansions"

def CommandName.all : List CommandName := [.check, .run, .expansions]

def CommandName.ofWord? (word : String) : Option CommandName := all.find? fun c => c.word == word

def CommandName.about : CommandName → String
  | .check => "Compile a rule file and report disabled rules"
  | .run => "Fire one event of a rule file for a console player"
  | .expansions => "Load every expansion artifact and report the result"

def CommandName.takesRules : CommandName → Bool
  | .check | .run => true
  | .expansions => false

/-! ### Flags -/

inductive Flag where
  | debug
  | config
  | help
  | version
  | event
  | subject
  | property
  | placeholder
  | ticks
  | expansions
  | seed
  | directory
deriving DecidableEq, Repr

namespace Flag

def long : Flag → String
  | debug => "debug"
  | config => "config"
  | help => "help"
  | version => "version"
  | event => "event"
  | subject => "subject"
  | property => "var"
  | placeholder => "placeholder"
  | ticks => "ticks"
  | expansions => "expansions"
  | seed => "seed"
  | directory => "dir"

def short? : Flag → Option Char
  | debug => some 'd'
  | config => some 'c'
  | help => some 'h'
  | version => some 'V'
  | event => some 'e'
  | subject => some 's'
  | _ => none

/-- What the value of a flag is called; a switch has none. -/
def valueName? : Flag → Option String
  | debug | help | version => none
  | config => some "CONFIG"
  | event => some "EVENT"
  | subject => some "SUBJECT"
  | property => some "KEY=VALUE"
  | placeholder => some "NAME=VALUE"
  | ticks => some "TICKS"
  | expansions => some "EXPANSIONS"
  | seed => some "SEED"
  | directory => some "DIR"

def about : Flag → String
  | debug => "More logging (-d debug, -dd trace)"
  | config => "Config file (default: <config dir>/config.toml)"
  | help => "Print help"
  | version => "Print version"
  | event => "The event"
  | subject => "The name of the player [default: Steve]"
  | property => "Context property, repeatable"
  | placeholder => "%placeholder% value, repeatable"
  | ticks => "Scheduler ticks to run after firing [default: 0]"
  | expansions => "Install expansions from this directory first"
  | seed => "Seed chance rolls"
  | directory => "The directory of the artifacts"

def isRepeatable (f : Flag) : Bool := f == property || f == placeholder

/-- The flags that are understood inside a command, or before it. -/
def understood : Option CommandName → List Flag
  | none => [debug, config, help, version]
  | some .check => [expansions, debug, config, help]
  | some .run =>
    [event, subject, property, placeholder, ticks, expansions, seed, debug, config, help]
  | some .expansions => [directory, debug, config, help]

end Flag

/-! ### Values -/

inductive ValueFault where
  | empty
  | notCount
  | notAssignment (error : AssignmentError)
deriving DecidableEq, Repr

/-- The count that a text spells: digits, with a plus in front or not, below 2 to the
    power of 64. -/
def readCount? (text : String) : Option Nat :=
  let digits := match text.toList with
    | '+' :: rest => rest
    | cs => cs
  (Decimal.readNat? digits).filter (· < UInt64.size)

def pathFault? (path : String) : Option ValueFault := if path = "" then some .empty else none

def Flag.fault? (f : Flag) (value : String) : Option ValueFault :=
  match f with
  | config | expansions | directory => pathFault? value
  | ticks | seed => if (readCount? value).isNone then some .notCount else none
  | property | placeholder =>
    match Assignment.parse value with
    | .ok _ => none
    | .error e => some (.notAssignment e)
  | debug | help | version | event | subject => none

end RuleEngine.CommandLine
