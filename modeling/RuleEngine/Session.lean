/-
  RuleEngine/Session.lean
  =======================
  **Trying out rule files.**

  A session is an engine on the console with the expansions of a host.  In a session
  a rule file is checked, which tells what each of its events has and how much of it
  did not compile, or one event of it is fired for a subject and the scheduler moved
  on for some ticks.
-/
import RuleEngine.Assignment
import RuleEngine.Console
import RuleEngine.Expansion.Host
import RuleEngine.Node.Load

namespace RuleEngine

/-! ### Sessions -/

structure Session where
  engine : Engine
  host : ExpansionHost

inductive RulesError where
  | load (error : LoadError)
  | compile (error : CompileError)
deriving DecidableEq

/-- What rules draw on besides their context: the source of rolls and the clock. -/
structure Chances where
  seed : UInt64 := 0
  clock : Nat := 0
deriving DecidableEq, Repr

namespace Session

/-- A session with expansions as settings say. -/
def start (settings : ExpansionHost.Settings) (platform : Platform) (chances : Chances)
    (files : FileTree) : Session :=
  let engine := Engine.create platform chances.seed chances.clock
  let (host, engine) := ExpansionHost.create settings engine files
  { engine, host }

def loadRules (s : Session) (files : FileTree) (path : String) :
    Except RulesError RuleBook × Session :=
  match Node.load files path with
  | .error e => (.error (.load e), s)
  | .ok root =>
    let (book, engine) := s.engine.compile (RuleBook.compile · root)
    (book.mapError RulesError.compile, { s with engine })

end Session

/-! ### Checking -/

structure EventSummary where
  name : String
  conditions : Nat
  actions : Nat
  /-- How many of its own conditions and actions did not compile. -/
  disabled : Nat
deriving DecidableEq, Repr

def EventRules.summary (rules : EventRules) (name : String) : EventSummary where
  name := name
  conditions := rules.conditions.length
  actions := rules.actions.length
  disabled := rules.conditions.countP Requirement.isDisabled +
    rules.actions.countP Action.isDisabled

def RuleBook.summary (b : RuleBook) : List EventSummary :=
  b.events.map fun (name, rules) => rules.summary name

/-- Compile the rule file at a path and tell what its events have. -/
def checkRules (settings : ExpansionHost.Settings) (files : FileTree) (path : String) :
    Except RulesError (List EventSummary) × Session :=
  let (book, s) := (Session.start settings (Console.platform []) {} files).loadRules files path
  (book.map RuleBook.summary, s)

/-! ### Firing one event -/

structure Trial where
  event : String
  subject : String
  /-- The properties of the context, as they were given. -/
  properties : List Assignment := []
  placeholders : List Assignment := []
  /-- How many ticks follow. -/
  ticks : Nat := 0
deriving DecidableEq, Repr

structure TrialReport where
  fired : Bool
  /-- What the console was asked for, in order. -/
  transcript : List Delivery
  /-- How many tasks are still scheduled. -/
  pending : Nat
  /-- The events that the rule book has. -/
  known : List String

namespace Trial

def context (t : Trial) : Context :=
  t.properties.foldl (fun c a => c.set a.key (.ofGiven a.value))
    { subject := Console.subject t.subject }

/-- Fire the event of a rule book and move the scheduler on. -/
def run (t : Trial) (book : RuleBook) (e : Engine) : TrialReport × Engine :=
  let (c, e) := e.addContext (Console.subject t.subject)
  let e := e.changeContext c fun _ => t.context
  let (fired, e) := e.run (book.fire t.event c)
  let (_, e) := e.advance t.ticks
  ({ fired
     transcript := e.state.world.deliveries.toList.map Console.shown
     pending := e.state.scheduler.pending
     known := book.events.map Prod.fst }, e)

end Trial

def tryRules (settings : ExpansionHost.Settings) (files : FileTree) (path : String) (t : Trial)
    (chances : Chances) : Except RulesError TrialReport × Session :=
  let platform := Console.platform (t.placeholders.map fun a => (a.key, a.value))
  let (book, s) := (Session.start settings platform chances files).loadRules files path
  match book with
  | .error e => (.error e, s)
  | .ok book =>
    let (report, engine) := t.run book s.engine
    (.ok report, { s with engine })

/-! ### Listing expansions -/

/-- Install every artifact of a directory in a new engine. -/
def listExpansions (settings : ExpansionHost.Settings) (files : FileTree) :
    InstallReport × Engine :=
  let host : ExpansionHost := { directory := settings.directory, fuel := settings.fuel }
  let (report, _, engine) := host.reload (Engine.create .silent 0 0) files
  (report, engine)

end RuleEngine
