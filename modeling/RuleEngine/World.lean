/-
  RuleEngine/World.lean
  =====================
  **The world that rules run in.**

  A running engine holds the contexts, the cooldown ledger, the clock, the dice, the
  loaded guests, what was asked of the platform and what was reported.  Rules run
  in `Run`: a step may read and change the world and the scheduler, and it may end
  in a panic, which keeps all that was done before it.
-/
import RuleEngine.Context
import RuleEngine.Ledger
import RuleEngine.Dice
import RuleEngine.Guest.Module
import RuleEngine.Rule.Basic
import RuleEngine.Scheduler.Tick

namespace RuleEngine

inductive Work where
  /-- Trigger actions for a context. -/
  | actions (mode : ExecMode) (context : ContextId) (list : List Action)
  /-- Cancel another task. -/
  | cancel (task : TaskId)

def Work.weight : Work → Nat
  | actions _ _ list => 1 + actionsWeight list
  | cancel _ => 1

/-- Where a task asks to run.  A canceller runs on the ticking thread. -/
def Work.mode : Work → ExecMode
  | actions mode _ _ => mode
  | cancel _ => .sync

/-- The state of an engine apart from its scheduler and its registry. -/
structure World where
  platform : Platform := .silent
  contexts : List Context := []
  ledger : Ledger := {}
  /-- The clock of cooldowns, in milliseconds. -/
  clock : Nat := 0
  dice : Dice := .ofSeed 0
  guests : Array Guest.Instance := #[]
  /-- What was asked of the platform, in order. -/
  deliveries : Array Delivery := #[]
  /-- What was reported, in order. -/
  notices : Array Notice := #[]
  /-- The tasks that the scheduler handed to its runtime, in order. -/
  handed : Array (TaskId × Work) := #[]

/-- A world with the scheduler of the engine. -/
abbrev EngineState := Scheduled Work World

abbrev Panic := String

abbrev Run := EStateM Panic EngineState

namespace World

def report (w : World) (n : Notice) : World := { w with notices := w.notices.push n }

/-- The world with a task handed to the runtime. -/
def handOver (w : World) (id : TaskId) (work : Work) : World :=
  { w with handed := w.handed.push (id, work) }

/-- The context of a number; one that was never made has an anonymous subject. -/
def context (w : World) (c : ContextId) : Context := (w.contexts[c]?).getD ⟨⟨"", ""⟩, [], []⟩

def setContext (w : World) (c : ContextId) (context : Context) : World :=
  { w with contexts := w.contexts.set c context }

def addContext (w : World) (subject : Subject) : ContextId × World :=
  (w.contexts.length, { w with contexts := w.contexts ++ [{ subject }] })

def scope (w : World) (c : ContextId) : Scope := (w.context c).scope w.platform

def guest (w : World) (g : GuestId) : Guest.Instance := (w.guests[g]?).getD default

def setGuest (w : World) (g : GuestId) (guest : Guest.Instance) : World :=
  { w with guests := w.guests.setIfInBounds g guest }

end World

namespace Run

/-! ### Steps on the world -/

def ask {α : Type} (f : World → α) : Run α := return f (← get).world

def change (f : World → World) : Run Unit := modify fun st => { st with world := f st.world }

def report (n : Notice) : Run Unit := change (·.report n)

def panic {α : Type} (message : String) : Run α := throw message

def context (c : ContextId) : Run Context := ask (·.context c)

def changeContext (c : ContextId) (f : Context → Context) : Run Unit :=
  change fun w => w.setContext c (f (w.context c))

def roll : Run Float := do
  let (x, dice) := (← ask World.dice).roll
  change ({ · with dice })
  return x

/-- Call the platform: its callback may fail. -/
def call (c : PlatformCall) : Run Unit := do
  match (← ask World.platform).fault c with
  | some message => panic message
  | none => pure ()

def deliver (d : Delivery) : Run Unit := do
  call (.deliver d)
  change fun w => { w with deliveries := w.deliveries.push d }

/-- Send a message to whom it goes in a context. -/
def message (c : ContextId) (text : String) : Run Unit := do
  for target in (← context c).recipients do
    deliver (.message target text)

/-- Run a command for the subject of a context. -/
def command (c : ContextId) (text : String) : Run Unit := do
  deliver (.command (← context c).subject text)

/-- Use a cooldown of a subject.  Tells whether it is cooling down. -/
def useCooldown (subject key : String) (window : Duration) : Run Bool := do
  let w ← ask id
  match w.ledger.check w.clock subject key window with
  | (some left, ledger) => do
    change ({ · with ledger })
    report (.coolingDown subject key left)
    return true
  | (none, ledger) => do
    change ({ · with ledger })
    return false

/-! ### Templates -/

/-- Look a reference up, as far as the platform takes part in it. -/
def resolve (c : ContextId) : Reference → Run Unit
  | .property _ => pure ()
  | .placeholder name => do call (.placeholder (← context c).subject name)

def render (c : ContextId) (t : TextTemplate) : Run String := do
  for target in t.references do
    resolve c target
  return t.render (← ask (·.scope c))

/-- The value of a formula in a context.  A reference that reads no number is
    reported. -/
def evaluate (c : ContextId) (f : Formula) : Run Float := do
  for target in f.tree.references do
    resolve c target
    if ((← ask (·.scope c)).number? target).isNone then report (.notNumeric target)
  return f.eval (← ask (·.scope c))

/-! ### Scheduling -/

def schedule (delay : Nat) (task : Work) : Run TaskId := do
  let (id, scheduler) := (← get).scheduler.schedule delay task
  modify ({ · with scheduler })
  return id

def scheduleRepeating (initial period : Nat) (task : Work) : Run TaskId := do
  let (id, scheduler) := (← get).scheduler.scheduleRepeating initial period task
  modify ({ · with scheduler })
  return id

/-- Cancel a task.  Tells whether there was something to cancel. -/
def cancel (id : TaskId) : Run Bool := do
  let (cancelled, scheduler) := (← get).scheduler.cancel id
  modify ({ · with scheduler })
  return cancelled

end Run

end RuleEngine
