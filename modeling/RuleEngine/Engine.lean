/-
  RuleEngine/Engine.lean
  ======================
  **An engine.**

  An engine joins a registry of rule types with the state that rules run in.  This
  file lifts compiling, running, ticking and the operations on contexts and
  cooldowns to it; a new engine has the built-in types.
-/
import RuleEngine.RuleBook

namespace RuleEngine

structure Engine where
  registry : Registry := {}
  state : EngineState
  /-- Whether the scheduler was made with a runtime. -/
  runtime : Bool := false

namespace Engine

/-! ### Making an engine -/

def reportAll (e : Engine) (notices : List Notice) : Engine :=
  { e with state := { e.state with world := notices.foldl World.report e.state.world } }

def report (e : Engine) (n : Notice) : Engine := e.reportAll [n]

/-- Register the built-in types whose keys are free.  Tells how many there were. -/
def registerBuiltins (e : Engine) : Nat × Engine :=
  let (count, notices, registry) := e.registry.registerBuiltins
  (count, { e with registry }.reportAll notices)

def create (platform : Platform) (seed : UInt64) (clock : Nat) : Engine :=
  let world : World := { platform, clock, dice := .ofSeed seed }
  let (count, e) := registerBuiltins { state := { world } }
  e.report (.engineReady count)

/-! ### Compiling and running -/

def compile {α : Type} (e : Engine) (step : Registry → Compile α) : α × Engine :=
  let (x, world) := (step e.registry).run e.state.world
  (x, { e with state := { e.state with world } })

def run {α : Type} (e : Engine) (step : StateM EngineState α) : α × Engine :=
  let (x, state) := step.run e.state
  (x, { e with state })

/-- Move the scheduler on.  Tells how many tasks fired. -/
def advance (e : Engine) (ticks : Nat) : Nat × Engine :=
  let (fired, state) := e.state.advance (workshopOf e.runtime) ticks
  (fired, { e with state })

def register (e : Engine) (maker : Maker) (keys : List String) : Bool × Engine :=
  let (factory, registry) := e.registry.mint maker
  let (done, notice, registry) := registry.register factory keys
  (done, { e with registry }.report notice)

/-! ### Contexts, rolls and cooldowns -/

def context (e : Engine) (c : ContextId) : Context := e.state.world.context c

def addContext (e : Engine) (subject : Subject) : ContextId × Engine :=
  let (c, world) := e.state.world.addContext subject
  (c, { e with state := { e.state with world } })

def changeContext (e : Engine) (c : ContextId) (f : Context → Context) : Engine :=
  let world := e.state.world
  { e with state := { e.state with world := world.setContext c (f (world.context c)) } }

def changeWorld (e : Engine) (f : World → World) : Engine :=
  { e with state := { e.state with world := f e.state.world } }

/-- Use a cooldown of a subject, with a window in milliseconds.  Tells whether it is cooling
    down. -/
def useCooldown (e : Engine) (subject key : String) (window : Nat) : Bool × Engine :=
  e.run (guarded "cooldown" false (Run.useCooldown subject key (.ofMillis (.ofNat window))))

def endSession (e : Engine) (subject : String) : Nat × Engine :=
  let (count, ledger) := e.state.world.ledger.endSession subject
  let e := e.changeWorld ({ · with ledger })
  (count, if count > 0 then e.report (.cooldownsPruned subject count) else e)

end Engine

end RuleEngine
