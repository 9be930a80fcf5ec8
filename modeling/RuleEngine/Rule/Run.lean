/-
  RuleEngine/Rule/Run.lean
  ========================
  **What rules do.**

  Triggering an action rolls its chance and runs its body; evaluating a requirement
  checks its body and, if asked for side effects, triggers the not-met actions of a
  requirement that fails.  A list of requirements stops at the first that decides
  it.  Delays and timers only schedule: their actions run as tasks of later ticks.

  A scheduler runs its tasks inline, on the thread that moves the ticks on.  One that was
  made with a runtime hands it the tasks that ask for that (`Work.dispatch`).  When and
  on which thread the runtime runs them is not part of this model: what is known of them
  is that they were handed over, and when.
-/
import RuleEngine.Guest.Call

namespace RuleEngine

/-! ### Procedures of the application -/

def Procedure.run {α : Type} (c : ContextId) : Procedure α → Run α
  | .done result => pure result
  | .fail message => Run.panic message
  | .subject next => do (next (← Run.context c).subject).run c
  | .read key next => do (next ((← Run.context c).get? key)).run c
  | .write key value next => do
    Run.changeContext c (·.set key value)
    next.run c
  | .setTargets targets next => do
    Run.changeContext c ({ · with targets })
    next.run c
  | .deliver delivery next => do
    Run.deliver delivery
    next.run c
  | .roll next => do (next (← Run.roll)).run c
  | .useCooldown key window next => do
    (next (← Run.useCooldown (← Run.context c).subject.id key window)).run c

/-! ### Deciding leaves -/

def Operand.number (c : ContextId) (o : Operand) : Run (Option Float) := do
  match o.number? with
  | none => return none
  | some f => do
    let x ← Run.evaluate c f
    return if x.isNaN then none else some x

/-- Whether two sides are equal: as numbers if both are, as texts otherwise. -/
def sidesEqual (c : ContextId) (left right : Operand) : Run Bool := do
  let x? ← left.number c
  let y? ← right.number c
  match x?, y? with
  | some x, some y => return x == y
  | _, _ => do
    let s ← Run.render c left.text
    let t ← Run.render c right.text
    return s == t

def cooldownAdmits (c : ContextId) (key : TextTemplate) (window : Formula) (unit : Float) :
    Run Bool := do
  let span := (← Run.evaluate c window) * unit
  if span ≥ 0 then
    let name ← Run.render c key
    return !(← Run.useCooldown (← Run.context c).subject.id name (.ofMillis span.toUInt64))
  else
    Run.report (.windowNotNumeric key.source)
    return false

def Payload.render (c : ContextId) : Payload → Run String
  | .text template => Run.render c template
  | .json value => pure value

def Action.admitted (c : ContextId) (typeKey : String) (chance : Formula) : Run Bool := do
  if chance.const?.any (· == 1) then return true
  let limit ← Run.evaluate c chance
  if limit ≥ 1 then return true
  let roll ← Run.roll
  if roll < limit then return true
  Run.report (.chanceMissed typeKey roll limit)
  return false

/-! ### Rules -/

mutual

def Action.trigger (c : ContextId) : Action → Run Unit
  | .mk typeKey chance body => do
    if ← Action.admitted c typeKey chance then body.run c

def ActionBody.run (c : ContextId) : ActionBody → Run Unit
  | .idle => pure ()
  | .chain actions => triggerAll c actions
  | .delay delay mode actions => do
    let task ← Run.schedule delay (.actions mode c actions)
    Run.report (.delayed actions.length delay task)
  | .timer delay period duration mode actions => do
    let task ← Run.scheduleRepeating delay period (.actions mode c actions)
    let _ ← Run.schedule duration (.cancel task)
    Run.report (.timerStarted task period duration)
  | .conditional conditions actions => do
    if ← allMet c false conditions then triggerAll c actions
  | .priority branches => takeBranch c branches
  | .message text => do Run.message c (← Run.render c text)
  | .command text => do Run.command c (← Run.render c text)
  | .set key value => do
    let text ← Run.render c value
    Run.changeContext c (·.set key (.ofText text))
  | .guest id payload => do
    let _ ← Run.guest c id (← payload.render c)
  | .custom procedure => procedure.run c

def triggerAll (c : ContextId) : List Action → Run Unit
  | [] => pure ()
  | a :: rest => do
    a.trigger c
    triggerAll c rest

def takeBranch (c : ContextId) : List Branch → Run Unit
  | [] => pure ()
  | b :: rest => do
    if !(← b.attempt c) then takeBranch c rest

/-- Take a branch if its conditions hold, and tell whether they did. -/
def Branch.attempt (c : ContextId) : Branch → Run Bool
  | .mk name conditions actions => do
    if ← allMet c false conditions then
      Run.report (.branchSelected name)
      triggerAll c actions
      return true
    else return false

/-- Evaluate a requirement; if it is not met and side effects are asked for, trigger
    its not-met actions. -/
def Requirement.isMet (c : ContextId) (sideEffects : Bool) : Requirement → Run Bool
  | .mk typeKey body notMet => do
    let met ← body.check c sideEffects
    if !met && sideEffects && !notMet.isEmpty then
      Run.report (.notMet typeKey notMet.length)
      triggerAll c notMet
    return met

def RequirementBody.check (c : ContextId) (sideEffects : Bool) : RequirementBody → Run Bool
  | .idle => pure false
  | .all requirements => allMet c sideEffects requirements
  | .any requirements => anyMet c requirements
  | .not requirement => return !(← requirement.isMet c false)
  | .equality negated left right => return (← sidesEqual c left right) != negated
  | .comparison relation left right => do
    let x ← Run.evaluate c left
    let y ← Run.evaluate c right
    return relation.holds x y
  | .cooldown key window unit => cooldownAdmits c key window unit
  | .chance probability => do
    let roll ← Run.roll
    return roll < (← Run.evaluate c probability)
  | .guest id payload => do
    let answer? ← Run.guest c id (← payload.render c)
    return answer?.any (· != 0)
  | .custom procedure => (procedure sideEffects).run c

/-- Whether all requirements are met; the first that is not ends the evaluation. -/
def allMet (c : ContextId) (sideEffects : Bool) : List Requirement → Run Bool
  | [] => pure true
  | r :: rest => do
    if ← r.isMet c sideEffects then allMet c sideEffects rest else return false

/-- Whether some requirement is met; the first that is ends the evaluation.  None of
    them has side effects. -/
def anyMet (c : ContextId) : List Requirement → Run Bool
  | [] => pure false
  | r :: rest => do
    if ← r.isMet c false then return true else anyMet c rest

end

/-! ### Tasks -/

def Work.run : Work → Run Unit
  | .actions _ c list => triggerAll c list
  | .cancel task => do let _ ← Run.cancel task

/-- Run a task, reporting a panic. -/
def Work.perform (id : TaskId) (work : Work) (st : EngineState) : EngineState :=
  match work.run st with
  | .ok () st => st
  | .error message st => { st with world := st.world.report (.taskPanicked id message) }

/-- A task that is due is handed to the runtime of the scheduler: there is one, and the task
    asks for it. -/
def Work.isHanded (runtime : Bool) (work : Work) : Bool := runtime && work.mode == .async

/-- Run a task that is due, or hand it to the runtime. -/
def Work.dispatch (runtime : Bool) (id : TaskId) (work : Work) (st : EngineState) : EngineState :=
  if work.isHanded runtime then { st with world := st.world.handOver id work }
  else work.perform id st

/-- What the tasks of an engine do, whose scheduler may have a runtime. -/
def workshopOf (runtime : Bool) : Workshop Work World where
  run := Work.dispatch runtime
  dropped id w := w.report (.cancelledWhileFiring id)
  weight := Work.weight

/-- What the tasks of an engine do on a scheduler without a runtime: all of them run inline. -/
abbrev workshop : Workshop Work World := workshopOf false

end RuleEngine
