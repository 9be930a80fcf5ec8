/-
  RuleEngine/Proofs/Rule/Script.lean
  ==================================
  **Rules as scripts.**

  Whatever rules are evaluated, what happens is a sequence of acts: a chance is tried, a
  body that is no combinator is run or checked, a notice is reported.  The combinators only
  choose which act comes next.  A `Script` says how: it is a tree of acts that branches where
  an act comes to yes or no.  Every rule has a script, and what the rule does is to run it
  (`actionsScript_run`, `requirementsScript_run`).

  The trace of a script lists the acts that are come to, each in the state that the one
  before it left.  A run that panics has done all of its trace but the last act, and panics
  in that one (`Script.run_of_panic`); a run in which no act panics has done all of it
  (`Script.run_of_done`).
-/
import RuleEngine.RuleBook
import RuleEngine.Proofs.Rule.Calling

namespace RuleEngine

/-! ### Acts -/

/-- The body is no combinator: if it triggers other rules, then later. -/
def ActionBody.Simple : ActionBody → Prop
  | .chain _ | .conditional _ _ | .priority _ => False
  | _ => True

/-- The body is no combinator. -/
def RequirementBody.Simple : RequirementBody → Prop
  | .all _ | .any _ | .not _ => False
  | _ => True

/-- What evaluations are made of. -/
inductive Act where
  /-- Try the chance of an action. -/
  | roll (typeKey : String) (chance : Formula)
  | run (body : ActionBody) (simple : body.Simple)
  | check (sideEffects : Bool) (body : RequirementBody) (simple : body.Simple)
  /-- Report that a requirement is not met. -/
  | refuse (typeKey : String) (actions : Nat)
  /-- Report that a branch is taken. -/
  | select (branch : String)

/-- Do an act for a context.  Only a chance and a check can come to no. -/
def Act.perform (c : ContextId) : Act → Run Bool
  | .roll typeKey chance => Action.admitted c typeKey chance
  | .run body _ => do
    body.run c
    return true
  | .check sideEffects body _ => body.check c sideEffects
  | .refuse typeKey actions => do
    Run.report (.notMet typeKey actions)
    return true
  | .select branch => do
    Run.report (.branchSelected branch)
    return true

/-! ### Scripts -/

/-- Acts one after the other, the next one chosen by what the last one came to. -/
inductive Script (α : Type) where
  | done (result : α)
  | act (a : Act) (next : Bool → Script α)

namespace Script

variable {α β : Type} (c : ContextId)

def bind : Script α → (α → Script β) → Script β
  | done result, f => f result
  | act a next, f => act a fun answer => (next answer).bind f

instance : Monad Script where
  pure := done
  bind := bind

def perform (a : Act) : Script Bool := act a done

def runSimple (body : ActionBody) (simple : body.Simple) : Script Unit := do
  let _ ← perform (.run body simple)

/-- Do the acts of a script for a context. -/
def run : Script α → Run α
  | done result => pure result
  | act a next => do (next (← a.perform c)).run

/-- The acts that a script comes to, each with the state in which it is done. -/
def trace : Script α → EngineState → List (Act × EngineState)
  | done _, _ => []
  | act a next, st => (a, st) ::
    match a.perform c st with
    | .ok answer st => (next answer).trace st
    | .error _ _ => []

@[simp] theorem run_pure (result : α) : (pure result : Script α).run c = pure result := rfl

@[simp] theorem run_perform (a : Act) : (perform a).run c = a.perform c := bind_pure _

@[simp] theorem run_bind (s : Script α) (f : α → Script β) :
    (s >>= f).run c = s.run c >>= fun a => (f a).run c := by
  induction s with
  | done result => rfl
  | act a next ih =>
    show (Script.act a fun answer => next answer >>= f).run c = _
    rw [run, run, bind_assoc]
    exact bind_congr ih

@[simp] theorem run_runSimple (body : ActionBody) (simple : body.Simple) :
    (runSimple body simple).run c = body.run c := by
  simp [runSimple, Act.perform]

@[simp] theorem run_ite {p : Prop} [Decidable p] (s t : Script α) :
    (if p then s else t).run c = if p then s.run c else t.run c := by
  split <;> rfl

end Script

open Script (perform runSimple)

/-! ### The scripts of rules -/

mutual

/-- What triggering an action does.  The others follow the evaluation of their parts likewise. -/
def Action.script : Action → Script Unit
  | .mk typeKey chance body => do
    if ← perform (.roll typeKey chance) then body.script

def ActionBody.script : ActionBody → Script Unit
  | .chain actions => actionsScript actions
  | .conditional conditions actions => do
    if ← requirementsScript false conditions then actionsScript actions
  | .priority branches => branchesScript branches
  | .idle => runSimple .idle trivial
  | .delay delay mode actions => runSimple (.delay delay mode actions) trivial
  | .timer delay period duration mode actions =>
    runSimple (.timer delay period duration mode actions) trivial
  | .message text => runSimple (.message text) trivial
  | .command text => runSimple (.command text) trivial
  | .set key value => runSimple (.set key value) trivial
  | .guest id payload => runSimple (.guest id payload) trivial
  | .custom procedure => runSimple (.custom procedure) trivial

def actionsScript : List Action → Script Unit
  | [] => pure ()
  | a :: rest => do
    a.script
    actionsScript rest

def branchesScript : List Branch → Script Unit
  | [] => pure ()
  | b :: rest => do
    if !(← b.script) then branchesScript rest

def Branch.script : Branch → Script Bool
  | .mk name conditions actions => do
    if ← requirementsScript false conditions then
      let _ ← perform (.select name)
      actionsScript actions
      return true
    else return false

def Requirement.script (sideEffects : Bool) : Requirement → Script Bool
  | .mk typeKey body notMet => do
    let met ← body.script sideEffects
    if !met && sideEffects && !notMet.isEmpty then
      let _ ← perform (.refuse typeKey notMet.length)
      actionsScript notMet
    return met

def RequirementBody.script (sideEffects : Bool) : RequirementBody → Script Bool
  | .all requirements => requirementsScript sideEffects requirements
  | .any requirements => alternativesScript requirements
  | .not requirement => return !(← requirement.script false)
  | .idle => perform (.check sideEffects .idle trivial)
  | .equality negated left right =>
    perform (.check sideEffects (.equality negated left right) trivial)
  | .comparison relation left right =>
    perform (.check sideEffects (.comparison relation left right) trivial)
  | .cooldown key window unit => perform (.check sideEffects (.cooldown key window unit) trivial)
  | .chance probability => perform (.check sideEffects (.chance probability) trivial)
  | .guest id payload => perform (.check sideEffects (.guest id payload) trivial)
  | .custom procedure => perform (.check sideEffects (.custom procedure) trivial)

def requirementsScript (sideEffects : Bool) : List Requirement → Script Bool
  | [] => pure true
  | r :: rest => do
    if ← r.script sideEffects then requirementsScript sideEffects rest else return false

def alternativesScript : List Requirement → Script Bool
  | [] => pure false
  | r :: rest => do
    if ← r.script false then return true else alternativesScript rest

end

mutual

theorem Action.script_run (c : ContextId) (a : Action) : a.script.run c = a.trigger c := by
  cases a with
  | mk typeKey chance body =>
    simp [Action.script, Action.trigger, Act.perform, ActionBody.script_run c body]

theorem ActionBody.script_run (c : ContextId) (body : ActionBody) :
    body.script.run c = body.run c := by
  cases body with
  | chain actions => rw [ActionBody.script, ActionBody.run, actionsScript_run c actions]
  | conditional conditions actions =>
    simp [ActionBody.script, ActionBody.run, requirementsScript_run c false conditions,
      actionsScript_run c actions]
  | priority branches => rw [ActionBody.script, ActionBody.run, branchesScript_run c branches]
  | _ =>
    rw [ActionBody.script]
    exact Script.run_runSimple c _ _

/-- The script of some actions does what triggering them does. -/
theorem actionsScript_run (c : ContextId) (actions : List Action) :
    (actionsScript actions).run c = triggerAll c actions := by
  cases actions with
  | nil => rfl
  | cons a rest =>
    simp [actionsScript, triggerAll, Action.script_run c a, actionsScript_run c rest]

theorem branchesScript_run (c : ContextId) (branches : List Branch) :
    (branchesScript branches).run c = takeBranch c branches := by
  cases branches with
  | nil => rfl
  | cons b rest =>
    simp [branchesScript, takeBranch, Branch.script_run c b, branchesScript_run c rest]

theorem Branch.script_run (c : ContextId) (b : Branch) : b.script.run c = b.attempt c := by
  cases b with
  | mk name conditions actions =>
    simp [Branch.script, Branch.attempt, Act.perform, requirementsScript_run c false conditions,
      actionsScript_run c actions]

/-- The script of a requirement does what evaluating it does. -/
theorem Requirement.script_run (c : ContextId) (sideEffects : Bool) (r : Requirement) :
    (r.script sideEffects).run c = r.isMet c sideEffects := by
  cases r with
  | mk typeKey body notMet =>
    simp [Requirement.script, Requirement.isMet, Act.perform,
      RequirementBody.script_run c sideEffects body, actionsScript_run c notMet]

theorem RequirementBody.script_run (c : ContextId) (sideEffects : Bool) (body : RequirementBody) :
    (body.script sideEffects).run c = body.check c sideEffects := by
  cases body with
  | all requirements =>
    rw [RequirementBody.script, RequirementBody.check,
      requirementsScript_run c sideEffects requirements]
  | any requirements =>
    rw [RequirementBody.script, RequirementBody.check, alternativesScript_run c requirements]
  | not requirement =>
    simp [RequirementBody.script, RequirementBody.check, Requirement.script_run c false requirement]
  | _ =>
    rw [RequirementBody.script, Script.run_perform]
    rfl

theorem requirementsScript_run (c : ContextId) (sideEffects : Bool)
    (requirements : List Requirement) :
    (requirementsScript sideEffects requirements).run c = allMet c sideEffects requirements := by
  cases requirements with
  | nil => rfl
  | cons r rest =>
    simp [requirementsScript, allMet, Requirement.script_run c sideEffects r,
      requirementsScript_run c sideEffects rest]

theorem alternativesScript_run (c : ContextId) (requirements : List Requirement) :
    (alternativesScript requirements).run c = anyMet c requirements := by
  cases requirements with
  | nil => rfl
  | cons r rest =>
    simp [alternativesScript, anyMet, Requirement.script_run c false r,
      alternativesScript_run c rest]

end

/-- Triggering is running a script, with a panic contained. -/
theorem trigger_eq_guarded (c : ContextId) (actions : List Action) :
    trigger c actions = guarded "trigger" () ((actionsScript actions).run c) := by
  rw [actionsScript_run]
  rfl

theorem isSatisfied_eq_guarded (c : ContextId) (requirements : List Requirement)
    (sideEffects : Bool) :
    isSatisfied c requirements sideEffects =
      guarded "requirements" false ((requirementsScript sideEffects requirements).run c) := by
  rw [requirementsScript_run]
  rfl

def EventRules.script (rules : EventRules) : Script Bool := do
  if ← requirementsScript true rules.conditions then
    actionsScript rules.actions
    return true
  else return false

/-- Firing an event that is known is running a script, with a panic contained. -/
theorem RuleBook.fire_eq_guarded {b : RuleBook} {event : String} {rules : EventRules}
    (h : b.rules? event = some rules) (c : ContextId) :
    b.fire event c = guarded event false (rules.script.run c) := by
  unfold RuleBook.fire EventRules.script
  rw [h]
  simp only [Script.run_bind, requirementsScript_run, Script.run_ite, actionsScript_run,
    Script.run_pure]

/-! ### Traces -/

/-- Acts are done one after the other, each of them to its end. -/
inductive Done (c : ContextId) : List (Act × EngineState) → EngineState → EngineState → Prop
  | nil (st : EngineState) : Done c [] st st
  | cons {a : Act} {answer : Bool} {rest : List (Act × EngineState)} {st mid st' : EngineState}
      (first : a.perform c st = .ok answer mid) (later : Done c rest mid st') :
      Done c ((a, st) :: rest) st st'

namespace Script

variable {α : Type} {c : ContextId} {s : Script α} {st mid last : EngineState} {a : Act}
  {message : Panic}

/-- An act that panics is the last one of its run, which panics with it. -/
theorem run_of_panic (reached : (a, mid) ∈ s.trace c st)
    (panics : a.perform c mid = .error message last) :
    s.run c st = .error message last ∧
      ∃ before, s.trace c st = before ++ [(a, mid)] ∧ Done c before st mid := by
  induction s generalizing st with
  | done result => cases reached
  | act first next ih =>
    rw [trace] at reached ⊢
    rw [run, Run.bind_apply]
    cases hfirst : first.perform c st with
    | ok answer after =>
      rw [hfirst] at reached
      rcases List.mem_cons.mp reached with heq | hlater
      · -- the first act has not panicked
        cases heq
        rw [panics] at hfirst
        cases hfirst
      · obtain ⟨hrun, before, htrace, hdone⟩ := ih answer hlater
        exact ⟨hrun, (first, st) :: before, by simp [htrace], .cons hfirst hdone⟩
    | error message' after =>
      rw [hfirst] at reached
      cases List.mem_singleton.mp reached
      rw [panics] at hfirst
      cases hfirst
      exact ⟨rfl, [], rfl, .nil _⟩

/-- A run in which no act panics comes to its end, and has done all of its trace. -/
theorem run_of_done
    (calm : ∀ a mid, (a, mid) ∈ s.trace c st → ∃ answer after, a.perform c mid = .ok answer after) :
    ∃ result last, s.run c st = .ok result last ∧ Done c (s.trace c st) st last := by
  induction s generalizing st with
  | done result => exact ⟨result, st, rfl, .nil st⟩
  | act first next ih =>
    rw [trace] at calm ⊢
    rw [run, Run.bind_apply]
    obtain ⟨answer, after, hfirst⟩ := calm first st List.mem_cons_self
    rw [hfirst] at calm ⊢
    obtain ⟨result, last, hrun, hdone⟩ := ih answer fun a mid hmem =>
      calm a mid (List.mem_cons_of_mem _ hmem)
    exact ⟨result, last, hrun, .cons hfirst hdone⟩

end Script

end RuleEngine
