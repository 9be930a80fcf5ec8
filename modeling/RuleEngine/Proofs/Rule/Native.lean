/-
  RuleEngine/Proofs/Rule/Native.lean
  ==================================
  **Rules of the built-in types.**

  A rule is native if it and all rules in it are of the built-in types: those that come later
  or when something is not met count too, and no guest and no procedure of the application is
  among them.  What native rules come to are native acts (`actionsScript_native`,
  `EventRules.script_native`), so what they defer is native again.
-/
import RuleEngine.Proofs.Rule.Script

namespace RuleEngine

/-! ### Trees -/

mutual

def Action.Native : Action → Prop
  | .mk _ _ body => body.Native

def ActionBody.Native : ActionBody → Prop
  | .chain actions => actionsNative actions
  | .delay _ _ actions => actionsNative actions
  | .timer _ _ _ _ actions => actionsNative actions
  | .conditional conditions actions => requirementsNative conditions ∧ actionsNative actions
  | .priority branches => branchesNative branches
  | .guest _ _ => False
  | .custom _ => False
  | _ => True

def Requirement.Native : Requirement → Prop
  | .mk _ body notMet => body.Native ∧ actionsNative notMet

def RequirementBody.Native : RequirementBody → Prop
  | .all requirements => requirementsNative requirements
  | .any requirements => requirementsNative requirements
  | .not requirement => requirement.Native
  | .guest _ _ => False
  | .custom _ => False
  | _ => True

def Branch.Native : Branch → Prop
  | .mk _ conditions actions => requirementsNative conditions ∧ actionsNative actions

def actionsNative : List Action → Prop
  | [] => True
  | a :: rest => a.Native ∧ actionsNative rest

def requirementsNative : List Requirement → Prop
  | [] => True
  | r :: rest => r.Native ∧ requirementsNative rest

def branchesNative : List Branch → Prop
  | [] => True
  | b :: rest => b.Native ∧ branchesNative rest

end

/-- The act is one of the built-in types, and what it defers is native. -/
def Act.Native : Act → Prop
  | .run body _ => body.Native
  | .check _ body _ => body.Native
  | _ => True

/-! ### Scripts -/

namespace Script

variable {α β : Type} {P : Act → Prop}

/-- Every act that a script may come to is of a kind, whatever the acts before it come to. -/
def Every (P : Act → Prop) : Script α → Prop
  | done _ => True
  | act a next => P a ∧ ∀ answer, (next answer).Every P

theorem every_pure (result : α) : (pure result : Script α).Every P := trivial

theorem every_perform {a : Act} (h : P a) : (perform a).Every P := ⟨h, fun _ => trivial⟩

/-- A sequence of scripts consists of native acts if both scripts do. -/
theorem Every.bind {s : Script α} {f : α → Script β} (hs : s.Every P)
    (hf : ∀ a, (f a).Every P) : (s >>= f).Every P := by
  induction s with
  | done result => exact hf result
  | act a next ih => exact ⟨hs.1, fun answer => ih answer (hs.2 answer)⟩

theorem every_runSimple {body : ActionBody} {simple : body.Simple} (h : P (.run body simple)) :
    (runSimple body simple).Every P :=
  (every_perform h).bind fun _ => every_pure _

end Script

open Script

mutual

theorem Action.script_native {a : Action} (h : a.Native) : a.script.Every Act.Native := by
  cases a with
  | mk typeKey chance body =>
    rw [Action.script]
    refine (every_perform (a := .roll typeKey chance) trivial).bind fun admitted => ?_
    cases admitted with
    | true => exact ActionBody.script_native h
    | false => exact every_pure _

theorem ActionBody.script_native {body : ActionBody} (h : body.Native) :
    body.script.Every Act.Native := by
  cases body with
  | chain actions => rw [ActionBody.script]; exact actionsScript_native h
  | conditional conditions actions =>
    rw [ActionBody.script]
    refine (requirementsScript_native false h.1).bind fun met => ?_
    cases met with
    | true => exact actionsScript_native h.2
    | false => exact every_pure _
  | priority branches => rw [ActionBody.script]; exact branchesScript_native h
  | _ => rw [ActionBody.script]; exact every_runSimple h

theorem actionsScript_native {actions : List Action} (h : actionsNative actions) :
    (actionsScript actions).Every Act.Native := by
  cases actions with
  | nil => exact every_pure _
  | cons a rest =>
    rw [actionsScript]
    exact (Action.script_native h.1).bind fun _ => actionsScript_native h.2

theorem branchesScript_native {branches : List Branch} (h : branchesNative branches) :
    (branchesScript branches).Every Act.Native := by
  cases branches with
  | nil => exact every_pure _
  | cons b rest =>
    rw [branchesScript]
    refine (Branch.script_native h.1).bind fun taken => ?_
    cases taken with
    | true => exact every_pure _
    | false => exact branchesScript_native h.2

theorem Branch.script_native {b : Branch} (h : b.Native) : b.script.Every Act.Native := by
  cases b with
  | mk name conditions actions =>
    rw [Branch.script]
    refine (requirementsScript_native false h.1).bind fun met => ?_
    cases met with
    | true =>
      refine (every_perform (a := .select name) trivial).bind fun _ => ?_
      exact (actionsScript_native h.2).bind fun _ => every_pure _
    | false => exact every_pure _

/-- A native requirement is evaluated by native acts alone. -/
theorem Requirement.script_native (sideEffects : Bool) {r : Requirement} (h : r.Native) :
    (r.script sideEffects).Every Act.Native := by
  cases r with
  | mk typeKey body notMet =>
    rw [Requirement.script]
    refine (RequirementBody.script_native sideEffects h.1).bind fun met => ?_
    dsimp only
    split
    · refine (every_perform (a := .refuse typeKey notMet.length) trivial).bind fun _ => ?_
      exact (actionsScript_native h.2).bind fun _ => every_pure _
    · exact every_pure _

theorem RequirementBody.script_native (sideEffects : Bool) {body : RequirementBody}
    (h : body.Native) : (body.script sideEffects).Every Act.Native := by
  cases body with
  | all requirements => rw [RequirementBody.script]; exact requirementsScript_native sideEffects h
  | any requirements => rw [RequirementBody.script]; exact alternativesScript_native h
  | not requirement =>
    rw [RequirementBody.script]
    exact (Requirement.script_native false h).bind fun _ => every_pure _
  | _ => rw [RequirementBody.script]; exact every_perform h

theorem requirementsScript_native (sideEffects : Bool) {requirements : List Requirement}
    (h : requirementsNative requirements) :
    (requirementsScript sideEffects requirements).Every Act.Native := by
  cases requirements with
  | nil => exact every_pure _
  | cons r rest =>
    rw [requirementsScript]
    refine (Requirement.script_native sideEffects h.1).bind fun met => ?_
    cases met with
    | true => exact requirementsScript_native sideEffects h.2
    | false => exact every_pure _

theorem alternativesScript_native {requirements : List Requirement}
    (h : requirementsNative requirements) :
    (alternativesScript requirements).Every Act.Native := by
  cases requirements with
  | nil => exact every_pure _
  | cons r rest =>
    rw [alternativesScript]
    refine (Requirement.script_native false h.1).bind fun met => ?_
    cases met with
    | true => exact every_pure _
    | false => exact alternativesScript_native h.2

end

def EventRules.Native (rules : EventRules) : Prop :=
  requirementsNative rules.conditions ∧ actionsNative rules.actions

theorem EventRules.script_native {rules : EventRules} (h : rules.Native) :
    rules.script.Every Act.Native := by
  unfold EventRules.script
  refine (requirementsScript_native true h.1).bind fun met => ?_
  cases met with
  | true => exact (actionsScript_native h.2).bind fun _ => every_pure _
  | false => exact every_pure _

end RuleEngine
