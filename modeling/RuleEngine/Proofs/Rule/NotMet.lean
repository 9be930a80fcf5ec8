/-
  RuleEngine/Proofs/Rule/NotMet.lean
  ==================================
  **Which not-met actions run.**

  A list of requirements that is evaluated with side effects does two things, and the
  main statement (`allMet_fires_unmetChain`) takes them apart.  First it comes to a
  verdict, and on the way there nothing of a not-met action runs: the verdict is that of
  the requirements without their not-met actions, cut down to those that are evaluated
  at all.  Then, if the verdict is no, the not-met actions of one chain of requirements
  run in order: those of the first unmet requirement and, as long as the current one is a
  conjunction, of its first unmet member, innermost first.

  Read by its results, the equation says that a list that holds ends as if it had no not-met
  actions (`allMet_eq_true_iff`), that one that fails ends where the actions of the chain,
  and no others, leave off (`allMet_eq_false_iff`), and that an evaluation panics either on
  the way to its verdict or in these actions (`allMet_eq_error_iff`).
-/
import RuleEngine.Proofs.Rule.Reading

namespace RuleEngine

open Run

/-! ### Without not-met actions -/

mutual

/-- The requirement without any not-met action, its own or one further down. -/
def Requirement.silenced : Requirement → Requirement
  | .mk typeKey body _ => .mk typeKey body.silenced []

def RequirementBody.silenced : RequirementBody → RequirementBody
  | .all requirements => .all (silenceAll requirements)
  | .any requirements => .any (silenceAll requirements)
  | .not requirement => .not requirement.silenced
  | body => body

def silenceAll : List Requirement → List Requirement
  | [] => []
  | r :: rest => r.silenced :: silenceAll rest

end

-- Nothing below a disjunction or a negation has side effects, and with the flag off
-- nothing has: there the not-met actions make no difference.
mutual

/-- With the flag off no not-met action runs anyway. -/
theorem Requirement.silenced_isMet_false (c : ContextId) (r : Requirement) :
    r.silenced.isMet c false = r.isMet c false := by
  cases r with
  | mk typeKey body notMet =>
    rw [Requirement.silenced, Requirement.isMet, Requirement.isMet,
      RequirementBody.silenced_check_false c body]
    simp only [Bool.and_false, Bool.false_and, Bool.false_eq_true, if_false]

theorem RequirementBody.silenced_check_false (c : ContextId) (body : RequirementBody) :
    body.silenced.check c false = body.check c false := by
  cases body with
  | all requirements =>
    rw [RequirementBody.silenced, RequirementBody.check, RequirementBody.check,
      silenceAll_allMet_false c requirements]
  | any requirements =>
    rw [RequirementBody.silenced, RequirementBody.check, RequirementBody.check,
      silenceAll_anyMet c requirements]
  | not requirement =>
    rw [RequirementBody.silenced, RequirementBody.check, RequirementBody.check,
      Requirement.silenced_isMet_false c requirement]
  | _ => rfl

theorem silenceAll_allMet_false (c : ContextId) (requirements : List Requirement) :
    allMet c false (silenceAll requirements) = allMet c false requirements := by
  cases requirements with
  | nil => rfl
  | cons r rest =>
    rw [silenceAll, allMet, allMet, Requirement.silenced_isMet_false c r,
      silenceAll_allMet_false c rest]

theorem silenceAll_anyMet (c : ContextId) (requirements : List Requirement) :
    anyMet c (silenceAll requirements) = anyMet c requirements := by
  cases requirements with
  | nil => rfl
  | cons r rest =>
    rw [silenceAll, anyMet, anyMet, Requirement.silenced_isMet_false c r,
      silenceAll_anyMet c rest]

end

theorem Requirement.silenced_isMet (c : ContextId) (sideEffects : Bool) (r : Requirement) :
    r.silenced.isMet c sideEffects = r.body.silenced.check c sideEffects := by
  cases r with
  | mk typeKey body notMet =>
    simp [Requirement.silenced, Requirement.isMet, Requirement.body]

/-! ### The chain of unmet requirements -/

mutual

/-- The requirements whose not-met actions run when this one is not met: a conjunction
    comes after the chain of its first unmet member. -/
def Requirement.unmetChain (c : ContextId) (st : EngineState) : Requirement → List Requirement
  | .mk typeKey body notMet => body.unmetChain c st ++ [.mk typeKey body notMet]

def RequirementBody.unmetChain (c : ContextId) (st : EngineState) :
    RequirementBody → List Requirement
  | .all requirements => unmetChain c st requirements
  | _ => []

/-- The chain of the first unmet requirement of a list. -/
def unmetChain (c : ContextId) (st : EngineState) : List Requirement → List Requirement
  | [] => []
  | r :: rest =>
    match r.silenced.isMet c true st with
    | .ok true st' => unmetChain c st' rest
    | _ => r.unmetChain c st

end

def Requirement.fire (c : ContextId) (r : Requirement) : Run Unit := do
  if !r.notMet.isEmpty then
    Run.report (.notMet r.typeKey r.notMet.length)
    triggerAll c r.notMet

def fireAll (c : ContextId) : List Requirement → Run Unit
  | [] => pure ()
  | r :: rest => do
    r.fire c
    fireAll c rest

theorem fireAll_append (c : ContextId) (first second : List Requirement) :
    fireAll c (first ++ second) = (do fireAll c first; fireAll c second) := by
  induction first with
  | nil => rfl
  | cons r rest ih =>
    rw [List.cons_append, fireAll, fireAll, ih]
    simp

/-- Evaluate; if the verdict is no, trigger the not-met actions of a chain. -/
def thenFire (c : ContextId) (chain : List Requirement) (evaluation : Run Bool) : Run Bool := do
  if ← evaluation then return true
  fireAll c chain
  return false

/-- What an evaluation comes to with a chain after it, by what it comes to alone. -/
theorem thenFire_apply (c : ContextId) (chain : List Requirement) (evaluation : Run Bool)
    (st : EngineState) :
    thenFire c chain evaluation st =
      match evaluation st with
      | .ok true st' => .ok true st'
      | .ok false st' => (fireAll c chain >>= fun _ => pure false : Run Bool) st'
      | .error message st' => .error message st' := by
  rw [thenFire, bind_apply]
  cases evaluation st with
  | error message st' => rfl
  | ok met st' => cases met <;> rfl

theorem thenFire_nil (c : ContextId) (evaluation : Run Bool) (st : EngineState) :
    thenFire c [] evaluation st = evaluation st := by
  rw [thenFire_apply]
  cases evaluation st with
  | error message st' => rfl
  | ok met st' => cases met <;> rfl

section Results

variable {c : ContextId} {chain requirements : List Requirement} {evaluation : Run Bool}
  {st st' : EngineState} {message : String}

theorem thenFire_eq_true_iff :
    thenFire c chain evaluation st = .ok true st' ↔ evaluation st = .ok true st' := by
  rw [thenFire_apply]
  rcases evaluation st with ⟨_ | _, mid⟩ | ⟨m, mid⟩
  · simp only [bind_apply]
    cases fireAll c chain mid <;> simp
  · rfl
  · rfl

theorem thenFire_eq_false_iff :
    thenFire c chain evaluation st = .ok false st' ↔
      ∃ mid, evaluation st = .ok false mid ∧ fireAll c chain mid = .ok () st' := by
  rw [thenFire_apply]
  rcases evaluation st with ⟨_ | _, mid⟩ | ⟨m, mid⟩
  · simp only [bind_apply]
    cases hfired : fireAll c chain mid <;> simp [hfired]
  · simp
  · simp

theorem thenFire_eq_error_iff :
    thenFire c chain evaluation st = .error message st' ↔
      evaluation st = .error message st' ∨
        ∃ mid, evaluation st = .ok false mid ∧ fireAll c chain mid = .error message st' := by
  rw [thenFire_apply]
  rcases evaluation st with ⟨_ | _, mid⟩ | ⟨m, mid⟩
  · simp only [bind_apply]
    cases hfired : fireAll c chain mid <;> simp [hfired]
  · simp
  · simp

end Results

/-! ### First the verdict, then the chain -/

theorem Requirement.isMet_true (c : ContextId) (r : Requirement) :
    r.isMet c true = thenFire c [r] (r.body.check c true) := by
  cases r with
  | mk typeKey body notMet =>
    rw [Requirement.isMet, thenFire]
    refine bind_congr fun met => ?_
    cases met with
    | true => rfl
    | false =>
      cases notMet <;> simp [fireAll, Requirement.fire, Requirement.notMet, Requirement.typeKey]

-- The induction is on the tree of requirements; the state is that in which each of them is
-- reached, and the chain at that state is what the requirement leaves to be triggered.
mutual

/-- A requirement comes to its verdict first, and triggers its chain if that is no. -/
theorem Requirement.isMet_eq (c : ContextId) (r : Requirement) (st : EngineState) :
    r.isMet c true st = thenFire c (r.unmetChain c st) (r.silenced.isMet c true) st := by
  cases r with
  | mk typeKey body notMet =>
    rw [Requirement.silenced_isMet, Requirement.isMet_true, thenFire_apply, thenFire_apply,
      Requirement.body, RequirementBody.check_eq c body st, thenFire_apply,
      Requirement.unmetChain]
    cases body.silenced.check c true st with
    | error message st' => rfl
    | ok met st' =>
      cases met with
      | true => rfl
      | false =>
        dsimp only
        rw [fireAll_append, bind_assoc, bind_apply, bind_apply]
        cases fireAll c (body.unmetChain c st) st' <;> rfl

theorem RequirementBody.check_eq (c : ContextId) (body : RequirementBody) (st : EngineState) :
    body.check c true st = thenFire c (body.unmetChain c st) (body.silenced.check c true) st := by
  cases body with
  | all requirements =>
    rw [RequirementBody.silenced, RequirementBody.check, RequirementBody.check,
      RequirementBody.unmetChain, allMet_eq c requirements st]
  | any requirements =>
    rw [RequirementBody.silenced, RequirementBody.check, RequirementBody.check, silenceAll_anyMet]
    exact (thenFire_nil c _ st).symm
  | not requirement =>
    rw [RequirementBody.silenced, RequirementBody.check, RequirementBody.check,
      Requirement.silenced_isMet_false]
    exact (thenFire_nil c _ st).symm
  | _ => exact (thenFire_nil c _ st).symm

/-- A list of requirements comes to its verdict first, and triggers its chain if that is no. -/
theorem allMet_eq (c : ContextId) (requirements : List Requirement) (st : EngineState) :
    allMet c true requirements st =
      thenFire c (unmetChain c st requirements) (allMet c true (silenceAll requirements)) st := by
  cases requirements with
  | nil => rfl
  | cons r rest =>
    rw [silenceAll, allMet, allMet, bind_apply, Requirement.isMet_eq c r st, unmetChain,
      thenFire_apply, thenFire_apply, bind_apply]
    cases r.silenced.isMet c true st with
    | error message st' => rfl
    | ok met st' =>
      cases met with
      | true =>
        simp only [if_true]
        rw [allMet_eq c rest st', thenFire_apply]
      | false =>
        simp only [Bool.false_eq_true, if_false, bind_apply, pure_apply]
        cases fireAll c (r.unmetChain c st) st' <;> rfl

end

/-! ### What is evaluated -/

mutual

/-- The requirement without those members that its evaluation at a state never gets to. -/
def Requirement.reached (c : ContextId) (sideEffects : Bool) (st : EngineState) :
    Requirement → Requirement
  | .mk typeKey body notMet => .mk typeKey (body.reached c sideEffects st) notMet

def RequirementBody.reached (c : ContextId) (sideEffects : Bool) (st : EngineState) :
    RequirementBody → RequirementBody
  | .all requirements => .all (reachedAll c sideEffects st requirements)
  | .any requirements => .any (reachedAny c st requirements)
  | .not requirement => .not (requirement.reached c false st)
  | body => body

/-- The requirements up to the first that is not met. -/
def reachedAll (c : ContextId) (sideEffects : Bool) (st : EngineState) :
    List Requirement → List Requirement
  | [] => []
  | r :: rest =>
    r.reached c sideEffects st ::
      match r.isMet c sideEffects st with
      | .ok true st' => reachedAll c sideEffects st' rest
      | _ => []

def reachedAny (c : ContextId) (st : EngineState) : List Requirement → List Requirement
  | [] => []
  | r :: rest =>
    r.reached c false st ::
      match r.isMet c false st with
      | .ok false st' => reachedAny c st' rest
      | _ => []

end

mutual

/-- What is never reached makes no difference. -/
theorem Requirement.reached_isMet (c : ContextId) (sideEffects : Bool) (r : Requirement)
    (st : EngineState) :
    (r.reached c sideEffects st).isMet c sideEffects st = r.isMet c sideEffects st := by
  cases r with
  | mk typeKey body notMet =>
    rw [Requirement.reached, Requirement.isMet, Requirement.isMet, bind_apply, bind_apply,
      RequirementBody.reached_check c sideEffects body st]

theorem RequirementBody.reached_check (c : ContextId) (sideEffects : Bool) (body : RequirementBody)
    (st : EngineState) :
    (body.reached c sideEffects st).check c sideEffects st = body.check c sideEffects st := by
  cases body with
  | all requirements =>
    rw [RequirementBody.reached, RequirementBody.check, RequirementBody.check,
      reachedAll_allMet c sideEffects requirements st]
  | any requirements =>
    rw [RequirementBody.reached, RequirementBody.check, RequirementBody.check,
      reachedAny_anyMet c requirements st]
  | not requirement =>
    rw [RequirementBody.reached, RequirementBody.check, RequirementBody.check, bind_apply,
      bind_apply, Requirement.reached_isMet c false requirement st]
  | _ => rfl

theorem reachedAll_allMet (c : ContextId) (sideEffects : Bool) (requirements : List Requirement)
    (st : EngineState) :
    allMet c sideEffects (reachedAll c sideEffects st requirements) st =
      allMet c sideEffects requirements st := by
  cases requirements with
  | nil => rfl
  | cons r rest =>
    rw [reachedAll, allMet, allMet, bind_apply, bind_apply,
      Requirement.reached_isMet c sideEffects r st]
    cases r.isMet c sideEffects st with
    | error message st' => rfl
    | ok met st' =>
      cases met with
      | true => exact reachedAll_allMet c sideEffects rest st'
      | false => rfl

theorem reachedAny_anyMet (c : ContextId) (requirements : List Requirement) (st : EngineState) :
    anyMet c (reachedAny c st requirements) st = anyMet c requirements st := by
  cases requirements with
  | nil => rfl
  | cons r rest =>
    rw [reachedAny, anyMet, anyMet, bind_apply, bind_apply, Requirement.reached_isMet c false r st]
    cases r.isMet c false st with
    | error message st' => rfl
    | ok met st' =>
      cases met with
      | true => rfl
      | false => exact reachedAny_anyMet c rest st'

end

/-! ### The whole evaluation -/

/-- Requirements evaluated with side effects come to the verdict of those that are reached,
    with no not-met action run; if it is no, the not-met actions of the unmet chain run, and
    no others. -/
theorem allMet_fires_unmetChain (c : ContextId) (requirements : List Requirement)
    (st : EngineState) :
    allMet c true requirements st =
      thenFire c (unmetChain c st requirements)
        (allMet c true (reachedAll c true st (silenceAll requirements))) st := by
  rw [allMet_eq, thenFire_apply, thenFire_apply, reachedAll_allMet]

section Results

variable {c : ContextId} {requirements : List Requirement} {st st' : EngineState}
  {message : String}

/-- A list that holds runs no not-met action: it ends as it does without them. -/
theorem allMet_eq_true_iff :
    allMet c true requirements st = .ok true st' ↔
      allMet c true (silenceAll requirements) st = .ok true st' := by
  rw [allMet_eq, thenFire_eq_true_iff]

/-- A list that fails runs the not-met actions of the unmet chain, and no others. -/
theorem allMet_eq_false_iff :
    allMet c true requirements st = .ok false st' ↔
      ∃ mid, allMet c true (silenceAll requirements) st = .ok false mid ∧
        fireAll c (unmetChain c st requirements) mid = .ok () st' := by
  rw [allMet_eq, thenFire_eq_false_iff]

/-- An evaluation panics on the way to its verdict, where no not-met action has run, or in the
    not-met actions of the unmet chain. -/
theorem allMet_eq_error_iff :
    allMet c true requirements st = .error message st' ↔
      allMet c true (silenceAll requirements) st = .error message st' ∨
        ∃ mid, allMet c true (silenceAll requirements) st = .ok false mid ∧
          fireAll c (unmetChain c st requirements) mid = .error message st' := by
  rw [allMet_eq, thenFire_eq_error_iff]

end Results

-- A disjunction of nothing fails, so the conjunction around it does, and the roll after it is
-- not drawn.
example (c : ContextId) (st : EngineState) (x y z : List Action) :
    unmetChain c st [.mk "&&" (.all [.mk "||" (.any []) x, .mk "chance" .idle y]) z] =
      [.mk "||" (.any []) x, .mk "&&" (.all [.mk "||" (.any []) x, .mk "chance" .idle y]) z] := rfl

end RuleEngine
