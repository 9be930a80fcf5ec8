/-
  RuleEngine/Proofs/Rule/Firing.lean
  ==================================
  **Firing an event.**

  Firing an event evaluates its conditions with side effects and, if they hold, triggers
  its actions.  The answer is yes exactly if they held and every action ran to its end, one
  after the other in declared order.  A panic is answered like conditions that do not hold,
  and so is an unknown event; what the no stands for is taken apart here
  (`fire_answers`).  None of the event's own actions was triggered then, with one exception:
  the panic may have struck in one of them, and those in front of it have been triggered.
-/
import RuleEngine.RuleBook
import RuleEngine.Proofs.Rule.NotMet

namespace RuleEngine

open Run

variable {c : ContextId} {st st' : EngineState} {message : Panic}

/-! ### Actions in order -/

/-- Actions are triggered one after the other, each of them to its end. -/
inductive TriggersAll (c : ContextId) : List Action → EngineState → EngineState → Prop
  | nil (st : EngineState) : TriggersAll c [] st st
  | cons {a : Action} {rest : List Action} {st mid st' : EngineState}
      (first : a.trigger c st = .ok () mid) (later : TriggersAll c rest mid st') :
      TriggersAll c (a :: rest) st st'

theorem triggersAll_iff {actions : List Action} :
    TriggersAll c actions st st' ↔ triggerAll c actions st = .ok () st' := by
  constructor
  · intro h
    induction h with
    | nil st => rfl
    | cons first later ih =>
      rw [triggerAll, bind_apply, first]
      exact ih
  · intro h
    induction actions generalizing st with
    | nil =>
      cases h
      exact .nil _
    | cons a rest ih =>
      rw [triggerAll, bind_apply] at h
      cases hfirst : a.trigger c st with
      | ok u mid =>
        rw [hfirst] at h
        exact .cons hfirst (ih h)
      | error message mid =>
        rw [hfirst] at h
        cases h

/-- Some of the actions are triggered in order; the next one panics, and the others are not
    reached. -/
def BreaksOff (c : ContextId) (actions : List Action) (st : EngineState) (message : Panic)
    (st' : EngineState) : Prop :=
  ∃ done a rest mid, actions = done ++ a :: rest ∧ TriggersAll c done st mid ∧
    a.trigger c mid = .error message st'

theorem breaksOff_iff {actions : List Action} :
    BreaksOff c actions st message st' ↔ triggerAll c actions st = .error message st' := by
  constructor
  · rintro ⟨done, a, rest, mid, rfl, hdone, ha⟩
    induction hdone with
    | nil st =>
      rw [List.nil_append, triggerAll, bind_apply, ha]
    | cons first later ih =>
      rw [List.cons_append, triggerAll, bind_apply, first]
      exact ih ha
  · intro h
    induction actions generalizing st with
    | nil => cases h
    | cons a rest ih =>
      rw [triggerAll, bind_apply] at h
      cases hfirst : a.trigger c st with
      | error message mid =>
        rw [hfirst] at h
        cases h
        exact ⟨[], a, rest, st, rfl, .nil st, hfirst⟩
      | ok u mid =>
        rw [hfirst] at h
        obtain ⟨done, b, others, mid', rfl, hdone, hb⟩ := ih h
        exact ⟨a :: done, b, others, mid', rfl, .cons hfirst hdone, hb⟩

/-! ### Conditions -/

section Conditions

variable {conditions : List Requirement}

/-- Conditions hold: their verdict is yes, and no not-met action runs. -/
def Hold (c : ContextId) (conditions : List Requirement) (st st' : EngineState) : Prop :=
  allMet c true (silenceAll conditions) st = .ok true st'

/-- Conditions do not hold: after their verdict the not-met actions of the unmet chain run, and
    all of them run to their end. -/
def DoNotHold (c : ContextId) (conditions : List Requirement) (st st' : EngineState) : Prop :=
  ∃ mid, allMet c true (silenceAll conditions) st = .ok false mid ∧
    fireAll c (unmetChain c st conditions) mid = .ok () st'

/-- A panic strikes before the verdict, or in one of the not-met actions that run after it. -/
def Undecided (c : ContextId) (conditions : List Requirement) (st : EngineState)
    (message : Panic) (st' : EngineState) : Prop :=
  allMet c true (silenceAll conditions) st = .error message st' ∨
    ∃ mid, allMet c true (silenceAll conditions) st = .ok false mid ∧
      fireAll c (unmetChain c st conditions) mid = .error message st'

/-- The conditions hold, fail or panic, with the not-met actions run after the verdict. -/
theorem allMet_apply (c : ContextId) (conditions : List Requirement) (st : EngineState) :
    allMet c true conditions st =
      match allMet c true (silenceAll conditions) st with
      | .ok true mid => .ok true mid
      | .error message mid => .error message mid
      | .ok false mid =>
        match fireAll c (unmetChain c st conditions) mid with
        | .ok () st' => .ok false st'
        | .error message st' => .error message st' := by
  rw [allMet_eq c conditions st, thenFire_apply]
  rcases allMet c true (silenceAll conditions) st with ⟨_ | _, mid⟩ | ⟨message, mid⟩
  · simp only
    rw [bind_apply]
    cases fireAll c (unmetChain c st conditions) mid <;> rfl
  · rfl
  · rfl

theorem Hold.allMet (h : Hold c conditions st st') :
    allMet c true conditions st = .ok true st' := by
  rw [allMet_apply, h]

theorem DoNotHold.allMet (h : DoNotHold c conditions st st') :
    allMet c true conditions st = .ok false st' := by
  obtain ⟨mid, hverdict, hfire⟩ := h
  rw [allMet_apply, hverdict]
  simp only [hfire]

theorem Undecided.allMet (h : Undecided c conditions st message st') :
    allMet c true conditions st = .error message st' := by
  rcases h with hverdict | ⟨mid, hverdict, hfire⟩
  · rw [allMet_apply, hverdict]
  · rw [allMet_apply, hverdict]
    simp only [hfire]

/-- Conditions hold, or they do not, or a panic leaves them undecided. -/
theorem conditions_cases (c : ContextId) (conditions : List Requirement) (st : EngineState) :
    (∃ st', Hold c conditions st st') ∨ (∃ st', DoNotHold c conditions st st') ∨
      ∃ message st', Undecided c conditions st message st' := by
  rcases hverdict : RuleEngine.allMet c true (silenceAll conditions) st with
    ⟨_ | _, mid⟩ | ⟨message, mid⟩
  · rcases hfire : fireAll c (unmetChain c st conditions) mid with ⟨_, st'⟩ | ⟨message, st'⟩
    · exact .inr (.inl ⟨st', mid, hverdict, hfire⟩)
    · exact .inr (.inr ⟨message, st', .inr ⟨mid, hverdict, hfire⟩⟩)
  · exact .inl ⟨mid, hverdict⟩
  · exact .inr (.inr ⟨message, mid, .inl hverdict⟩)

end Conditions

/-! ### Events -/

def noted (n : Notice) (st : EngineState) : EngineState := { st with world := st.world.report n }

namespace RuleBook

variable {b : RuleBook} {event : String}

theorem fire_of_unknown (h : b.rules? event = none) :
    b.fire event c st = (false, noted (.noRulesFor event) st) := by
  unfold fire
  rw [h]
  rfl

/-- An event that is known answers whether its conditions held and its actions ran to their end. -/
theorem fire_of_known {rules : EventRules} (h : b.rules? event = some rules) :
    b.fire event c st =
      match allMet c true rules.conditions st with
      | .error message mid => (false, noted (.evaluationPanicked event message) mid)
      | .ok false mid => (false, mid)
      | .ok true mid =>
        match triggerAll c rules.actions mid with
        | .error message last => (false, noted (.evaluationPanicked event message) last)
        | .ok () last => (true, last) := by
  unfold fire
  rw [h]
  simp only [guarded]
  rw [bind_apply]
  rcases allMet c true rules.conditions st with ⟨_ | _, mid⟩ | ⟨message, mid⟩
  · rfl
  · simp only [if_true]
    rw [bind_apply]
    cases triggerAll c rules.actions mid <;> rfl
  · rfl

/-- The event is known, its conditions hold, and all its actions are triggered in order. -/
def Accepted (b : RuleBook) (event : String) (c : ContextId) (st st' : EngineState) : Prop :=
  ∃ rules mid, b.rules? event = some rules ∧ Hold c rules.conditions st mid ∧
    TriggersAll c rules.actions mid st'

theorem Accepted.fire (h : Accepted b event c st st') : b.fire event c st = (true, st') := by
  obtain ⟨rules, mid, hrules, hholds, htriggers⟩ := h
  rw [fire_of_known hrules, hholds.allMet]
  simp only [triggersAll_iff.mp htriggers]

/-- The event is unknown, its conditions do not hold, a panic leaves them undecided, or they
    hold and the actions break off. -/
inductive Declined (b : RuleBook) (event : String) (c : ContextId) (st : EngineState) :
    EngineState → Prop
  | unknown (h : b.rules? event = none) : Declined b event c st (noted (.noRulesFor event) st)
  | unmet {rules : EventRules} {st' : EngineState} (h : b.rules? event = some rules)
      (fails : DoNotHold c rules.conditions st st') : Declined b event c st st'
  | undecided {rules : EventRules} {message : Panic} {mid : EngineState}
      (h : b.rules? event = some rules) (panics : Undecided c rules.conditions st message mid) :
      Declined b event c st (noted (.evaluationPanicked event message) mid)
  -- the only case in which actions of the event are triggered
  | brokenOff {rules : EventRules} {message : Panic} {mid last : EngineState}
      (h : b.rules? event = some rules) (holds : Hold c rules.conditions st mid)
      (breaks : BreaksOff c rules.actions mid message last) :
      Declined b event c st (noted (.evaluationPanicked event message) last)

theorem Declined.fire (h : Declined b event c st st') : b.fire event c st = (false, st') := by
  cases h with
  | unknown h => exact fire_of_unknown h
  | unmet h fails => rw [fire_of_known h, fails.allMet]
  | undecided h panics => rw [fire_of_known h, panics.allMet]
  | brokenOff h holds breaks =>
    rw [fire_of_known h, holds.allMet]
    simp only [breaksOff_iff.mp breaks]

theorem accepted_or_declined (b : RuleBook) (event : String) (c : ContextId) (st : EngineState) :
    (∃ st', Accepted b event c st st') ∨ ∃ st', Declined b event c st st' := by
  cases h : b.rules? event with
  | none => exact .inr ⟨_, .unknown h⟩
  | some rules =>
    rcases conditions_cases c rules.conditions st with
      ⟨mid, hholds⟩ | ⟨st', hfails⟩ | ⟨message, mid, hpanic⟩
    · rcases hactions : triggerAll c rules.actions mid with ⟨_, st'⟩ | ⟨message, st'⟩
      · exact .inl ⟨st', rules, mid, h, hholds, triggersAll_iff.mpr hactions⟩
      · exact .inr ⟨_, .brokenOff h hholds (breaksOff_iff.mpr hactions)⟩
    · exact .inr ⟨_, .unmet h hfails⟩
    · exact .inr ⟨_, .undecided h hpanic⟩

/-- What the answer to an event tells, whatever panics: yes, that its conditions held and all its
    actions were triggered in order; no, that it was unknown, that its conditions did not hold or
    were left undecided, or that its actions broke off.  In no but the last of these cases an
    action of the event was triggered. -/
theorem fire_answers (b : RuleBook) (event : String) (c : ContextId) (st st' : EngineState) :
    (b.fire event c st = (true, st') ↔ Accepted b event c st st') ∧
    (b.fire event c st = (false, st') ↔ Declined b event c st st') := by
  rcases accepted_or_declined b event c st with ⟨last, haccepted⟩ | ⟨last, hdeclined⟩
  · have hfire := haccepted.fire
    refine ⟨⟨fun hyes => ?_, Accepted.fire⟩, ⟨fun hno => ?_, Declined.fire⟩⟩
    · rw [hfire] at hyes
      cases hyes
      exact haccepted
    · rw [hfire] at hno
      cases hno
  · have hfire := hdeclined.fire
    refine ⟨⟨fun hyes => ?_, Accepted.fire⟩, ⟨fun hno => ?_, Declined.fire⟩⟩
    · rw [hfire] at hyes
      cases hyes
    · rw [hfire] at hno
      cases hno
      exact hdeclined

def collapsing : RuleBook :=
  let command : Action := .mk "command" (.constant 1) (.command (.literal "p"))
  let explode : Action := .mk "explode" (.constant 1) (.custom (.fail "rule exploded"))
  ⟨[("e", ⟨[], [command, explode]⟩)]⟩

/-- The event is declined, and its command has been run. -/
theorem fire_answers_collapsing :
    ∃ st', collapsing.fire "e" 0 { world := {} } = (false, st') ∧
      Declined collapsing "e" 0 { world := {} } st' ∧ st'.world.deliveries.size = 1 := by
  have hno : (collapsing.fire "e" 0 { world := {} }).1 = false := by decide +kernel
  have hsize : (collapsing.fire "e" 0 { world := {} }).2.world.deliveries.size = 1 := by
    decide +kernel
  have hfire : collapsing.fire "e" 0 { world := {} } =
      (false, (collapsing.fire "e" 0 { world := {} }).2) := Prod.ext hno rfl
  exact ⟨_, hfire, (fire_answers collapsing "e" 0 _ _).2.mp hfire, hsize⟩

end RuleBook

end RuleEngine
