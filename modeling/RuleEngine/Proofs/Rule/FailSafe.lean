/-
  RuleEngine/Proofs/Rule/FailSafe.lean
  ====================================
  **Rules on what is no number.**

  A comparison with what is no number does not hold, and an action whose chance is no
  number does not run.  So a formula fails safe when one of its references reads no
  number and the operators above it hand that on (`reached_fails_safe`).  Where an
  operator drops it nothing fails: the greater of an unread reference and one is one,
  which is a chance that is certain.
-/
import RuleEngine.Proofs.Rule.Reading
import RuleEngine.Proofs.Template.NotNumber

namespace RuleEngine

open Run Decimal

theorem Relation.not_holds_of_isNaN {x y : Float} (h : x.isNaN ∨ y.isNaN) (relation : Relation) :
    relation.holds x y = false := by
  cases relation with
  | greater => exact decide_eq_false (not_lt_of_isNaN h.symm)
  | greaterOrEqual => exact decide_eq_false (not_le_of_isNaN h.symm)
  | less => exact decide_eq_false (not_lt_of_isNaN h)
  | lessOrEqual => exact decide_eq_false (not_le_of_isNaN h)

section Unread

variable {c : ContextId} {f : Formula} {st : EngineState}

/-! ### Chances -/

theorem admitted_ne_true (typeKey : String) (h : (f.eval (st.world.scope c)).isNaN) :
    (Action.admitted c typeKey f).outcome st ≠ .ok true := by
  -- A constant chance of one is admitted unseen, but a constant is its own value.
  have hconst : f.const?.any (· == 1) = false := by
    unfold Formula.eval at h
    unfold Formula.const?
    cases htree : f.tree with
    | const x =>
      rw [htree] at h
      exact beq_of_isNaN (.inl h)
    | _ => rfl
  unfold Action.admitted
  rw [hconst]
  intro hadmitted
  rw [if_neg Bool.false_ne_true] at hadmitted
  obtain ⟨limit, hlimit, hadmitted⟩ := outcome_bind_eq_ok.mp hadmitted
  rw [← eq_of_evaluate hlimit] at h
  rw [if_neg (not_le_of_isNaN (.inr h))] at hadmitted
  obtain ⟨x, -, hadmitted⟩ := outcome_bind_eq_ok.mp hadmitted
  rw [if_neg (not_lt_of_isNaN (.inr h))] at hadmitted
  obtain ⟨_, -, hadmitted⟩ := outcome_bind_eq_ok.mp hadmitted
  cases hadmitted

theorem trigger_of_isNaN (typeKey : String) (body : ActionBody)
    (h : (f.eval (st.world.scope c)).isNaN) :
    (Action.mk typeKey f body).trigger c st = (Action.mk typeKey f .idle).trigger c st := by
  rw [Action.trigger, Action.trigger, bind_apply, bind_apply]
  cases hadmitted : Action.admitted c typeKey f st with
  | error message st' => rfl
  | ok admitted st' =>
    cases admitted with
    | true => exact absurd (outcome_eq_ok.mpr ⟨st', hadmitted⟩) (admitted_ne_true typeKey h)
    | false => rfl

theorem chance_ne_true (sideEffects : Bool) (h : (f.eval (st.world.scope c)).isNaN) :
    ((RequirementBody.chance f).check c sideEffects).outcome st ≠ .ok true := by
  rw [RequirementBody.check]
  intro hmet
  obtain ⟨x, -, hmet⟩ := outcome_bind_eq_ok.mp hmet
  obtain ⟨limit, hlimit, hmet⟩ := outcome_bind_eq_ok.mp hmet
  have hvalue := eq_of_evaluate hlimit
  rw [(calm_roll.views st).scope_eq c] at hvalue
  rw [← hvalue] at h
  exact not_lt_of_isNaN (.inr h) (of_decide_eq_true (Except.ok.inj hmet))

/-! ### Comparisons -/

theorem comparison_ne_true (relation : Relation) {left right : Formula} (sideEffects : Bool)
    (h : (left.eval (st.world.scope c)).isNaN ∨ (right.eval (st.world.scope c)).isNaN) :
    ((RequirementBody.comparison relation left right).check c sideEffects).outcome st ≠
      .ok true := by
  rw [RequirementBody.check]
  intro hmet
  obtain ⟨x, hleft, hmet⟩ := outcome_bind_eq_ok.mp hmet
  obtain ⟨y, hright, hmet⟩ := outcome_bind_eq_ok.mp hmet
  have hx := eq_of_evaluate hleft
  have hy := eq_of_evaluate hright
  rw [((reading_evaluate c left).views st).scope_eq c] at hy
  rw [← hx, ← hy] at h
  have hholds : relation.holds x y = true := Except.ok.inj hmet
  rw [Relation.not_holds_of_isNaN h] at hholds
  cases hholds

end Unread

/-! ### Formulas that fail safe -/

/-- The body is not met, or the platform fails over a placeholder before that is known. -/
def RequirementBody.Fails (body : RequirementBody) (c : ContextId) (sideEffects : Bool)
    (st : EngineState) : Prop :=
  (∃ st', body.check c sideEffects st = .ok false st') ∨
    ∃ message st', body.check c sideEffects st = .error message st' ∧ st.world.Faults message

theorem calm_chance (c : ContextId) (f : Formula) (sideEffects : Bool) :
    Calm ((RequirementBody.chance f).check c sideEffects) := by
  rw [RequirementBody.check]
  refine calm_roll.bind fun x => ?_
  exact (reading_evaluate c f).toCalm.bind fun limit => calm_pure _

/-- A formula of which some reference reads no number, with that handed on by every operator
    above it, is no number either.  No comparison with it holds, no roll is below it, and an
    action whose chance it is does nothing but find that out. -/
theorem reached_fails_safe {source : String} {t : Arithmetic.Tree}
    (hspelled : Formula.spelled source = .ok t) (c : ContextId) (st : EngineState)
    (hreached : t.Reached (st.world.scope c)) :
    ∃ f, Formula.compile source = .ok f ∧ (f.eval (st.world.scope c)).isNaN ∧
      (∀ relation other sideEffects,
        (RequirementBody.comparison relation f other).Fails c sideEffects st ∧
          (RequirementBody.comparison relation other f).Fails c sideEffects st ∧
          (RequirementBody.chance f).Fails c sideEffects st) ∧
      ∀ typeKey body,
        (Action.mk typeKey f body).trigger c st = (Action.mk typeKey f .idle).trigger c st := by
  have hnan : (Formula.eval ⟨source, t.fold Arithmetic.binary64⟩ (st.world.scope c)).isNaN := by
    rw [Formula.eval_eq_value]
    exact Arithmetic.Tree.isNaN_value hreached
  refine ⟨_, Formula.compile_of_spelled hspelled, hnan, ?_, ?_⟩
  · intro relation other sideEffects
    have hcalm : ∀ left right,
        Calm ((RequirementBody.comparison relation left right).check c sideEffects) := by
      intro left right
      have hbody : (RequirementBody.comparison relation left right).IsComparison := trivial
      exact (RequirementBody.reading_check hbody c sideEffects).toCalm
    refine ⟨?_, ?_, ?_⟩
    · exact Calm.ok_or_fault (hcalm _ _) (comparison_ne_true relation sideEffects (.inl hnan))
    · exact Calm.ok_or_fault (hcalm _ _) (comparison_ne_true relation sideEffects (.inr hnan))
    · exact Calm.ok_or_fault (calm_chance c _ sideEffects) (chance_ne_true sideEffects hnan)
  · intro typeKey body
    exact trigger_of_isNaN typeKey body hnan

theorem spelled_power :
    Formula.spelled "\x7bgold\x7d^\x7bluck\x7d" =
      .ok (.binary .pow (.reference (.property "gold")) (.reference (.property "luck"))) := by
  have hscan : Token.scan 0 "\x7bgold\x7d^\x7bluck\x7d".toList = .ok
      [.reference (.property "gold"), .symbol .caret, .reference (.property "luck")] := by
    have hluck : Token.scan 7 "\x7bluck\x7d".toList = .ok [.reference (.property "luck")] := by
      show Token.scan 7 ('\x7b' :: "luck\x7d".toList) = _
      rw [Token.scan.eq_def]
      show (Token.scan 13 []).map _ = _
      rw [Token.scan.eq_def]
      rfl
    show Token.scan 0 ('\x7b' :: "gold\x7d^\x7bluck\x7d".toList) = _
    rw [Token.scan.eq_def]
    show (Token.scan 6 ('^' :: "\x7bluck\x7d".toList)).map _ = _
    rw [Token.scan.eq_def]
    show ((Token.scan 7 "\x7bluck\x7d".toList).map _).map _ = _
    rw [hluck]
    rfl
  have htree : Formula.treeOf
      [.reference (.property "gold"), .symbol .caret, .reference (.property "luck")] =
        .ok (.binary .pow (.reference (.property "gold")) (.reference (.property "luck"))) := by
    cbv
  rw [Formula.spelled, hscan]
  exact htree

/-- A power of two properties that are not there is no number: an action with that chance does
    not run. -/
theorem reached_fails_safe_power :
    let source := "\x7bgold\x7d^\x7bluck\x7d"
    let t := Arithmetic.Tree.binary .pow (.reference (.property "gold"))
      (.reference (.property "luck"))
    let st : EngineState := { world := {} }
    Formula.spelled source = .ok t ∧ t.Reached (st.world.scope 0) ∧
      ∃ f, Formula.compile source = .ok f ∧ (f.eval (st.world.scope 0)).isNaN ∧
        ∀ body, (Action.mk "command" f body).trigger 0 st =
          (Action.mk "command" f .idle).trigger 0 st := by
  intro source t st
  have hunread : ∀ key, Arithmetic.Tree.Reached (st.world.scope 0) (.reference (.property key)) :=
    fun key => rfl
  have hreached : t.Reached (st.world.scope 0) := by
    refine .inl ⟨hunread "gold", ?_⟩
    intro hzero
    rw [beq_of_isNaN (.inl (Arithmetic.Tree.isNaN_value (hunread "luck")))] at hzero
    cases hzero
  obtain ⟨f, hcompile, hnan, -, hidle⟩ := reached_fails_safe spelled_power 0 st hreached
  exact ⟨spelled_power, hreached, f, hcompile, hnan, hidle "command"⟩

end RuleEngine
