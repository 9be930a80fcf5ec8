/-
  RuleEngine/Proofs/Rule/Certain.lean
  ===================================
  **Chances that are certain.**

  An action whose chance is the constant one runs without a look at its chance.  That is
  only a short way of doing what evaluating the chance would do: a constant has no
  references to read, its value is one wherever it is evaluated, and a chance of one draws
  no roll (`Action.admitted_eq_rolled`).  As folding is not seen by an evaluation either
  (`Run.evaluate_fold`), an action does what its chance asks for as it was written.
-/
import RuleEngine.Proofs.Rule.Reading
import RuleEngine.Proofs.Template.Folding

namespace RuleEngine

open Float.Model (UnpackedFloat)
open Arithmetic (Interpretation Tree binary64)

/-! ### Equal numbers -/

namespace Decimal

theorem compare_symm {a b : UnpackedFloat} (h : a.compare b = some .eq) :
    b.compare a = some .eq := by
  cases a with
  | notANumber => cases h
  | infinity s =>
    cases b with
    | infinity s' => cases s <;> cases s' <;> first | rfl | cases h
    | _ => cases s <;> cases h
  | zero s =>
    cases b with
    | zero s' => rfl
    | notANumber => cases h
    | infinity s' => cases s' <;> cases h
    | finite s' m' e' pos' => cases s' <;> cases h
  | finite s m e pos =>
    cases b with
    | finite s' m' e' pos' =>
      cases s with
      | positive =>
        cases s' with
        | positive =>
          obtain ⟨he, hm⟩ := Ordering.then_eq_eq.mp (Option.some.inj h)
          obtain rfl := compare_eq_iff_eq.mp he
          obtain rfl := compare_eq_iff_eq.mp hm
          exact h
        | negative => cases h
      | negative =>
        cases s' with
        | positive => cases h
        | negative =>
          obtain ⟨he, hm⟩ := Ordering.then_eq_eq.mp (Ordering.swap_eq_eq.mp (Option.some.inj h))
          obtain rfl := compare_eq_iff_eq.mp he
          obtain rfl := compare_eq_iff_eq.mp hm
          exact h
    | infinity s' => cases s' <;> cases h
    | _ => cases s <;> cases h

theorem ge_of_beq {x y : Float} (h : (x == y) = true) : x ≥ y := by
  have heq : (x.toModel.unpack.compare y.toModel.unpack == some .eq) = true := h
  have hle : y.toModel.unpack.le x.toModel.unpack = true := by
    unfold UnpackedFloat.le
    rw [compare_symm (eq_of_beq heq)]
    rfl
  exact decide_eq_true hle

end Decimal

/-! ### Evaluating what is folded -/

namespace Run

/-- Folding is not seen: the same references are read and reported, in the same order, and the
    value is the same. -/
theorem evaluate_fold (c : ContextId) (source : String) (t : Tree) :
    evaluate c ⟨source, t.fold binary64⟩ = evaluate c ⟨source, t⟩ := by
  have hvalue : ∀ scope, Formula.eval ⟨source, t.fold binary64⟩ scope =
      Formula.eval ⟨source, t⟩ scope :=
    fun scope => t.eval_fold binary64 (Formula.operand scope)
  unfold evaluate
  dsimp only
  rw [t.references_fold binary64]
  simp only [hvalue]

/-- A constant is evaluated without a look at the world. -/
theorem evaluate_of_const? {f : Formula} {v : Float} (h : f.const? = some v) (c : ContextId) :
    evaluate c f = pure v := by
  obtain ⟨source, t⟩ := f
  obtain rfl : t = .const v := Arithmetic.Tree.const?_eq_some.mp h
  rfl

end Run

/-! ### Rolling -/

/-- Whether an action gets past its chance, found out by evaluating it in any case. -/
def Action.rolled (c : ContextId) (typeKey : String) (chance : Formula) : Run Bool := do
  let limit ← Run.evaluate c chance
  if limit ≥ 1 then return true
  let roll ← Run.roll
  if roll < limit then return true
  Run.report (.chanceMissed typeKey roll limit)
  return false

/-- **The short way past a certain chance is not seen.** -/
theorem Action.admitted_eq_rolled (c : ContextId) (typeKey : String) (chance : Formula) :
    Action.admitted c typeKey chance = Action.rolled c typeKey chance := by
  unfold Action.admitted
  split
  · rename_i hone
    obtain ⟨v, hv, hbeq⟩ := Option.any_eq_true _ _ |>.mp hone
    unfold Action.rolled
    rw [Run.evaluate_of_const? hv, pure_bind, if_pos (Decimal.ge_of_beq hbeq)]
  · rfl

theorem Action.rolled_fold (c : ContextId) (typeKey source : String) (t : Tree) :
    Action.rolled c typeKey ⟨source, t.fold binary64⟩ = Action.rolled c typeKey ⟨source, t⟩ := by
  unfold Action.rolled
  rw [Run.evaluate_fold]

/-! ### Formulas as they are written -/

/-- A scalar and the tree that it spells, before folding. -/
inductive Formula.Spells : Node → Tree → Prop where
  | int (i : Int64) : Spells (.scalar (.int i)) (.const (.ofInt i.toInt))
  | float (x : Float) : Spells (.scalar (.float x)) (.const x)
  | str {source : String} {ts : List Token} {t : Tree}
      (scanned : Token.scan 0 source.toList = .ok ts) (spelled : Expression ts t) :
      Spells (.scalar (.str source)) t

/-- Every formula is folded. -/
theorem Formula.spells_of_ofNode {node : Node} {f : Formula} (h : ofNode node = .ok f) :
    ∃ t, Spells node t ∧ f = ⟨f.source, t.fold binary64⟩ := by
  cases node with
  | scalar s =>
    cases s with
    | null => cases h
    | bool b => cases h
    | int i =>
      cases h
      exact ⟨_, .int i, rfl⟩
    | float x =>
      cases h
      exact ⟨_, .float x, rfl⟩
    | str source =>
      obtain ⟨ts, t, scanned, spelled, rfl⟩ := compile_eq_ok_iff.mp h
      exact ⟨t, .str scanned spelled, rfl⟩
  | _ => cases h

/-- **Folding is not seen.**  Under any meaning of the operators a folded tree has the value of
    the tree, and it is a constant exactly if the tree has no references, which are those of
    its tokens.  So a formula has a value of its own exactly if it mentions nothing, and that
    is what evaluating it comes to in every context.  An action asks for that value first,
    and does what it would do if it evaluated its chance, as it is written. -/
theorem folding_is_unseen :
    (∀ (ops : Interpretation) (t : Tree),
      (∀ read, (t.fold ops).eval ops read = t.eval ops read) ∧
        ((∃ v, t.fold ops = .const v) ↔ t.references = [])) ∧
    (∀ ts t, Formula.Expression ts t → t.references = Formula.mentioned ts) ∧
    (∀ node f, Formula.ofNode node = .ok f →
      ∃ t, Formula.Spells node t ∧ f = ⟨f.source, t.fold binary64⟩ ∧
        (f.const?.isSome ↔ t.references = []) ∧
        (∀ v, f.const? = some v →
          (∀ scope, f.eval scope = v) ∧ ∀ c, Run.evaluate c f = pure v) ∧
        ∀ c typeKey body, (Action.mk typeKey f body).trigger c = do
          if ← Action.rolled c typeKey ⟨f.source, t⟩ then body.run c) ∧
    ∀ c typeKey chance, Action.admitted c typeKey chance = Action.rolled c typeKey chance := by
  refine ⟨fun ops t => ⟨fun read => t.eval_fold ops read, ?_⟩, fun ts t h => h.references, ?_,
    Action.admitted_eq_rolled⟩
  · rw [← t.const?_fold_isSome_iff ops, Option.isSome_iff_exists]
    simp only [Tree.const?_eq_some]
  · intro node f h
    obtain ⟨t, spells, hf⟩ := Formula.spells_of_ofNode h
    refine ⟨t, spells, hf, ?_, ?_, ?_⟩
    · rw [hf]
      exact t.const?_fold_isSome_iff binary64
    · intro v hv
      refine ⟨?_, Run.evaluate_of_const? hv⟩
      rw [hf] at hv ⊢
      exact ((Formula.const?_eq_some_iff f.source t v).mp hv).2
    · intro c typeKey body
      rw [Action.trigger, Action.admitted_eq_rolled, hf, Action.rolled_fold]

/-- A product of two numbers is folded: it is evaluated without a look at the world, and what
    has it as its chance is rolled for as if the product were still to be worked out. -/
theorem folding_is_unseen_half :
    let product : Tree := .binary .mul (.const 0.25) (.const 2)
    ∃ f, Formula.ofNode (.scalar (.str "0.25 * 2")) = .ok f ∧ f.tree ≠ product ∧
      f.const? = some 0.5 ∧ (∀ c, Run.evaluate c f = pure 0.5) ∧
      ∀ c typeKey body, (Action.mk typeKey f body).trigger c = (do
        if ← Action.rolled c typeKey ⟨"0.25 * 2", product⟩ then body.run c) := by
  intro product
  have hscan : Token.scan 0 "0.25 * 2".toList =
      .ok [.number 0.25, .symbol .times, .number 2] := by
    decide +kernel
  have hspelled : Formula.Expression [.number 0.25, .symbol .times, .number 2] product :=
    .term (.joined (.factor (.power (.atom (.number 0.25)))) .times
      (.power (.atom (.number 2))))
  have hfolded : product.fold binary64 = .const 0.5 := by decide
  have hnode : Formula.ofNode (.scalar (.str "0.25 * 2")) = .ok ⟨"0.25 * 2", .const 0.5⟩ :=
    Formula.compile_eq_ok_iff.mpr ⟨_, _, hscan, hspelled, hfolded ▸ rfl⟩
  obtain ⟨-, -, hformula, -⟩ := folding_is_unseen
  obtain ⟨t, spells, -, -, hvalue, htrigger⟩ := hformula _ _ hnode
  have ht : t = product := by
    cases spells with
    | str scanned spelled =>
      cases hscan.symm.trans scanned
      exact spelled.unique hspelled
  subst ht
  exact ⟨_, hnode, by simp [product], rfl, (hvalue _ rfl).2, htrigger⟩

end RuleEngine
