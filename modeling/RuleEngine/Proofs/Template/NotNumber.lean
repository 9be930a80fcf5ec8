/-
  RuleEngine/Proofs/Template/NotNumber.lean
  =========================================
  **What is no number, in formulas.**

  A reference that reads no number is worth the float that is none, and most operators
  hand that on.  `min` and `max` hand it on only if neither side is a number; a power drops
  it when the exponent is zero or the base is one.  `Binary.isNaN_left_iff` and
  `Binary.isNaN_right_iff` say for each operator exactly when it is handed on, so
  `Tree.Reached` tells from a tree whether an unread reference gets to its value
  (`Tree.isNaN_eval`).  Folding does not change that value, nor does a tree without the
  three operators ever drop anything (`Tree.reached_of_strict`).
-/
import RuleEngine.Template.Formula

namespace RuleEngine

open Float.Model (UnpackedFloat)

/-! ### Binary64 -/

namespace Decimal

variable {x y : Float}

theorem isNaN_iff : x.isNaN ↔ x.toModel.unpack = .notANumber := by
  show x.toModel.unpack.isNaN = true ↔ _
  cases x.toModel.unpack with
  | notANumber => exact iff_of_true rfl rfl
  | _ => exact iff_of_false Bool.false_ne_true nofun

theorem isNaN_notNumber : notNumber.isNaN := by decide

theorem isNaN_of_pack {u : UnpackedFloat} (h : u = .notANumber) :
    (Float.ofModel (.pack u)).isNaN := by
  rw [h]
  exact isNaN_notNumber

theorem ofFloat_of_isNaN (hx : x.isNaN) : Value.ofFloat x = .notNumber := by
  unfold Value.ofFloat
  rw [isNaN_iff.mp hx]

theorem compare_of_isNaN (h : x.isNaN ∨ y.isNaN) :
    x.toModel.unpack.compare y.toModel.unpack = none := by
  rcases h with hx | hy
  · rw [isNaN_iff.mp hx]
    rfl
  · rw [isNaN_iff.mp hy]
    cases x.toModel.unpack <;> rfl

theorem not_lt_of_isNaN (h : x.isNaN ∨ y.isNaN) : ¬ x < y := by
  intro hxy
  have hlt : x.toModel.unpack.lt y.toModel.unpack := of_decide_eq_true hxy
  unfold UnpackedFloat.lt at hlt
  rw [compare_of_isNaN h] at hlt
  cases hlt

theorem not_le_of_isNaN (h : x.isNaN ∨ y.isNaN) : ¬ x ≤ y := by
  intro hxy
  have hle : x.toModel.unpack.le y.toModel.unpack := of_decide_eq_true hxy
  unfold UnpackedFloat.le at hle
  rw [compare_of_isNaN h] at hle
  cases hle

theorem beq_of_isNaN (h : x.isNaN ∨ y.isNaN) : (x == y) = false := by
  show (x.toModel.unpack.compare y.toModel.unpack == some .eq) = false
  rw [compare_of_isNaN h]
  rfl

end Decimal

open Decimal

namespace Arithmetic

/-! ### Operators -/

theorem Unary.isNaN {x : Float} (hx : x.isNaN) (op : Unary) : (binary64.unary op x).isNaN := by
  cases op with
  | negate | abs | sqrt =>
    apply isNaN_of_pack
    rw [isNaN_iff.mp hx]
    rfl
  | floor | ceil | round =>
    dsimp only [binary64]
    unfold Rounding.apply
    rw [ofFloat_of_isNaN hx]
    exact hx

/-- An operator hands on a left operand that is no number, given the right one. -/
def Binary.PassesLeft : Binary → Float → Prop
  | .min, right | .max, right => right.isNaN
  | .pow, right => ¬ (right == 0)
  | _, _ => True

def Binary.PassesRight : Binary → Float → Prop
  | .min, left | .max, left => left.isNaN
  | .pow, left => ¬ (left == 1)
  | _, _ => True

theorem Binary.isNaN_left_iff {x : Float} (hx : x.isNaN) (op : Binary) (y : Float) :
    (binary64.binary op x y).isNaN ↔ op.PassesLeft y := by
  cases op with
  | add | sub | mul =>
    refine iff_of_true ?_ trivial
    apply isNaN_of_pack
    rw [isNaN_iff.mp hx]
    rfl
  | div =>
    refine iff_of_true ?_ trivial
    dsimp only [binary64, quotient]
    split
    · exact isNaN_notNumber
    · apply isNaN_of_pack
      rw [isNaN_iff.mp hx]
      rfl
  | rem =>
    refine iff_of_true ?_ trivial
    dsimp only [binary64, remainder]
    rw [ofFloat_of_isNaN hx]
    exact isNaN_notNumber
  | pow =>
    dsimp only [binary64, power, PassesLeft]
    rw [beq_of_isNaN (.inl hx), hx, Bool.or_false, Bool.true_or, if_pos rfl]
    cases y == 0 with
    | true => exact iff_of_false (by decide) (by decide)
    | false => exact iff_of_true isNaN_notNumber Bool.false_ne_true
  | min =>
    dsimp only [binary64, smaller, PassesLeft]
    rw [hx, Bool.true_or, if_pos rfl]
  | max =>
    dsimp only [binary64, greater, PassesLeft]
    rw [hx, Bool.true_or, if_pos rfl]

theorem Binary.isNaN_right_iff {y : Float} (hy : y.isNaN) (op : Binary) (x : Float) :
    (binary64.binary op x y).isNaN ↔ op.PassesRight x := by
  cases op with
  | add | sub | mul =>
    refine iff_of_true ?_ trivial
    apply isNaN_of_pack
    rw [isNaN_iff.mp hy]
    cases x.toModel.unpack <;> rfl
  | div =>
    refine iff_of_true ?_ trivial
    dsimp only [binary64, quotient]
    split
    · exact isNaN_notNumber
    · apply isNaN_of_pack
      rw [isNaN_iff.mp hy]
      cases x.toModel.unpack <;> rfl
  | rem =>
    refine iff_of_true ?_ trivial
    dsimp only [binary64, remainder]
    rw [ofFloat_of_isNaN hy]
    cases Value.ofFloat x <;> exact isNaN_notNumber
  | pow =>
    dsimp only [binary64, power, PassesRight]
    rw [beq_of_isNaN (.inl hy), hy, Bool.false_or, Bool.or_true, if_pos rfl]
    cases x == 1 with
    | true => exact iff_of_false (by decide) (by decide)
    | false => exact iff_of_true isNaN_notNumber Bool.false_ne_true
  | min =>
    dsimp only [binary64, smaller, PassesRight]
    rw [decide_eq_false (not_le_of_isNaN (.inl hy)), Bool.or_false]
    cases hx : x.isNaN with
    | true => exact iff_of_true hy rfl
    | false => exact iff_of_false (by rw [if_neg Bool.false_ne_true, hx]; decide) (by decide)
  | max =>
    dsimp only [binary64, greater, PassesRight]
    rw [decide_eq_false (not_le_of_isNaN (.inr hy)), Bool.or_false]
    cases hx : x.isNaN with
    | true => exact iff_of_true hy rfl
    | false => exact iff_of_false (by rw [if_neg Bool.false_ne_true, hx]; decide) (by decide)

/-- An operator hands on whatever is no number. -/
def Binary.Strict : Binary → Prop
  | .min | .max | .pow => False
  | _ => True

theorem Binary.passesLeft_of_strict {op : Binary} (h : op.Strict) (y : Float) :
    op.PassesLeft y := by
  cases op with
  | min | max | pow => exact h.elim
  | _ => trivial

theorem Binary.passesRight_of_strict {op : Binary} (h : op.Strict) (x : Float) :
    op.PassesRight x := by
  cases op with
  | min | max | pow => exact h.elim
  | _ => trivial

/-! ### Trees -/

namespace Tree

def value (scope : Scope) (t : Tree) : Float := t.eval binary64 (Formula.operand scope)

/-- Some reference of the tree reads no number, and every operator above it hands that on. -/
def Reached (scope : Scope) : Tree → Prop
  | const _ => False
  | reference target => scope.number? target = none
  | unary _ operand => operand.Reached scope
  | binary op left right =>
    (left.Reached scope ∧ op.PassesLeft (right.value scope)) ∨
      (right.Reached scope ∧ op.PassesRight (left.value scope))

theorem isNaN_value {scope : Scope} {t : Tree} (h : t.Reached scope) : (t.value scope).isNaN := by
  induction t with
  | const x => exact h.elim
  | reference target =>
    show ((scope.number? target).getD notNumber).isNaN
    rw [show scope.number? target = none from h]
    exact isNaN_notNumber
  | unary op operand ih => exact Unary.isNaN (ih h) op
  | binary op left right ihLeft ihRight =>
    rcases h with ⟨hleft, hpasses⟩ | ⟨hright, hpasses⟩
    · exact (Binary.isNaN_left_iff (ihLeft hleft) op _).mpr hpasses
    · exact (Binary.isNaN_right_iff (ihRight hright) op _).mpr hpasses

/-- What the other three operators make of an unread reference: it is as if `min` and `max`
    had the other side alone, and with the exponent zero a power is one. -/
theorem value_of_dropped {scope : Scope} {target : Reference}
    (hunread : scope.number? target = none) (t : Tree) :
    (binary .min (reference target) t).value scope = t.value scope ∧
      (binary .max (reference target) t).value scope = t.value scope ∧
      ((t.value scope == 0) = true → (binary .pow (reference target) t).value scope = 1) := by
  have hnan : (Formula.operand scope target).isNaN := by
    unfold Formula.operand
    rw [hunread]
    exact isNaN_notNumber
  unfold value
  simp only [eval, binary64]
  refine ⟨?_, ?_, ?_⟩
  · rw [smaller, hnan, Bool.true_or, if_pos rfl]
  · rw [greater, hnan, Bool.true_or, if_pos rfl]
  · intro hzero
    rw [power, hzero, Bool.true_or, if_pos rfl]

/-- No operator of the tree ever drops what is no number. -/
def Strict : Tree → Prop
  | const _ | reference _ => True
  | unary _ operand => operand.Strict
  | binary op left right => op.Strict ∧ left.Strict ∧ right.Strict

theorem reached_of_strict {scope : Scope} {t : Tree} (ht : t.Strict) {target : Reference}
    (hmem : target ∈ t.references) (hunread : scope.number? target = none) : t.Reached scope := by
  induction t with
  | const x => cases hmem
  | reference other =>
    rw [references, List.mem_singleton] at hmem
    rw [hmem] at hunread
    exact hunread
  | unary op operand ih => exact ih ht hmem
  | binary op left right ihLeft ihRight =>
    obtain ⟨hop, hleft, hright⟩ := ht
    rw [references, List.mem_append] at hmem
    rcases hmem with hmem | hmem
    · exact .inl ⟨ihLeft hleft hmem, Binary.passesLeft_of_strict hop _⟩
    · exact .inr ⟨ihRight hright hmem, Binary.passesRight_of_strict hop _⟩

/-! ### Folding -/

section Folding

variable (ops : Interpretation) (read : Reference → Float)

theorem eval_foldUnary (op : Unary) (operand : Tree) :
    (foldUnary ops op operand).eval ops read = ops.unary op (operand.eval ops read) := by
  cases operand <;> rfl

theorem eval_foldBinary (op : Binary) (left right : Tree) :
    (foldBinary ops op left right).eval ops read =
      ops.binary op (left.eval ops read) (right.eval ops read) := by
  unfold foldBinary
  split <;> rfl

theorem eval_fold (t : Tree) : (t.fold ops).eval ops read = t.eval ops read := by
  induction t with
  | const x => rfl
  | reference target => rfl
  | unary op operand ih => rw [fold, eval_foldUnary, ih, eval]
  | binary op left right ihLeft ihRight => rw [fold, eval_foldBinary, ihLeft, ihRight, eval]

end Folding

end Tree

end Arithmetic

namespace Formula

def spelled (source : String) : Except TemplateError Arithmetic.Tree := do
  treeOf (← Token.scan 0 source.toList)

theorem compile_of_spelled {source : String} {t : Arithmetic.Tree} (h : spelled source = .ok t) :
    compile source = .ok ⟨source, t.fold Arithmetic.binary64⟩ := by
  unfold spelled at h
  unfold compile
  cases htokens : Token.scan 0 source.toList with
  | error e =>
    rw [htokens] at h
    cases h
  | ok tokens =>
    rw [htokens] at h
    have htree : treeOf tokens = .ok t := h
    show (do return (⟨source, (← treeOf tokens).fold Arithmetic.binary64⟩ : Formula)) = _
    rw [htree]
    rfl

theorem eval_eq_value (source : String) (t : Arithmetic.Tree) (scope : Scope) :
    eval ⟨source, t.fold Arithmetic.binary64⟩ scope = t.value scope :=
  Arithmetic.Tree.eval_fold _ _ t

end Formula

end RuleEngine
