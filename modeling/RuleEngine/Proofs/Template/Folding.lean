/-
  RuleEngine/Proofs/Template/Folding.lean
  =======================================
  **Folding, and what is left of a tree.**

  Folding replaces every part of a tree that has no references by its value.  It keeps the
  value of the tree, whatever its operators mean (`Tree.eval_fold`), and the references in
  the order in which they are read (`Tree.references_fold`).  It is complete as well: a tree
  is folded to a constant exactly if it has no references (`Tree.const?_fold_isSome_iff`).

  The references of a tree are those of the tokens that spell it, phrase by phrase
  (`Expression.references`), so the source of a formula tells whether it is a constant.
-/
import RuleEngine.Proofs.Template.Grammar
import RuleEngine.Proofs.Template.NotNumber

namespace RuleEngine

namespace Arithmetic.Tree

/-! ### Folding -/

section Folding

variable (ops : Interpretation)

theorem const?_eq_some {t : Tree} {v : Float} : t.const? = some v ↔ t = .const v := by
  cases t <;> simp [const?]

theorem references_of_const {t : Tree} (h : t.const?.isSome) : t.references = [] := by
  obtain ⟨v, hv⟩ := Option.isSome_iff_exists.mp h
  rw [const?_eq_some.mp hv]
  rfl

theorem references_foldUnary (op : Unary) (operand : Tree) :
    (foldUnary ops op operand).references = operand.references := by
  cases operand <;> rfl

theorem references_foldBinary (op : Binary) (left right : Tree) :
    (foldBinary ops op left right).references = left.references ++ right.references := by
  unfold foldBinary
  split <;> rfl

/-- Folding keeps every reference, as only what has none is replaced. -/
theorem references_fold (t : Tree) : (t.fold ops).references = t.references := by
  induction t with
  | const x => rfl
  | reference target => rfl
  | unary op operand ih => rw [fold, references_foldUnary, ih, references]
  | binary op left right ihLeft ihRight =>
    rw [fold, references_foldBinary, ihLeft, ihRight, references]

theorem const?_foldUnary (op : Unary) {operand : Tree} (h : operand.const?.isSome) :
    (foldUnary ops op operand).const?.isSome := by
  obtain ⟨v, hv⟩ := Option.isSome_iff_exists.mp h
  rw [const?_eq_some.mp hv]
  rfl

theorem const?_foldBinary (op : Binary) {left right : Tree} (hleft : left.const?.isSome)
    (hright : right.const?.isSome) : (foldBinary ops op left right).const?.isSome := by
  obtain ⟨v, hv⟩ := Option.isSome_iff_exists.mp hleft
  obtain ⟨w, hw⟩ := Option.isSome_iff_exists.mp hright
  rw [const?_eq_some.mp hv, const?_eq_some.mp hw]
  rfl

/-- Every part without references is replaced. -/
theorem const?_fold_of_references {t : Tree} (h : t.references = []) :
    (t.fold ops).const?.isSome := by
  induction t with
  | const x => rfl
  | reference target => cases h
  | unary op operand ih => exact const?_foldUnary ops op (ih h)
  | binary op left right ihLeft ihRight =>
    obtain ⟨hleft, hright⟩ := List.append_eq_nil_iff.mp h
    exact const?_foldBinary ops op (ihLeft hleft) (ihRight hright)

theorem const?_fold_isSome_iff (t : Tree) :
    (t.fold ops).const?.isSome ↔ t.references = [] := by
  constructor
  · intro h
    rw [← references_fold ops t]
    exact references_of_const h
  · exact const?_fold_of_references ops

end Folding

end Arithmetic.Tree

open Arithmetic

/-! ### The references of a source -/

def Token.reference? : Token → Option Reference
  | .reference target => some target
  | _ => none

namespace Formula

/-- The references of some tokens, from left to right. -/
def mentioned (ts : List Token) : List Reference := ts.filterMap Token.reference?

theorem mentioned_append (ts us : List Token) :
    mentioned (ts ++ us) = mentioned ts ++ mentioned us :=
  List.filterMap_append

theorem mentioned_cons {s : Token} (hs : s.reference? = none) (ts : List Token) :
    mentioned (s :: ts) = mentioned ts :=
  List.filterMap_cons_none hs

theorem SumSign.reference?_eq_none {s : Token} {op : Binary} (h : SumSign s op) :
    s.reference? = none := by
  cases h <;> rfl

theorem ProductSign.reference?_eq_none {s : Token} {op : Binary} (h : ProductSign s op) :
    s.reference? = none := by
  cases h <;> rfl

/-- A call reads the references of its arguments one argument after the other. -/
theorem Application.references {function : Function} {trees : List Tree} {tree : Tree}
    (h : Application function trees tree) :
    tree.references = trees.flatMap Tree.references := by
  cases h with
  | one op x => simp [Tree.references]
  | two op x y => simp [Tree.references]

mutual

/-- The references of an expression are those of its tokens, in order. -/
theorem Expression.references {ts : List Token} {tree : Tree} (h : Expression ts tree) :
    tree.references = mentioned ts := by
  match h with
  | .term first => exact first.references
  | .joined before sign next =>
    rw [mentioned_append, mentioned_cons sign.reference?_eq_none, Tree.references,
      before.references, next.references]

theorem Term.references {ts : List Token} {tree : Tree} (h : Term ts tree) :
    tree.references = mentioned ts := by
  match h with
  | .factor first => exact first.references
  | .joined before sign next =>
    rw [mentioned_append, mentioned_cons sign.reference?_eq_none, Tree.references,
      before.references, next.references]

theorem Factor.references {ts : List Token} {tree : Tree} (h : Factor ts tree) :
    tree.references = mentioned ts := by
  match h with
  | .minus operand =>
    rw [mentioned_cons rfl, Tree.references]
    exact operand.references
  | .plus operand =>
    rw [mentioned_cons rfl]
    exact operand.references
  | .power unsigned => exact unsigned.references

theorem Power.references {ts : List Token} {tree : Tree} (h : Power ts tree) :
    tree.references = mentioned ts := by
  match h with
  | .atom base => exact base.references
  | .raised base exponent =>
    rw [mentioned_append, mentioned_cons rfl, Tree.references, base.references,
      exponent.references]

theorem Atom.references {ts : List Token} {tree : Tree} (h : Atom ts tree) :
    tree.references = mentioned ts := by
  match h with
  | .number value => rfl
  | .reference target => rfl
  | .group inner =>
    rw [mentioned_cons rfl, mentioned_append, inner.references]
    exact (List.append_nil _).symm
  | .call known arguments fits =>
    rw [mentioned_cons rfl, mentioned_cons rfl, mentioned_append, fits.references,
      arguments.references]
    exact (List.append_nil _).symm

theorem Arguments.references {ts : List Token} {trees : List Tree} (h : Arguments ts trees) :
    trees.flatMap Tree.references = mentioned ts := by
  match h with
  | .none => rfl
  | .some listed => exact listed.references

theorem Listed.references {ts : List Token} {trees : List Tree} (h : Listed ts trees) :
    trees.flatMap Tree.references = mentioned ts := by
  match h with
  | .last only =>
    rw [List.flatMap_singleton]
    exact only.references
  | .next first others =>
    rw [mentioned_append, mentioned_cons rfl, List.flatMap_cons, first.references,
      others.references]

end

/-! ### Formulas of one value -/

/-- A formula whose tree is folded has a value of its own exactly if it has no references, and
    that is its value everywhere. -/
theorem const?_eq_some_iff (source : String) (t : Tree) (v : Float) :
    const? ⟨source, t.fold binary64⟩ = some v ↔
      t.references = [] ∧ ∀ scope, eval ⟨source, t.fold binary64⟩ scope = v := by
  constructor
  · intro h
    have hconst : (t.fold binary64).const? = some v := h
    refine ⟨(t.const?_fold_isSome_iff binary64).mp (Option.isSome_of_eq_some hconst), ?_⟩
    intro scope
    unfold eval
    rw [Tree.const?_eq_some.mp hconst]
    rfl
  · rintro ⟨hreferences, hvalue⟩
    obtain ⟨w, hw⟩ := Option.isSome_iff_exists.mp (t.const?_fold_of_references binary64 hreferences)
    have hvw := hvalue ⟨fun _ => none, fun _ => none⟩
    unfold eval at hvw
    rw [Tree.const?_eq_some.mp hw] at hvw
    exact hw.trans (congrArg some hvw)

end Formula

end RuleEngine
