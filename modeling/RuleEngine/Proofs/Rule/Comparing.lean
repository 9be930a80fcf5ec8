/-
  RuleEngine/Proofs/Rule/Comparing.lean
  =====================================
  **Comparisons agree with each other.**

  Two sides can be compared in six ways.  Equality falls back on the texts where a side is no
  number, and the orderings do not, so they are separate bodies with separate readings of
  their sides.  They agree all the same: numbers stand in one order (`Decimal.order?`), which
  all six comparisons look at, and where there is none no ordering holds
  (`comparisons_agree`).

  What the six come to is told by `Compared`, which also says what happens when the platform
  fails over a placeholder of a side: then nobody gets an answer.
-/
import RuleEngine.Proofs.Rule.Compiling
import RuleEngine.Proofs.Rule.FailSafe

namespace RuleEngine

open Float.Model (UnpackedFloat)

/-! ### The order of numbers -/

namespace Decimal

variable {x y : Float} {o : Ordering}

/-- How two numbers stand to each other; what is no number stands nowhere. -/
def order? (x y : Float) : Option Ordering := x.toModel.unpack.compare y.toModel.unpack

theorem compare_swap (u v : UnpackedFloat) : v.compare u = (u.compare v).map Ordering.swap := by
  cases u with
  | notANumber => cases v <;> rfl
  | infinity s =>
    cases v with
    | infinity s' => cases s <;> cases s' <;> rfl
    | _ => cases s <;> rfl
  | zero s =>
    cases v with
    | infinity s' => cases s' <;> rfl
    | finite s' m' e' h' => cases s' <;> rfl
    | _ => rfl
  | finite s m e h =>
    cases v with
    | notANumber => rfl
    | infinity s' => cases s' <;> rfl
    | zero s' => cases s <;> rfl
    | finite s' m' e' h' =>
      have hswap : (compare e' e).then (compare m' m) =
          ((compare e e').then (compare m m')).swap := by
        rw [Ordering.swap_then, ← Std.OrientedCmp.eq_swap, ← Std.OrientedCmp.eq_swap]
      cases s with
      | positive =>
        cases s' with
        | positive => exact congrArg some hswap
        | negative => rfl
      | negative =>
        cases s' with
        | positive => rfl
        | negative => exact congrArg (some ·.swap) hswap

theorem exists_compare {u v : UnpackedFloat} (hu : u ≠ .notANumber) (hv : v ≠ .notANumber) :
    ∃ o, u.compare v = some o := by
  cases u with
  | notANumber => exact absurd rfl hu
  | infinity s =>
    cases v with
    | notANumber => exact absurd rfl hv
    | _ => cases s <;> exact ⟨_, rfl⟩
  | zero s =>
    cases v with
    | notANumber => exact absurd rfl hv
    | infinity s' => cases s' <;> exact ⟨_, rfl⟩
    | zero s' => exact ⟨_, rfl⟩
    | finite s' m' e' h' => cases s' <;> exact ⟨_, rfl⟩
  | finite s m e h =>
    cases v with
    | notANumber => exact absurd rfl hv
    | infinity s' => cases s' <;> exact ⟨_, rfl⟩
    | zero s' => cases s <;> exact ⟨_, rfl⟩
    | finite s' m' e' h' => cases s <;> cases s' <;> exact ⟨_, rfl⟩

theorem exists_order (hx : ¬ x.isNaN) (hy : ¬ y.isNaN) : ∃ o, order? x y = some o :=
  exists_compare (fun h => hx (isNaN_iff.mpr h)) (fun h => hy (isNaN_iff.mpr h))

theorem lt_of_order (h : order? x y = some o) : decide (x < y) = (o == .lt) := by
  have hlt : x < y ↔ x.toModel.unpack.lt y.toModel.unpack = true :=
    ⟨of_decide_eq_true, decide_eq_true⟩
  change x.toModel.unpack.compare y.toModel.unpack = some o at h
  rw [Bool.eq_iff_iff, decide_eq_true_iff, hlt, UnpackedFloat.lt, h]
  rfl

theorem le_of_order (h : order? x y = some o) : decide (x ≤ y) = (o == .lt || o == .eq) := by
  have hle : x ≤ y ↔ x.toModel.unpack.le y.toModel.unpack = true :=
    ⟨of_decide_eq_true, decide_eq_true⟩
  change x.toModel.unpack.compare y.toModel.unpack = some o at h
  rw [Bool.eq_iff_iff, decide_eq_true_iff, hle, UnpackedFloat.le, h]
  cases o <;> decide

theorem beq_of_order (h : order? x y = some o) : (x == y) = (o == .eq) := by
  have heq : (x == y) = (order? x y == some .eq) := rfl
  rw [heq, h]
  rfl

theorem order_swap (h : order? x y = some o) : order? y x = some o.swap := by
  unfold order? at h ⊢
  rw [compare_swap, h]
  rfl

end Decimal

open Run Decimal

theorem Relation.holds_of_order {x y : Float} {o : Ordering} (h : order? x y = some o) :
    Relation.holds .less x y = (o == .lt) ∧ Relation.holds .greater x y = (o == .gt) ∧
      Relation.holds .lessOrEqual x y = (o == .lt || o == .eq) ∧
      Relation.holds .greaterOrEqual x y = (o == .gt || o == .eq) := by
  refine ⟨lt_of_order h, (lt_of_order (order_swap h)).trans ?_, le_of_order h,
    (le_of_order (order_swap h)).trans ?_⟩
  · cases o <;> rfl
  · cases o <;> rfl

/-! ### What a comparison reads -/

section Outcomes

variable {c : ContextId} {st : EngineState} {left right : Operand} {f g : Formula}

/-- A step that reads leaves the outcome of the next one as it would have been before it. -/
theorem Run.Reading.outcome_bind {α β : Type} {x : Run α} {k : α → Run β} (hx : Reading x)
    (hk : ∀ a, Reading (k a)) :
    (x >>= k).outcome st = x.outcome st >>= fun a => (k a).outcome st := by
  rw [Run.outcome_bind]
  cases x.outcome st with
  | error message => rfl
  | ok a => exact (hk a).depends st (x.after st) (hx.views st)

/-- A comparison evaluates both sides, the left one first. -/
theorem outcome_comparison (relation : Relation) (sideEffects : Bool) :
    ((RequirementBody.comparison relation f g).check c sideEffects).outcome st = do
      let x ← (evaluate c f).outcome st
      let y ← (evaluate c g).outcome st
      return relation.holds x y := by
  have hright : ∀ x, Reading (do
      let y ← evaluate c g
      return relation.holds x y) := fun x => (reading_evaluate c g).bind fun y => reading_pure _
  rw [RequirementBody.check, (reading_evaluate c f).outcome_bind hright]
  refine bind_congr fun x => ?_
  exact (reading_evaluate c g).outcome_bind fun y => reading_pure _

theorem outcome_number (h : left.number? = some f) :
    (left.number c).outcome st = do
      let x ← (evaluate c f).outcome st
      return if x.isNaN then none else some x := by
  unfold Operand.number
  rw [h]
  exact (reading_evaluate c f).outcome_bind fun x => reading_pure _

def textsEqual (c : ContextId) (left right : Operand) : Run Bool := do
  let s ← render c left.text
  let t ← render c right.text
  return s == t

theorem reading_textsEqual : Reading (textsEqual c left right) := by
  refine (reading_render c _).bind fun s => ?_
  exact (reading_render c _).bind fun t => reading_pure _

/-- Texts are compared when both are rendered, the left one first. -/
theorem outcome_textsEqual :
    (textsEqual c left right).outcome st = do
      let s ← (render c left.text).outcome st
      let t ← (render c right.text).outcome st
      return s == t := by
  have hright : ∀ s, Reading (do
      let t ← render c right.text
      return s == t) := fun s => (reading_render c _).bind fun t => reading_pure _
  refine ((reading_render c _).outcome_bind hright).trans ?_
  refine bind_congr fun s => ?_
  exact (reading_render c _).outcome_bind fun t => reading_pure _

/-- Whether two sides are equal, once it is known which numbers they are. -/
def equalAs (c : ContextId) (left right : Operand) : Option Float → Option Float → Run Bool
  | some x, some y => pure (x == y)
  | _, _ => textsEqual c left right

theorem sidesEqual_eq :
    sidesEqual c left right =
      (left.number c >>= fun x? => right.number c >>= equalAs c left right x?) := by
  rfl

theorem reading_equalAs (x? y? : Option Float) : Reading (equalAs c left right x? y?) := by
  unfold equalAs
  split
  · exact reading_pure _
  · exact reading_textsEqual

/-- Two sides with numbers are compared as numbers, unless one of them is none. -/
theorem outcome_sidesEqual (hf : left.number? = some f) (hg : right.number? = some g) :
    (sidesEqual c left right).outcome st = do
      let x ← (evaluate c f).outcome st
      let y ← (evaluate c g).outcome st
      if x.isNaN ∨ y.isNaN then (textsEqual c left right).outcome st else return x == y := by
  have hright : ∀ x?, Reading (right.number c >>= equalAs c left right x?) :=
    fun x? => (right.reading_number c).bind (reading_equalAs x?)
  rw [sidesEqual_eq, (left.reading_number c).outcome_bind hright, outcome_number hf, bind_assoc]
  refine bind_congr fun x => ?_
  rw [pure_bind, (right.reading_number c).outcome_bind (reading_equalAs _), outcome_number hg,
    bind_assoc]
  refine bind_congr fun y => ?_
  rw [pure_bind]
  cases x.isNaN <;> cases y.isNaN <;> rfl

theorem outcome_equality (negated sideEffects : Bool) :
    ((RequirementBody.equality negated left right).check c sideEffects).outcome st = do
      let equal ← (sidesEqual c left right).outcome st
      return equal != negated := by
  rw [RequirementBody.check]
  exact (reading_sidesEqual c left right).outcome_bind fun equal => reading_pure _

end Outcomes

/-! ### What the six come to -/

/-- The answers of the six comparisons of two sides at a state, of which `f` and `g` are the
    formulas.  Either both sides are numbers and stand in an order, or one is none and the
    texts decide about equality; and the platform may fail over a placeholder, in one of
    the formulas or, if they are needed, in one of the texts. -/
inductive Compared (c : ContextId) (st : EngineState) (left right : Operand) (f g : Formula)
    (answer : RequirementType → Except Panic Bool) : Prop where
  | numbers {x y : Float} {o : Ordering} (hleft : (evaluate c f).outcome st = .ok x)
      (hright : (evaluate c g).outcome st = .ok y) (hx : ¬ x.isNaN) (hy : ¬ y.isNaN)
      (less : answer (.compare .less) = .ok (o == .lt))
      (equal : answer (.equal false) = .ok (o == .eq))
      (greater : answer (.compare .greater) = .ok (o == .gt))
      (lessOrEqual : answer (.compare .lessOrEqual) = .ok (o == .lt || o == .eq))
      (greaterOrEqual : answer (.compare .greaterOrEqual) = .ok (o == .gt || o == .eq))
      (unequal : answer (.equal true) = .ok !(o == .eq)) : Compared c st left right f g answer
  | texts {x y : Float} {s t : String} (hleft : (evaluate c f).outcome st = .ok x)
      (hright : (evaluate c g).outcome st = .ok y) (none : x.isNaN ∨ y.isNaN)
      (hs : (render c left.text).outcome st = .ok s)
      (ht : (render c right.text).outcome st = .ok t)
      (orderings : ∀ relation, answer (.compare relation) = .ok false)
      (equal : answer (.equal false) = .ok (s == t))
      (unequal : answer (.equal true) = .ok !(s == t)) : Compared c st left right f g answer
  | textsFail {x y : Float} {message : Panic} (hleft : (evaluate c f).outcome st = .ok x)
      (hright : (evaluate c g).outcome st = .ok y) (none : x.isNaN ∨ y.isNaN)
      (fault : st.world.Faults message)
      (orderings : ∀ relation, answer (.compare relation) = .ok false)
      (equal : answer (.equal false) = .error message)
      (unequal : answer (.equal true) = .error message) : Compared c st left right f g answer
  | formulasFail {message : Panic} (fault : st.world.Faults message)
      (all : ∀ type : RequirementType, type.Compares → answer type = .error message) :
      Compared c st left right f g answer

def comparisonBody (left right : Operand) (f g : Formula) : RequirementType → RequirementBody
  | .equal negated => .equality negated left right
  | .compare relation => .comparison relation f g
  | _ => .idle

section Compared

variable {c : ContextId} {st : EngineState} {left right : Operand} {f g : Formula} {x y : Float}
  {sideEffects : Bool}

/-- What the body of a comparison of two sides comes to. -/
def comparisonAnswer (c : ContextId) (st : EngineState) (left right : Operand) (f g : Formula)
    (sideEffects : Bool) (type : RequirementType) : Except Panic Bool :=
  ((comparisonBody left right f g type).check c sideEffects).outcome st

theorem comparisonAnswer_compare (hleft : (evaluate c f).outcome st = .ok x)
    (hright : (evaluate c g).outcome st = .ok y) (relation : Relation) :
    comparisonAnswer c st left right f g sideEffects (.compare relation) =
      .ok (relation.holds x y) := by
  refine (outcome_comparison relation sideEffects).trans ?_
  rw [hleft, hright]
  rfl

/-- Two sides that are numbers are equal if the numbers are. -/
theorem comparisonAnswer_numbers (hf : left.number? = some f) (hg : right.number? = some g)
    (hleft : (evaluate c f).outcome st = .ok x) (hright : (evaluate c g).outcome st = .ok y)
    (hx : ¬ x.isNaN) (hy : ¬ y.isNaN) (negated : Bool) :
    comparisonAnswer c st left right f g sideEffects (.equal negated) =
      .ok ((x == y) != negated) := by
  have hsides : (sidesEqual c left right).outcome st = .ok (x == y) := by
    rw [outcome_sidesEqual hf hg, hleft, hright]
    exact if_neg (not_or.mpr ⟨hx, hy⟩)
  refine (outcome_equality negated sideEffects).trans ?_
  rw [hsides]
  rfl

/-- Two sides of which one is no number are equal if their texts are. -/
theorem comparisonAnswer_texts (hf : left.number? = some f) (hg : right.number? = some g)
    (hleft : (evaluate c f).outcome st = .ok x) (hright : (evaluate c g).outcome st = .ok y)
    (none : x.isNaN ∨ y.isNaN) (negated : Bool) :
    comparisonAnswer c st left right f g sideEffects (.equal negated) = do
      let equal ← (textsEqual c left right).outcome st
      return equal != negated := by
  have hsides : (sidesEqual c left right).outcome st = (textsEqual c left right).outcome st := by
    rw [outcome_sidesEqual hf hg, hleft, hright]
    exact if_pos none
  refine (outcome_equality negated sideEffects).trans ?_
  rw [hsides]

/-- A side that fails to be evaluated fails every comparison of it. -/
theorem comparisonAnswer_fails {message : Panic} (hf : left.number? = some f)
    (hg : right.number? = some g)
    (fails : (do
      let _ ← (evaluate c f).outcome st
      (evaluate c g).outcome st) = .error message)
    {type : RequirementType} (htype : type.Compares) :
    comparisonAnswer c st left right f g sideEffects type = .error message := by
  have hboth : ∀ k : Float → Float → Except Panic Bool, (do
      let x ← (evaluate c f).outcome st
      let y ← (evaluate c g).outcome st
      k x y) = .error message := by
    intro k
    cases hleft : (evaluate c f).outcome st with
    | error message' =>
      rw [hleft] at fails
      cases fails
      rfl
    | ok x =>
      rw [hleft] at fails
      change (evaluate c g).outcome st = _ at fails
      rw [fails]
      rfl
  cases type with
  | equal negated =>
    refine (outcome_equality negated sideEffects).trans ?_
    rw [outcome_sidesEqual hf hg, hboth]
    rfl
  | compare relation => exact (outcome_comparison relation sideEffects).trans (hboth _)
  | _ => exact htype.elim

theorem compared_numbers (hf : left.number? = some f) (hg : right.number? = some g)
    (hleft : (evaluate c f).outcome st = .ok x) (hright : (evaluate c g).outcome st = .ok y)
    (hx : ¬ x.isNaN) (hy : ¬ y.isNaN) :
    Compared c st left right f g (comparisonAnswer c st left right f g sideEffects) := by
  obtain ⟨o, ho⟩ := exists_order hx hy
  obtain ⟨less, greater, lessOrEqual, greaterOrEqual⟩ := Relation.holds_of_order ho
  have hcompare : ∀ relation, comparisonAnswer c st left right f g sideEffects
      (.compare relation) = .ok (relation.holds x y) := comparisonAnswer_compare hleft hright
  have hequal : ∀ negated, comparisonAnswer c st left right f g sideEffects (.equal negated) =
      .ok ((x == y) != negated) := comparisonAnswer_numbers hf hg hleft hright hx hy
  rw [beq_of_order ho] at hequal
  refine .numbers (o := o) hleft hright hx hy ?_ ?_ ?_ ?_ ?_ ?_
  · rw [hcompare, less]
  · rw [hequal, Bool.bne_false]
  · rw [hcompare, greater]
  · rw [hcompare, lessOrEqual]
  · rw [hcompare, greaterOrEqual]
  · rw [hequal, Bool.bne_true]

theorem compared_texts (hf : left.number? = some f) (hg : right.number? = some g)
    (hleft : (evaluate c f).outcome st = .ok x) (hright : (evaluate c g).outcome st = .ok y)
    (none : x.isNaN ∨ y.isNaN) :
    Compared c st left right f g (comparisonAnswer c st left right f g sideEffects) := by
  have orderings : ∀ relation, comparisonAnswer c st left right f g sideEffects
      (.compare relation) = .ok false := by
    intro relation
    rw [comparisonAnswer_compare hleft hright, Relation.not_holds_of_isNaN none]
  have hequal : ∀ negated, comparisonAnswer c st left right f g sideEffects (.equal negated) = do
      let equal ← (textsEqual c left right).outcome st
      return equal != negated := comparisonAnswer_texts hf hg hleft hright none
  cases htexts : (textsEqual c left right).outcome st with
  | error message =>
    rw [htexts] at hequal
    exact .textsFail hleft hright none (reading_textsEqual.faults st message htexts) orderings
      (hequal false) (hequal true)
  | ok equal =>
    rw [htexts] at hequal
    rw [outcome_textsEqual] at htexts
    cases hs : (render c left.text).outcome st with
    | error message =>
      rw [hs] at htexts
      cases htexts
    | ok s =>
      cases ht : (render c right.text).outcome st with
      | error message =>
        rw [hs, ht] at htexts
        cases htexts
      | ok t =>
        rw [hs, ht] at htexts
        cases htexts
        refine .texts hleft hright none hs ht orderings ((hequal false).trans ?_)
          ((hequal true).trans ?_)
        · exact congrArg Except.ok (Bool.bne_false (s == t))
        · exact congrArg Except.ok (Bool.bne_true (s == t))

/-- Operands that are formulas are compared as the relation of their values tells. -/
theorem compared (hf : left.number? = some f) (hg : right.number? = some g) (sideEffects : Bool) :
    Compared c st left right f g (comparisonAnswer c st left right f g sideEffects) := by
  cases hleft : (evaluate c f).outcome st with
  | error message =>
    refine .formulasFail ((reading_evaluate c f).faults st message hleft) fun type htype => ?_
    apply comparisonAnswer_fails hf hg _ htype
    rw [hleft]
    rfl
  | ok x =>
    cases hright : (evaluate c g).outcome st with
    | error message =>
      refine .formulasFail ((reading_evaluate c g).faults st message hright) fun type htype => ?_
      apply comparisonAnswer_fails hf hg _ htype
      rw [hleft, hright]
      rfl
    | ok y =>
      by_cases none : x.isNaN ∨ y.isNaN
      · exact compared_texts hf hg hleft hright none
      · obtain ⟨hx, hy⟩ := not_or.mp none
        exact compared_numbers hf hg hleft hright hx hy

end Compared

/-! ### Values that both kinds of comparisons accept -/

section Accepted

open CompileError

variable {r : Registry} {value : Node} {left right : Operand} {f g : Formula}

theorem numericSide_eq_ok {side : String} {o : Operand} (h : numericSide side o = .ok f) :
    o.number? = some f := by
  unfold numericSide at h
  cases hnumber : o.number? with
  | none =>
    rw [hnumber] at h
    cases h
  | some f' =>
    rw [hnumber] at h
    cases h
    rfl

/-- An ordering accepts a value only if both sides are formulas. -/
theorem operands_of_compare {relation : Relation} {sideEffects : Bool} {w : World}
    {body : RequirementBody}
    (h : (makeRequirement r sideEffects (.requirement (.compare relation)) value w).1 = .ok body) :
    ∃ left right f g, operands value = .ok (left, right) ∧ left.number? = some f ∧
      right.number? = some g := by
  rw [makeRequirement] at h
  obtain ⟨⟨left, right⟩, hsides, h⟩ := Make.ofExcept_bind_eq_ok.mp h
  obtain ⟨f, hf, h⟩ := Make.ofExcept_bind_eq_ok.mp h
  obtain ⟨g, hg, -⟩ := Make.ofExcept_bind_eq_ok.mp h
  exact ⟨left, right, f, g, hsides, numericSide_eq_ok hf, numericSide_eq_ok hg⟩

/-- A factory that compares makes the comparison of the two sides that it is given. -/
theorem makeRequirement_compares (hsides : operands value = .ok (left, right))
    (hf : left.number? = some f) (hg : right.number? = some g) {type : RequirementType}
    (htype : type.Compares) (sideEffects : Bool) (w : World) :
    (makeRequirement r sideEffects (.requirement type) value w).1 =
      .ok (comparisonBody left right f g type) := by
  cases type with
  | equal negated =>
    rw [makeRequirement, Make.ofExcept_bind_eq_ok]
    exact ⟨(left, right), hsides, rfl⟩
  | compare relation =>
    rw [makeRequirement, Make.ofExcept_bind_eq_ok]
    refine ⟨(left, right), hsides, Make.ofExcept_bind_eq_ok.mpr ⟨f, ?_, ?_⟩⟩
    · simp [numericSide, hf]
    · exact Make.ofExcept_bind_eq_ok.mpr ⟨g, by simp [numericSide, hg], rfl⟩
  | _ => exact htype.elim

/-- **Comparisons agree with each other.**  A value that `==` and `<` accept is accepted by all
    six comparisons, wherever their nodes stand, and in every context they come out together:
    two numbers are in exactly one of the orders less, equal and greater, and all six go by
    it; otherwise no ordering holds and the texts decide about equality. -/
theorem comparisons_agree {sideEffects : Bool} {w : World} {equality less : RequirementBody}
    (hequal : (makeRequirement r sideEffects (.requirement (.equal false)) value w).1 =
      .ok equality)
    (hless : (makeRequirement r sideEffects (.requirement (.compare .less)) value w).1 = .ok less) :
    ∃ left right f g, operands value = .ok (left, right) ∧
      left.number? = some f ∧ right.number? = some g ∧
      equality = comparisonBody left right f g (.equal false) ∧
      less = comparisonBody left right f g (.compare .less) ∧
      (∀ (r : Registry) (n : Node) (type : RequirementType), type.Compares →
        n.MadeBy r (.requirement type) → n.valueOf "value" = value → ∀ sideEffects w,
          (n.requirement r sideEffects w).body = comparisonBody left right f g type) ∧
      ∀ c sideEffects st,
        Compared c st left right f g fun type =>
          ((comparisonBody left right f g type).check c sideEffects).outcome st := by
  obtain ⟨left, right, f, g, hsides, hf, hg⟩ := operands_of_compare hless
  have hmade : ∀ type : RequirementType, type.Compares →
      (makeRequirement r sideEffects (.requirement type) value w).1 =
        .ok (comparisonBody left right f g type) :=
    fun type htype => makeRequirement_compares hsides hf hg htype sideEffects w
  rw [hmade (.equal false) trivial] at hequal
  rw [hmade (.compare .less) trivial] at hless
  refine ⟨left, right, f, g, hsides, hf, hg, ?_, ?_, ?_, ?_⟩
  · exact (Except.ok.inj hequal).symm
  · exact (Except.ok.inj hless).symm
  · intro r n type htype hmade hvalue sideEffects w
    rw [Node.requirement_body hmade rfl, hvalue, makeRequirement_compares hsides hf hg htype]
  · intro c sideEffects st
    exact compared hf hg sideEffects

def zeros : Node := .list [.scalar (.float 0.0), .scalar (.float (-0.0))]

/-- The zeros are equal as numbers, so the first is not less than the second. -/
theorem comparisons_agree_zeros :
    ∃ equality less,
      (makeRequirement {} true (.requirement (.equal false)) zeros {}).1 = .ok equality ∧
      (makeRequirement {} true (.requirement (.compare .less)) zeros {}).1 = .ok less ∧
      (equality.check 0 true).outcome { world := {} } = .ok true ∧
      (less.check 0 true).outcome { world := {} } = .ok false := by
  let side (x : Float) : Operand :=
    ⟨.literal ((Node.scalarText? (.float x)).getD ""), some (.constant x)⟩
  have hsides : operands zeros = .ok (side 0.0, side (-0.0)) := rfl
  have hmade : ∀ type : RequirementType, type.Compares → _ := fun type htype =>
    makeRequirement_compares (r := {}) hsides rfl rfl htype true {}
  have hequal := hmade (.equal false) trivial
  have hless := hmade (.compare .less) trivial
  have equal : ((RequirementBody.equality false (side 0.0) (side (-0.0))).check 0 true).outcome
      { world := {} } = .ok true := by decide +kernel
  refine ⟨_, _, hequal, hless, equal, ?_⟩
  obtain ⟨left, right, f, g, -, -, -, heq, hlt, -, hcompared⟩ := comparisons_agree hequal hless
  rw [show RequirementBody.equality false (side 0.0) (side (-0.0)) = _ from heq] at equal
  rw [hlt]
  cases hcompared 0 true { world := {} } with
  | @numbers x y o _ _ _ _ less equal' =>
    have horder : o == .eq := Except.ok.inj (equal'.symm.trans equal)
    rw [less, eq_of_beq horder]
    rfl
  | texts _ _ _ _ _ orderings => exact orderings .less
  | textsFail _ _ _ _ orderings => exact orderings .less
  | formulasFail _ all =>
    have horder := (all (.equal false) trivial).symm.trans equal
    cases horder

end Accepted

end RuleEngine
