/-
  RuleEngine/Proofs/Template/Grammar.lean
  =======================================
  **The grammar of formulas, and its readers.**

  The readers of a formula go from left to right and never step back.  Here the grammar is
  stated on its own, as relations between lists of tokens and the trees they spell, one
  relation for each kind of phrase:

    * `Expression`, `Term`  — operands joined by operators that group to the left;
    * `Factor`              — signs before a power, so `-2 ^ 2` is the negation of a power;
    * `Power`               — an atom, or an atom raised to a *factor*, so `2 ^ -3 ^ 2` is
                              `2` raised to the negation of `3 ^ 2`;
    * `Atom`, `Arguments`   — numbers, references, groups and calls.  A call has the number of
                              arguments that its function takes (`Application`).

  A reader that succeeds took a phrase off the front of its tokens (`takeSum_sound`).  The
  other direction needs to know where a reader stops, since `1 + 2` starts with the phrase
  `1` too: a phrase is taken as a whole when no operator that could make it longer comes
  next (`Expression.takes`).  `treeOf` asks for all tokens, so it accepts exactly the
  expressions, and the tree of an expression is unique.
-/
import RuleEngine.Template.Formula

namespace RuleEngine

open Arithmetic

namespace Formula

/-! ### The grammar -/

inductive SumSign : Token → Binary → Prop
  | plus : SumSign (.symbol .plus) .add
  | minus : SumSign (.symbol .minus) .sub

inductive ProductSign : Token → Binary → Prop
  | times : ProductSign (.symbol .times) .mul
  | divide : ProductSign (.symbol .divide) .div
  | percent : ProductSign (.symbol .percent) .rem

/-- A call of a function with as many arguments as it takes is the tree of its operator. -/
inductive Application : Function → List Tree → Tree → Prop
  | one (op : Unary) (x : Tree) : Application (.one op) [x] (.unary op x)
  | two (op : Binary) (x y : Tree) : Application (.two op) [x, y] (.binary op x y)

mutual

inductive Expression : List Token → Tree → Prop
  | term {ts : List Token} {tree : Tree} (first : Term ts tree) : Expression ts tree
  | joined {ts us : List Token} {s : Token} {op : Binary} {left right : Tree}
      (before : Expression ts left) (sign : SumSign s op) (next : Term us right) :
      Expression (ts ++ s :: us) (.binary op left right)

inductive Term : List Token → Tree → Prop
  | factor {ts : List Token} {tree : Tree} (first : Factor ts tree) : Term ts tree
  | joined {ts us : List Token} {s : Token} {op : Binary} {left right : Tree}
      (before : Term ts left) (sign : ProductSign s op) (next : Factor us right) :
      Term (ts ++ s :: us) (.binary op left right)

/-- Signs before a power; a plus leaves no trace in the tree. -/
inductive Factor : List Token → Tree → Prop
  | minus {ts : List Token} {tree : Tree} (operand : Factor ts tree) :
      Factor (.symbol .minus :: ts) (.unary .negate tree)
  | plus {ts : List Token} {tree : Tree} (operand : Factor ts tree) :
      Factor (.symbol .plus :: ts) tree
  | power {ts : List Token} {tree : Tree} (unsigned : Power ts tree) : Factor ts tree

/-- An atom, perhaps with an exponent. -/
inductive Power : List Token → Tree → Prop
  | atom {ts : List Token} {tree : Tree} (base : Atom ts tree) : Power ts tree
  | raised {ts us : List Token} {left right : Tree} (base : Atom ts left)
      (exponent : Factor us right) :
      Power (ts ++ .symbol .caret :: us) (.binary .pow left right)

inductive Atom : List Token → Tree → Prop
  | number (value : Float) : Atom [.number value] (.const value)
  | reference (target : Reference) : Atom [.reference target] (.reference target)
  | group {ts : List Token} {tree : Tree} (inner : Expression ts tree) :
      Atom (.symbol .openParen :: (ts ++ [.symbol .closeParen])) tree
  | call {word : String} {function : Function} {ts : List Token} {trees : List Tree}
      {tree : Tree} (known : Function.ofName? word = some function)
      (arguments : Arguments ts trees) (fits : Application function trees tree) :
      Atom (.name word :: .symbol .openParen :: (ts ++ [.symbol .closeParen])) tree

/-- What may stand between the parentheses of a call. -/
inductive Arguments : List Token → List Tree → Prop
  | none : Arguments [] []
  | some {ts : List Token} {trees : List Tree} (listed : Listed ts trees) : Arguments ts trees

/-- One expression or several, with commas between them. -/
inductive Listed : List Token → List Tree → Prop
  | last {ts : List Token} {tree : Tree} (only : Expression ts tree) : Listed ts [tree]
  | next {ts us : List Token} {tree : Tree} {trees : List Tree} (first : Expression ts tree)
      (others : Listed us trees) : Listed (ts ++ .symbol .comma :: us) (tree :: trees)

end

/-! ### The tables of the readers -/

theorem sumOp?_eq_some_iff {s : Token} {op : Binary} : sumOp? s = some op ↔ SumSign s op := by
  constructor
  · intro h
    unfold sumOp? at h
    split at h <;> cases h <;> constructor
  · rintro (_ | _) <;> rfl

theorem productOp?_eq_some_iff {s : Token} {op : Binary} :
    productOp? s = some op ↔ ProductSign s op := by
  constructor
  · intro h
    unfold productOp? at h
    split at h <;> cases h <;> constructor
  · rintro (_ | _ | _) <;> rfl

theorem call?_eq_some_iff {function : Function} {trees : List Tree} {tree : Tree} :
    function.call? trees = some tree ↔ Application function trees tree := by
  constructor
  · intro h
    unfold Function.call? at h
    split at h <;> cases h <;> constructor
  · rintro (_ | _) <;> rfl

/-- A list of arguments fits a function exactly if it is as long as the function asks for. -/
theorem exists_application_iff {function : Function} {trees : List Tree} :
    (∃ tree, Application function trees tree) ↔ trees.length = function.arity := by
  constructor
  · rintro ⟨_, _ | _⟩ <;> rfl
  · intro h
    match function, trees, h with
    | .one op, [x], _ => exact ⟨_, .one op x⟩
    | .two op, [x, y], _ => exact ⟨_, .two op x y⟩

/-! ### What a reader takes

`Takes x a rest` says that a reader came to the result `x = a` and left `rest`.  The lemmas
below tell for each reader what it takes in terms of the readers it calls, so that neither
direction has to look at the bounds that the readers carry along. -/

section Taking

variable {α β : Type} {p q : List Token → Prop} {ts more rest mid : List Token} {s : Token}
  {left tree : Tree} {trees : List Tree} {op : Binary}

def Takes (x : Except TemplateError (α × { rest : List Token // p rest })) (a : α)
    (rest : List Token) : Prop :=
  ∃ h : p rest, x = .ok (a, ⟨rest, h⟩)

/-- What is left after a reader is within its bound. -/
theorem Takes.bound {x : Except TemplateError (α × { rest : List Token // p rest })} {a : α}
    (h : Takes x a rest) : p rest := by
  obtain ⟨hp, -⟩ := h
  exact hp

theorem takes_ok {a b : α} {hp : p mid} :
    Takes (.ok (a, ⟨mid, hp⟩) : Except TemplateError (α × { rest : List Token // p rest })) b rest ↔
      b = a ∧ rest = mid := by
  constructor
  · rintro ⟨_, h⟩
    cases h
    exact ⟨rfl, rfl⟩
  · rintro ⟨rfl, rfl⟩
    exact ⟨hp, rfl⟩

theorem takes_pure {a b : α} {hp : p mid} :
    Takes (pure (a, ⟨mid, hp⟩) : Except TemplateError (α × { rest : List Token // p rest }))
      b rest ↔ b = a ∧ rest = mid :=
  takes_ok

theorem not_takes_error {e : TemplateError} {a : α} :
    ¬ Takes (.error e : Except TemplateError (α × { rest : List Token // p rest })) a rest := by
  rintro ⟨_, h⟩
  cases h

/-- A sequence of readers takes what the first takes and then what the second does. -/
theorem takes_bind {x : Except TemplateError (α × { rest : List Token // p rest })}
    {f : α × { rest : List Token // p rest } →
      Except TemplateError (β × { rest : List Token // q rest })} {b : β} :
    Takes (x >>= f) b rest ↔
      ∃ a mid, ∃ h : Takes x a mid, Takes (f (a, ⟨mid, h.bound⟩)) b rest := by
  cases x with
  | error e =>
    constructor
    · intro h
      exact absurd h not_takes_error
    · rintro ⟨_, _, h, _⟩
      exact absurd h not_takes_error
  | ok v =>
    obtain ⟨a, mid, h⟩ := v
    constructor
    · intro hf
      exact ⟨a, mid, ⟨h, rfl⟩, hf⟩
    · rintro ⟨_, _, ⟨_, hx⟩, hf⟩
      cases hx
      exact hf

theorem takes_expect {sign : Symbol} {u : Unit} :
    Takes (expect sign ts) u rest ↔ ts = .symbol sign :: rest := by
  unfold expect
  split
  · simp [not_takes_error]
  · split
    · rename_i h
      simp [takes_ok, h, eq_comm]
    · rename_i h
      simp [not_takes_error, h]

theorem takes_takeSum :
    Takes (takeSum ts) tree rest ↔
      ∃ first mid, Takes (takeProduct ts) first mid ∧ Takes (growSum first mid) tree rest := by
  rw [takeSum]
  simp only [takes_bind, takes_pure]
  simp

theorem takes_growSum_of_none (h : sumOp? s = none) :
    Takes (growSum left (s :: more)) tree rest ↔ tree = left ∧ rest = s :: more := by
  rw [growSum]
  simp only [h, takes_ok]

theorem takes_growSum_of_some (h : sumOp? s = some op) :
    Takes (growSum left (s :: more)) tree rest ↔
      ∃ right mid, Takes (takeProduct more) right mid ∧
        Takes (growSum (.binary op left right) mid) tree rest := by
  rw [growSum]
  simp only [h, takes_bind, takes_pure]
  simp

theorem takes_takeProduct :
    Takes (takeProduct ts) tree rest ↔
      ∃ first mid, Takes (takeUnary ts) first mid ∧ Takes (growProduct first mid) tree rest := by
  rw [takeProduct]
  simp only [takes_bind, takes_pure]
  simp

theorem takes_growProduct_of_none (h : productOp? s = none) :
    Takes (growProduct left (s :: more)) tree rest ↔ tree = left ∧ rest = s :: more := by
  rw [growProduct]
  simp only [h, takes_ok]

theorem takes_growProduct_of_some (h : productOp? s = some op) :
    Takes (growProduct left (s :: more)) tree rest ↔
      ∃ right mid, Takes (takeUnary more) right mid ∧
        Takes (growProduct (.binary op left right) mid) tree rest := by
  rw [growProduct]
  simp only [h, takes_bind, takes_pure]
  simp

theorem takes_takeUnary_minus :
    Takes (takeUnary (.symbol .minus :: more)) tree rest ↔
      ∃ operand, tree = .unary .negate operand ∧ Takes (takeUnary more) operand rest := by
  rw [takeUnary]
  simp only [takes_bind, takes_pure]
  simp

theorem takes_takeUnary_plus :
    Takes (takeUnary (.symbol .plus :: more)) tree rest ↔ Takes (takeUnary more) tree rest := by
  rw [takeUnary]
  simp only [takes_bind, takes_pure]
  simp

theorem takeUnary_of_unsigned (hm : ∀ more, ts ≠ .symbol .minus :: more)
    (hp : ∀ more, ts ≠ .symbol .plus :: more) : takeUnary ts = takePower ts := by
  rw [takeUnary]
  · exact hm
  · exact hp

/-- A power takes an atom, and a factor after a caret if one follows. -/
theorem takes_takePower :
    Takes (takePower ts) tree rest ↔ ∃ base mid, Takes (takeAtom ts) base mid ∧
      ((∃ more exponent, mid = .symbol .caret :: more ∧ tree = .binary .pow base exponent ∧
          Takes (takeUnary more) exponent rest) ∨
        (∀ more, mid ≠ .symbol .caret :: more) ∧ tree = base ∧ rest = mid) := by
  rw [takePower]
  simp only [takes_bind]
  constructor
  · rintro ⟨base, mid, h, hr⟩
    refine ⟨base, mid, h, ?_⟩
    split at hr
    · simp only [takes_bind, takes_pure] at hr
      obtain ⟨exponent, _, he, rfl, rfl⟩ := hr
      exact .inl ⟨_, exponent, rfl, rfl, he⟩
    · rename_i hc
      refine .inr ⟨fun more hm => ?_, takes_pure.mp hr⟩
      subst hm
      exact hc more h.bound rfl HEq.rfl
  · rintro ⟨base, mid, h, ⟨more, exponent, rfl, rfl, he⟩ | ⟨hc, rfl, rfl⟩⟩
    · exact ⟨base, _, h, takes_bind.mpr ⟨exponent, rest, he, takes_pure.mpr ⟨rfl, rfl⟩⟩⟩
    · refine ⟨tree, rest, h, ?_⟩
      split
      · exact absurd rfl (hc _)
      · exact takes_pure.mpr ⟨rfl, rfl⟩

theorem takes_takeAtom_group :
    Takes (takeAtom (.symbol .openParen :: more)) tree rest ↔
      Takes (takeSum more) tree (.symbol .closeParen :: rest) := by
  rw [takeAtom]
  simp only [takes_bind, takes_pure]
  simp [takes_expect]

theorem takes_takeAtom_call {word : String} :
    Takes (takeAtom (.name word :: more)) tree rest ↔
      ∃ function ts trees, Function.ofName? word = some function ∧
        more = .symbol .openParen :: ts ∧ Application function trees tree ∧
        Takes (takeArguments ts) trees (.symbol .closeParen :: rest) := by
  rw [takeAtom]
  split
  · rename_i hf
    simp [hf, not_takes_error]
  rename_i function hf
  simp only [takes_bind]
  constructor
  · rintro ⟨_, ts, ho, trees, _, ha, _, _, hc, hr⟩
    rw [takes_expect] at ho hc
    subst ho hc
    refine ⟨function, ts, trees, hf, rfl, ?_⟩
    split at hr
    · rename_i hcall
      obtain ⟨rfl, rfl⟩ := takes_pure.mp hr
      exact ⟨call?_eq_some_iff.mp hcall, ha⟩
    · exact absurd hr not_takes_error
  · rintro ⟨_, ts, trees, hf', rfl, fits, ha⟩
    cases hf.symm.trans hf'
    refine ⟨(), ts, takes_expect.mpr rfl, trees, _, ha, (), rest, takes_expect.mpr rfl, ?_⟩
    simp only [call?_eq_some_iff.mpr fits]
    exact takes_pure.mpr ⟨rfl, rfl⟩

theorem takes_takeArguments_closed :
    Takes (takeArguments (.symbol .closeParen :: more)) trees rest ↔
      trees = [] ∧ rest = .symbol .closeParen :: more := by
  rw [takeArguments]
  exact takes_ok

theorem takes_takeArguments (h : ∀ more, ts ≠ .symbol .closeParen :: more) :
    Takes (takeArguments ts) trees rest ↔ ∃ first mid others, trees = first :: others ∧
      Takes (takeSum ts) first mid ∧ Takes (moreArguments mid) others rest := by
  rw [takeArguments]
  · simp only [takes_bind, takes_pure]
    constructor
    · rintro ⟨first, mid, hf, others, _, ho, rfl, rfl⟩
      exact ⟨first, mid, others, rfl, hf, ho⟩
    · rintro ⟨first, mid, others, rfl, hf, ho⟩
      exact ⟨first, mid, hf, others, rest, ho, rfl, rfl⟩
  · exact h

theorem takes_moreArguments_comma :
    Takes (moreArguments (.symbol .comma :: more)) trees rest ↔
      ∃ next mid others, trees = next :: others ∧ Takes (takeSum more) next mid ∧
        Takes (moreArguments mid) others rest := by
  rw [moreArguments]
  simp only [takes_bind, takes_pure]
  constructor
  · rintro ⟨next, mid, hn, others, _, ho, rfl, rfl⟩
    exact ⟨next, mid, others, rfl, hn, ho⟩
  · rintro ⟨next, mid, others, rfl, hn, ho⟩
    exact ⟨next, mid, hn, others, rest, ho, rfl, rfl⟩

theorem takes_moreArguments_end (h : ∀ more, ts ≠ .symbol .comma :: more) :
    Takes (moreArguments ts) trees rest ↔ trees = [] ∧ rest = ts := by
  rw [moreArguments]
  · exact takes_ok
  · exact h

end Taking

/-! ### A reader takes a phrase -/

mutual

/-- What is taken as a sum is an expression. -/
theorem takeSum_sound {ts rest : List Token} {tree : Tree} (h : Takes (takeSum ts) tree rest) :
    ∃ used, ts = used ++ rest ∧ Expression used tree := by
  obtain ⟨first, mid, hf, hg⟩ := takes_takeSum.mp h
  have shorter := hf.bound
  obtain ⟨us, rfl, first⟩ := takeProduct_sound hf
  obtain ⟨vs, rfl, grown⟩ := growSum_sound hg
  exact ⟨us ++ vs, (List.append_assoc ..).symm, grown us (.term first)⟩
termination_by (ts.length, 4)

theorem growSum_sound {ts rest : List Token} {left tree : Tree}
    (h : Takes (growSum left ts) tree rest) :
    ∃ used, ts = used ++ rest ∧
      ∀ before, Expression before left → Expression (before ++ used) tree := by
  match ts with
  | [] =>
    rw [growSum] at h
    obtain ⟨rfl, rfl⟩ := takes_ok.mp h
    exact ⟨[], rfl, fun before hb => by simpa using hb⟩
  | s :: more =>
    cases hs : sumOp? s with
    | none =>
      obtain ⟨rfl, rfl⟩ := (takes_growSum_of_none hs).mp h
      exact ⟨[], rfl, fun before hb => by simpa using hb⟩
    | some op =>
      obtain ⟨right, mid, hp, hg⟩ := (takes_growSum_of_some hs).mp h
      have shorter := hp.bound
      obtain ⟨us, rfl, next⟩ := takeProduct_sound hp
      obtain ⟨vs, rfl, grown⟩ := growSum_sound hg
      refine ⟨s :: us ++ vs, by simp, fun before hb => ?_⟩
      simpa using grown _ (.joined hb (sumOp?_eq_some_iff.mp hs) next)
termination_by (ts.length, 3)

theorem takeProduct_sound {ts rest : List Token} {tree : Tree}
    (h : Takes (takeProduct ts) tree rest) : ∃ used, ts = used ++ rest ∧ Term used tree := by
  obtain ⟨first, mid, hf, hg⟩ := takes_takeProduct.mp h
  have shorter := hf.bound
  obtain ⟨us, rfl, first⟩ := takeUnary_sound hf
  obtain ⟨vs, rfl, grown⟩ := growProduct_sound hg
  exact ⟨us ++ vs, (List.append_assoc ..).symm, grown us (.factor first)⟩
termination_by (ts.length, 3)

theorem growProduct_sound {ts rest : List Token} {left tree : Tree}
    (h : Takes (growProduct left ts) tree rest) :
    ∃ used, ts = used ++ rest ∧ ∀ before, Term before left → Term (before ++ used) tree := by
  match ts with
  | [] =>
    rw [growProduct] at h
    obtain ⟨rfl, rfl⟩ := takes_ok.mp h
    exact ⟨[], rfl, fun before hb => by simpa using hb⟩
  | s :: more =>
    cases hs : productOp? s with
    | none =>
      obtain ⟨rfl, rfl⟩ := (takes_growProduct_of_none hs).mp h
      exact ⟨[], rfl, fun before hb => by simpa using hb⟩
    | some op =>
      obtain ⟨right, mid, hp, hg⟩ := (takes_growProduct_of_some hs).mp h
      have shorter := hp.bound
      obtain ⟨us, rfl, next⟩ := takeUnary_sound hp
      obtain ⟨vs, rfl, grown⟩ := growProduct_sound hg
      refine ⟨s :: us ++ vs, by simp, fun before hb => ?_⟩
      simpa using grown _ (.joined hb (productOp?_eq_some_iff.mp hs) next)
termination_by (ts.length, 2)

theorem takeUnary_sound {ts rest : List Token} {tree : Tree}
    (h : Takes (takeUnary ts) tree rest) : ∃ used, ts = used ++ rest ∧ Factor used tree := by
  by_cases hm : ∃ more, ts = .symbol .minus :: more
  · obtain ⟨more, rfl⟩ := hm
    obtain ⟨operand, rfl, ho⟩ := takes_takeUnary_minus.mp h
    obtain ⟨us, rfl, operand⟩ := takeUnary_sound ho
    exact ⟨.symbol .minus :: us, rfl, .minus operand⟩
  by_cases hp : ∃ more, ts = .symbol .plus :: more
  · obtain ⟨more, rfl⟩ := hp
    obtain ⟨us, rfl, operand⟩ := takeUnary_sound (takes_takeUnary_plus.mp h)
    exact ⟨.symbol .plus :: us, rfl, .plus operand⟩
  rw [takeUnary_of_unsigned (not_exists.mp hm) (not_exists.mp hp)] at h
  obtain ⟨us, rfl, unsigned⟩ := takePower_sound h
  exact ⟨us, rfl, .power unsigned⟩
termination_by (ts.length, 2)

theorem takePower_sound {ts rest : List Token} {tree : Tree}
    (h : Takes (takePower ts) tree rest) : ∃ used, ts = used ++ rest ∧ Power used tree := by
  obtain ⟨base, mid, hb, he⟩ := takes_takePower.mp h
  have shorter := hb.bound
  obtain ⟨us, rfl, base⟩ := takeAtom_sound hb
  rcases he with ⟨more, exponent, rfl, rfl, he⟩ | ⟨-, rfl, rfl⟩
  · obtain ⟨vs, rfl, exponent⟩ := takeUnary_sound he
    exact ⟨us ++ .symbol .caret :: vs, by simp, .raised base exponent⟩
  · exact ⟨us, rfl, .atom base⟩
termination_by (ts.length, 1)

theorem takeAtom_sound {ts rest : List Token} {tree : Tree}
    (h : Takes (takeAtom ts) tree rest) : ∃ used, ts = used ++ rest ∧ Atom used tree := by
  match ts with
  | [] =>
    rw [takeAtom] at h
    exact absurd h not_takes_error
  | .number value :: more =>
    rw [takeAtom] at h
    obtain ⟨rfl, rfl⟩ := takes_ok.mp h
    exact ⟨[.number value], rfl, .number value⟩
  | .reference target :: more =>
    rw [takeAtom] at h
    obtain ⟨rfl, rfl⟩ := takes_ok.mp h
    exact ⟨[.reference target], rfl, .reference target⟩
  | .name word :: more =>
    obtain ⟨function, args, trees, known, rfl, fits, ha⟩ := takes_takeAtom_call.mp h
    obtain ⟨us, rfl, arguments⟩ := takeArguments_sound ha
    exact ⟨_, by simp, .call known arguments fits⟩
  | .symbol sign :: more =>
    cases sign with
    | openParen =>
      obtain ⟨us, rfl, inner⟩ := takeSum_sound (takes_takeAtom_group.mp h)
      exact ⟨_, by simp, .group inner⟩
    | _ =>
      simp only [takeAtom] at h
      exact absurd h not_takes_error
termination_by (ts.length, 0)

theorem takeArguments_sound {ts rest : List Token} {trees : List Tree}
    (h : Takes (takeArguments ts) trees rest) :
    ∃ used, ts = used ++ rest ∧ Arguments used trees := by
  by_cases hc : ∃ more, ts = .symbol .closeParen :: more
  · obtain ⟨more, rfl⟩ := hc
    obtain ⟨rfl, rfl⟩ := takes_takeArguments_closed.mp h
    exact ⟨[], rfl, .none⟩
  obtain ⟨first, mid, others, rfl, hf, ho⟩ := (takes_takeArguments (not_exists.mp hc)).mp h
  have shorter := hf.bound
  obtain ⟨us, rfl, first⟩ := takeSum_sound hf
  obtain ⟨vs, rfl, others⟩ := moreArguments_sound ho
  exact ⟨us ++ vs, (List.append_assoc ..).symm, .some (others us _ first)⟩
termination_by (ts.length, 5)

theorem moreArguments_sound {ts rest : List Token} {others : List Tree}
    (h : Takes (moreArguments ts) others rest) :
    ∃ used, ts = used ++ rest ∧
      ∀ before first, Expression before first → Listed (before ++ used) (first :: others) := by
  by_cases hc : ∃ more, ts = .symbol .comma :: more
  · obtain ⟨more, rfl⟩ := hc
    obtain ⟨next, mid, others, rfl, hn, ho⟩ := takes_moreArguments_comma.mp h
    have shorter := hn.bound
    obtain ⟨us, rfl, next⟩ := takeSum_sound hn
    obtain ⟨vs, rfl, others⟩ := moreArguments_sound ho
    exact ⟨.symbol .comma :: us ++ vs, by simp, fun before first hf => .next hf (others us _ next)⟩
  · obtain ⟨rfl, rfl⟩ := (takes_moreArguments_end (not_exists.mp hc)).mp h
    exact ⟨[], rfl, fun before first hf => by simpa using .last hf⟩
termination_by (ts.length, 0)

end

/-! ### A phrase is taken

A phrase is only taken as a whole if what follows it could not make it longer.  The
statement of `Expression.takes` has the loop of the reader in it, started from the tree of
the phrase: that is what the loop has come to when the phrase is the left operand of a
longer one. -/

/-- What comes next is not one of the operators. -/
def Stops (op? : Token → Option Binary) : List Token → Prop
  | [] => True
  | s :: _ => op? s = none

def powerOp? : Token → Option Binary
  | .symbol .caret => some .pow
  | _ => none

theorem SumSign.stops {s : Token} {op : Binary} (h : SumSign s op) (more : List Token) :
    Stops productOp? (s :: more) ∧ Stops powerOp? (s :: more) := by
  cases h <;> exact ⟨rfl, rfl⟩

theorem ProductSign.stops {s : Token} {op : Binary} (h : ProductSign s op) (more : List Token) :
    Stops powerOp? (s :: more) := by
  cases h <;> rfl

theorem takes_growSum_of_stops {left : Tree} {rest : List Token} (h : Stops sumOp? rest) :
    Takes (growSum left rest) left rest := by
  cases rest with
  | nil =>
    rw [growSum]
    exact takes_ok.mpr ⟨rfl, rfl⟩
  | cons s more => exact (takes_growSum_of_none h).mpr ⟨rfl, rfl⟩

theorem takes_growProduct_of_stops {left : Tree} {rest : List Token}
    (h : Stops productOp? rest) : Takes (growProduct left rest) left rest := by
  cases rest with
  | nil =>
    rw [growProduct]
    exact takes_ok.mpr ⟨rfl, rfl⟩
  | cons s more => exact (takes_growProduct_of_none h).mpr ⟨rfl, rfl⟩

theorem takeAtom_sign {sign : Symbol} (hs : sign ≠ .openParen) {more rest : List Token}
    {tree : Tree} : ¬ Takes (takeAtom (.symbol sign :: more)) tree rest := by
  cases sign with
  | openParen => exact absurd rfl hs
  | _ =>
    rw [takeAtom]
    all_goals first | exact not_takes_error | simp

theorem takeUnary_of_takePower {ts rest : List Token} {tree : Tree}
    (h : Takes (takePower ts) tree rest) : Takes (takeUnary ts) tree rest := by
  obtain ⟨_, _, hb, -⟩ := takes_takePower.mp h
  rw [takeUnary_of_unsigned]
  · exact h
  · rintro more rfl
    exact takeAtom_sign (by decide) hb
  · rintro more rfl
    exact takeAtom_sign (by decide) hb

theorem takeSum_closeParen {more rest : List Token} {tree : Tree} :
    ¬ Takes (takeSum (.symbol .closeParen :: more)) tree rest := by
  intro h
  obtain ⟨_, _, hp, -⟩ := takes_takeSum.mp h
  obtain ⟨_, _, hu, -⟩ := takes_takeProduct.mp hp
  rw [takeUnary_of_unsigned (by simp) (by simp)] at hu
  obtain ⟨_, _, ha, -⟩ := takes_takePower.mp hu
  exact takeAtom_sign (by decide) ha

mutual

/-- An expression is taken as a whole, and the loop goes on from its tree. -/
theorem Expression.takes {ts after : List Token} {tree grown : Tree} (h : Expression ts tree)
    (rest : List Token) (hp : Stops productOp? rest) (hc : Stops powerOp? rest)
    (hg : Takes (growSum tree rest) grown after) :
    Takes (takeSum (ts ++ rest)) grown after := by
  match h with
  | .term first =>
    have hf := first.takes rest hc (takes_growProduct_of_stops hp)
    exact takes_takeSum.mpr ⟨tree, rest, hf, hg⟩
  | .joined before sign next =>
    have hn := next.takes rest hc (takes_growProduct_of_stops hp)
    have hj := (takes_growSum_of_some (sumOp?_eq_some_iff.mpr sign)).mpr ⟨_, rest, hn, hg⟩
    obtain ⟨hproduct, hpower⟩ := sign.stops (_ ++ rest)
    rw [List.append_assoc]
    exact before.takes _ hproduct hpower hj

/-- A term is taken as a whole, and the loop goes on from its tree. -/
theorem Term.takes {ts after : List Token} {tree grown : Tree} (h : Term ts tree)
    (rest : List Token) (hc : Stops powerOp? rest)
    (hg : Takes (growProduct tree rest) grown after) :
    Takes (takeProduct (ts ++ rest)) grown after := by
  match h with
  | .factor first => exact takes_takeProduct.mpr ⟨tree, rest, first.takes rest hc, hg⟩
  | .joined before sign next =>
    have hj := (takes_growProduct_of_some (productOp?_eq_some_iff.mpr sign)).mpr
      ⟨_, rest, next.takes rest hc, hg⟩
    rw [List.append_assoc]
    exact before.takes _ (sign.stops _) hj

theorem Factor.takes {ts : List Token} {tree : Tree} (h : Factor ts tree)
    (rest : List Token) (hc : Stops powerOp? rest) : Takes (takeUnary (ts ++ rest)) tree rest := by
  match h with
  | .minus operand => exact takes_takeUnary_minus.mpr ⟨_, rfl, operand.takes rest hc⟩
  | .plus operand => exact takes_takeUnary_plus.mpr (operand.takes rest hc)
  | .power unsigned => exact takeUnary_of_takePower (unsigned.takes rest hc)

theorem Power.takes {ts : List Token} {tree : Tree} (h : Power ts tree)
    (rest : List Token) (hc : Stops powerOp? rest) : Takes (takePower (ts ++ rest)) tree rest := by
  match h with
  | .atom base =>
    refine takes_takePower.mpr ⟨tree, rest, base.takes rest, .inr ⟨?_, rfl, rfl⟩⟩
    rintro more rfl
    cases hc
  | .raised base exponent =>
    have he := exponent.takes rest hc
    rw [List.append_assoc]
    exact takes_takePower.mpr ⟨_, _, base.takes _, .inl ⟨_, _, rfl, rfl, he⟩⟩

theorem Atom.takes {ts : List Token} {tree : Tree} (h : Atom ts tree) (rest : List Token) :
    Takes (takeAtom (ts ++ rest)) tree rest := by
  match h with
  | .number value =>
    rw [List.singleton_append, takeAtom]
    exact takes_ok.mpr ⟨rfl, rfl⟩
  | .reference target =>
    rw [List.singleton_append, takeAtom]
    exact takes_ok.mpr ⟨rfl, rfl⟩
  | .group inner =>
    have hi := inner.takes (.symbol .closeParen :: rest) rfl rfl (takes_growSum_of_stops rfl)
    rw [List.cons_append, List.append_assoc]
    exact takes_takeAtom_group.mpr hi
  | .call known arguments fits =>
    have ha := arguments.takes rest
    rw [List.cons_append, List.cons_append, List.append_assoc]
    exact takes_takeAtom_call.mpr ⟨_, _, _, known, rfl, fits, ha⟩

/-- Arguments are taken as their trees, up to the parenthesis that closes them. -/
theorem Arguments.takes {ts : List Token} {trees : List Tree} (h : Arguments ts trees)
    (rest : List Token) :
    Takes (takeArguments (ts ++ .symbol .closeParen :: rest)) trees
      (.symbol .closeParen :: rest) := by
  match h with
  | .none => exact takes_takeArguments_closed.mpr ⟨rfl, rfl⟩
  | .some listed =>
    obtain ⟨first, mid, others, rfl, hf, ho⟩ := listed.takes rest
    refine (takes_takeArguments fun more hm => ?_).mpr ⟨first, mid, others, rfl, hf, ho⟩
    rw [hm] at hf
    exact takeSum_closeParen hf

/-- The first of some arguments is taken, and then the others with their commas. -/
theorem Listed.takes {ts : List Token} {trees : List Tree} (h : Listed ts trees)
    (rest : List Token) :
    ∃ first mid others, trees = first :: others ∧
      Takes (takeSum (ts ++ .symbol .closeParen :: rest)) first mid ∧
      Takes (moreArguments mid) others (.symbol .closeParen :: rest) := by
  match h with
  | .last only =>
    have hf := only.takes (.symbol .closeParen :: rest) rfl rfl (takes_growSum_of_stops rfl)
    exact ⟨_, _, [], rfl, hf, (takes_moreArguments_end (by simp)).mpr ⟨rfl, rfl⟩⟩
  | .next first others =>
    obtain ⟨second, mid, third, rfl, hs, ho⟩ := others.takes rest
    have hm := takes_moreArguments_comma.mpr ⟨second, mid, third, rfl, hs, ho⟩
    rw [List.append_assoc]
    exact ⟨_, _, _, rfl, first.takes _ rfl rfl (takes_growSum_of_stops rfl), hm⟩

end

/-! ### Exactly the expressions -/

theorem takes_takeSum_iff {ts : List Token} {tree : Tree} :
    Takes (takeSum ts) tree [] ↔ Expression ts tree := by
  constructor
  · intro h
    obtain ⟨used, rfl, he⟩ := takeSum_sound h
    simpa using he
  · intro h
    have ht := h.takes [] trivial trivial (takes_growSum_of_stops trivial)
    rwa [List.append_nil] at ht

theorem treeOf_eq_ok_iff {ts : List Token} {tree : Tree} :
    treeOf ts = .ok tree ↔ Expression ts tree := by
  rw [← takes_takeSum_iff]
  unfold treeOf
  split
  · constructor
    · nofun
    · intro h
      exact absurd h.bound (Nat.not_lt_zero _)
  · cases hx : takeSum ts with
    | error e => simp [bind, Except.bind, Takes]
    | ok v =>
      obtain ⟨t, rest, hr⟩ := v
      cases rest with
      | nil => simpa [bind, Except.bind, pure, Except.pure, Takes] using fun _ => hr
      | cons s more => simp [bind, Except.bind, Takes]

example : treeOf [.number 2, .symbol .caret, .symbol .minus, .number 3, .symbol .caret,
      .number 2] =
    .ok (.binary .pow (.const 2) (.unary .negate (.binary .pow (.const 3) (.const 2)))) := by
  cbv

/-- The grammar is unambiguous. -/
theorem Expression.unique {ts : List Token} {first second : Tree} (h₁ : Expression ts first)
    (h₂ : Expression ts second) : first = second := by
  have h := (treeOf_eq_ok_iff.mpr h₁).symm.trans (treeOf_eq_ok_iff.mpr h₂)
  exact Except.ok.inj h

theorem treeOf_cases (ts : List Token) :
    (∃ tree, treeOf ts = .ok tree ∧ Expression ts tree) ∨
      (∃ e, treeOf ts = .error e) ∧ ∀ tree, ¬ Expression ts tree := by
  cases h : treeOf ts with
  | ok tree => exact .inl ⟨tree, rfl, treeOf_eq_ok_iff.mp h⟩
  | error e =>
    refine .inr ⟨⟨e, rfl⟩, fun tree he => ?_⟩
    rw [treeOf_eq_ok_iff.mpr he] at h
    cases h

/-- A source compiles exactly if its tokens are an expression. -/
theorem compile_eq_ok_iff {source : String} {f : Formula} :
    compile source = .ok f ↔ ∃ ts tree, Token.scan 0 source.toList = .ok ts ∧
      Expression ts tree ∧ f = ⟨source, tree.fold binary64⟩ := by
  unfold compile
  constructor
  · intro h
    cases hs : Token.scan 0 source.toList with
    | error e =>
      rw [hs] at h
      cases h
    | ok ts =>
      cases ht : treeOf ts with
      | error e =>
        simp only [hs, ht, bind, Except.bind] at h
        cases h
      | ok tree =>
        simp only [hs, ht, bind, Except.bind] at h
        cases h
        exact ⟨ts, tree, rfl, treeOf_eq_ok_iff.mp ht, rfl⟩
  · rintro ⟨ts, tree, hs, he, rfl⟩
    simp only [hs, treeOf_eq_ok_iff.mpr he, bind, Except.bind, pure, Except.pure]

/-- **Formulas are read by their grammar.**  Any list of tokens is an expression and read as
    the one tree that it spells, or it is no expression and refused with an error; no tokens
    at all are no expression.  A source compiles exactly when its tokens are an expression,
    and then to the folded tree of that expression. -/
theorem compile_reads_grammar :
    (∀ ts tree, treeOf ts = .ok tree ↔ Expression ts tree) ∧
    (∀ ts, (∃ tree, treeOf ts = .ok tree ∧ Expression ts tree) ∨
      (∃ e, treeOf ts = .error e) ∧ ∀ tree, ¬ Expression ts tree) ∧
    (∀ tree, ¬ Expression [] tree) ∧
    ∀ source f, compile source = .ok f ↔ ∃ ts tree, Token.scan 0 source.toList = .ok ts ∧
      Expression ts tree ∧ f = ⟨source, tree.fold binary64⟩ := by
  refine ⟨fun ts tree => treeOf_eq_ok_iff, treeOf_cases, fun tree h => ?_,
    fun source f => compile_eq_ok_iff⟩
  cases treeOf_eq_ok_iff.mpr h

end Formula

end RuleEngine
