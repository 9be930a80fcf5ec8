/-
  RuleEngine/Template/Formula.lean
  ================================
  **Formulas.**

  The tokens of a formula are read by the grammar

      expression = term (("+" | "-") term)*
      term       = unary (("*" | "/" | "%") unary)*
      unary      = "-" unary | "+" unary | power
      power      = atom ["^" unary]
      atom       = number | reference | "(" expression ")"
                 | name "(" [expression ("," expression)*] ")"

  Every reader takes at least one token when it succeeds, so it returns the rest
  together with the fact that it is shorter; the chain of readers ends because of
  that.  The tree is folded once, when the rule of the formula is compiled.
-/
import RuleEngine.Template.Token
import RuleEngine.Template.Arithmetic

namespace RuleEngine

open Arithmetic

/-! ### Functions -/

inductive Function where
  | one (op : Unary)
  | two (op : Binary)
deriving DecidableEq, Repr

namespace Function

/-- The function of a name, in any case. -/
def ofName? (name : String) : Option Function :=
  match Text.asciiLower name with
  | "min" => some (two .min)
  | "max" => some (two .max)
  | "abs" => some (one .abs)
  | "floor" => some (one .floor)
  | "ceil" => some (one .ceil)
  | "round" => some (one .round)
  | "sqrt" => some (one .sqrt)
  | _ => none

def arity : Function → Nat
  | one _ => 1
  | two _ => 2

/-- A call, when the number of arguments fits. -/
def call? : Function → List Tree → Option Tree
  | one op, [x] => some (.unary op x)
  | two op, [x, y] => some (.binary op x y)
  | _, _ => none

end Function

/-! ### Reading a tree -/

namespace Formula

/-- A tree, or a list of trees, with fewer tokens than there were. -/
abbrev Taken (α : Type) (ts : List Token) :=
  Except TemplateError (α × { rest : List Token // rest.length < ts.length })

/-- A tree with no more tokens than there were. -/
abbrev Grown (ts : List Token) :=
  Except TemplateError (Tree × { rest : List Token // rest.length ≤ ts.length })

def expect (sign : Symbol) (ts : List Token) : Taken Unit ts :=
  match ts with
  | [] => .error .unexpectedEnd
  | t :: rest =>
    if t = .symbol sign then .ok ((), ⟨rest, by simp⟩)
    else .error (.unexpectedToken t.text)

def sumOp? : Token → Option Binary
  | .symbol .plus => some .add
  | .symbol .minus => some .sub
  | _ => none

def productOp? : Token → Option Binary
  | .symbol .times => some .mul
  | .symbol .divide => some .div
  | .symbol .percent => some .rem
  | _ => none

mutual

/-- An expression: terms joined by signs of a sum. -/
def takeSum (ts : List Token) : Taken Tree ts := do
  let (first, ⟨rest, h⟩) ← takeProduct ts
  let (tree, ⟨rest', h'⟩) ← growSum first rest
  return (tree, ⟨rest', by omega⟩)
termination_by (ts.length, 4)

def growSum (left : Tree) (ts : List Token) : Grown ts :=
  match ts with
  | [] => .ok (left, ⟨[], by simp⟩)
  | t :: more =>
    match sumOp? t with
    | none => .ok (left, ⟨t :: more, by simp⟩)
    | some op => do
      let (right, ⟨rest, h⟩) ← takeProduct more
      let (tree, ⟨rest', h'⟩) ← growSum (.binary op left right) rest
      return (tree, ⟨rest', by simp; omega⟩)
termination_by (ts.length, 3)

def takeProduct (ts : List Token) : Taken Tree ts := do
  let (first, ⟨rest, h⟩) ← takeUnary ts
  let (tree, ⟨rest', h'⟩) ← growProduct first rest
  return (tree, ⟨rest', by omega⟩)
termination_by (ts.length, 3)

def growProduct (left : Tree) (ts : List Token) : Grown ts :=
  match ts with
  | [] => .ok (left, ⟨[], by simp⟩)
  | t :: more =>
    match productOp? t with
    | none => .ok (left, ⟨t :: more, by simp⟩)
    | some op => do
      let (right, ⟨rest, h⟩) ← takeUnary more
      let (tree, ⟨rest', h'⟩) ← growProduct (.binary op left right) rest
      return (tree, ⟨rest', by simp; omega⟩)
termination_by (ts.length, 2)

/-- A factor: signs before a power. -/
def takeUnary (ts : List Token) : Taken Tree ts :=
  match ts with
  | .symbol .minus :: more => do
    let (operand, ⟨rest, h⟩) ← takeUnary more
    return (.unary .negate operand, ⟨rest, by simp; omega⟩)
  | .symbol .plus :: more => do
    let (operand, ⟨rest, h⟩) ← takeUnary more
    return (operand, ⟨rest, by simp; omega⟩)
  | other => takePower other
termination_by (ts.length, 2)

/-- A power: an atom, and a factor as its exponent. -/
def takePower (ts : List Token) : Taken Tree ts := do
  let (base, ⟨rest, h⟩) ← takeAtom ts
  match rest, h with
  | .symbol .caret :: more, h => do
    have shorter : more.length < ts.length := by simp at h; omega
    let (exponent, ⟨rest', h'⟩) ← takeUnary more
    return (.binary .pow base exponent, ⟨rest', by omega⟩)
  | other, h => return (base, ⟨other, h⟩)
termination_by (ts.length, 1)

def takeAtom (ts : List Token) : Taken Tree ts :=
  match ts with
  | [] => .error .unexpectedEnd
  | .number value :: more => .ok (.const value, ⟨more, by simp⟩)
  | .reference target :: more => .ok (.reference target, ⟨more, by simp⟩)
  | .symbol .openParen :: more => do
    let (inner, ⟨rest, h⟩) ← takeSum more
    let ((), ⟨rest', h'⟩) ← expect .closeParen rest
    return (inner, ⟨rest', by simp; omega⟩)
  | .name word :: more =>
    match Function.ofName? word with
    | none => .error (.unknownFunction word)
    | some function => do
      let ((), ⟨rest, h⟩) ← expect .openParen more
      let (arguments, ⟨rest', h'⟩) ← takeArguments rest
      let ((), ⟨rest'', h''⟩) ← expect .closeParen rest'
      match function.call? arguments with
      | some tree => return (tree, ⟨rest'', by simp; omega⟩)
      | none => .error (.arity word function.arity arguments.length)
  | t :: _ => .error (.unexpectedToken t.text)
termination_by (ts.length, 0)

/-- The arguments of a call, up to its closing parenthesis. -/
def takeArguments (ts : List Token) :
    Except TemplateError (List Tree × { rest : List Token // rest.length ≤ ts.length }) :=
  match ts with
  | .symbol .closeParen :: more => .ok ([], ⟨.symbol .closeParen :: more, by simp⟩)
  | other => do
    let (first, ⟨rest, h⟩) ← takeSum other
    let (others, ⟨rest', h'⟩) ← moreArguments rest
    return (first :: others, ⟨rest', by omega⟩)
termination_by (ts.length, 5)

def moreArguments (ts : List Token) :
    Except TemplateError (List Tree × { rest : List Token // rest.length ≤ ts.length }) :=
  match ts with
  | .symbol .comma :: more => do
    let (next, ⟨rest, h⟩) ← takeSum more
    let (others, ⟨rest', h'⟩) ← moreArguments rest
    return (next :: others, ⟨rest', by simp; omega⟩)
  | other => .ok ([], ⟨other, by simp⟩)
termination_by (ts.length, 0)

end

def treeOf (ts : List Token) : Except TemplateError Tree :=
  match ts with
  | [] => .error .empty
  | ts => do
    let (tree, ⟨rest, _⟩) ← takeSum ts
    match rest with
    | [] => return tree
    | t :: _ => .error (.unexpectedToken t.text)

end Formula

/-! ### Formulas -/

structure Formula where
  source : String
  tree : Tree
deriving DecidableEq

namespace Formula

def compile (source : String) : Except TemplateError Formula := do
  let tokens ← Token.scan 0 source.toList
  let tree ← treeOf tokens
  return ⟨source, tree.fold binary64⟩

def constant (value : Float) : Formula := ⟨Decimal.plain value, .const value⟩

/-- The formula in a scalar: a number is a constant, a string is compiled. -/
def ofNode : Node → Except TemplateError Formula
  | .scalar (.int i) => .ok (constant (.ofInt i.toInt))
  | .scalar (.float x) => .ok (constant x)
  | .scalar (.str s) => compile s
  | .scalar .null => .error .empty
  | .scalar (.bool b) => .error (.unexpectedToken (Node.boolText b))
  | other => .error (.notScalar other.shape)

/-- The value of a formula that has the same value everywhere. -/
def const? (f : Formula) : Option Float := f.tree.const?

/-- What a reference is worth inside a formula: one that reads no number makes its
    operand no number. -/
def operand (scope : Scope) (target : Reference) : Float :=
  (scope.number? target).getD Decimal.notNumber

def eval (f : Formula) (scope : Scope) : Float := f.tree.eval binary64 (operand scope)

end Formula

end RuleEngine
