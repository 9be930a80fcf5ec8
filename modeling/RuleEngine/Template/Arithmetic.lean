/-
  RuleEngine/Template/Arithmetic.lean
  ===================================
  **Trees of arithmetic.**

  The tree of a formula has constants and references at its leaves and operators
  with one or two operands inside; the named functions are operators too.  The
  tree is evaluated under an interpretation of the operators, so what folding does
  to it can be said for any of them.  `binary64` is the interpretation of the rule
  engine.
-/
import RuleEngine.Template.Reference

namespace RuleEngine.Arithmetic

/-! ### Operators -/

inductive Unary where
  | negate
  | abs
  | floor
  | ceil
  | round
  | sqrt
deriving DecidableEq, Repr

inductive Binary where
  | add
  | sub
  | mul
  | div
  | rem
  | pow
  | min
  | max
deriving DecidableEq, Repr

structure Interpretation where
  unary : Unary → Float → Float
  binary : Binary → Float → Float → Float

/-- The smaller of two numbers; what is no number gives way to the other.  Of zeros with
    different signs it is the second. -/
def smaller (x y : Float) : Float := if x.isNaN || y ≤ x then y else x

/-- The greater of two numbers; what is no number gives way to the other.  Of zeros with
    different signs it is the second. -/
def greater (x y : Float) : Float := if x.isNaN || x ≤ y then y else x

/-- Division, which has no value for a zero divisor. -/
def quotient (x y : Float) : Float := if y == 0 then Decimal.notNumber else x / y

/-- A power.  The exponent zero and the base one give one, whatever the other is; apart
    from that, what is no number stays no number. -/
def power (x y : Float) : Float :=
  if y == 0 || x == 1 then 1
  else if x.isNaN || y.isNaN then Decimal.notNumber
  else Float.pow x y

def binary64 : Interpretation where
  unary
    | .negate => fun x => -x
    | .abs => Float.abs
    | .floor => Decimal.Rounding.down.apply
    | .ceil => Decimal.Rounding.up.apply
    | .round => Decimal.Rounding.nearest.apply
    | .sqrt => Float.sqrt
  binary
    | .add => fun x y => x + y
    | .sub => fun x y => x - y
    | .mul => fun x y => x * y
    | .div => quotient
    | .rem => Decimal.remainder
    | .pow => power
    | .min => smaller
    | .max => greater

/-! ### Trees -/

inductive Tree where
  | const (value : Float)
  | reference (target : Reference)
  | unary (op : Unary) (operand : Tree)
  | binary (op : Binary) (left right : Tree)
deriving DecidableEq

namespace Tree

def eval (ops : Interpretation) (read : Reference → Float) : Tree → Float
  | const value => value
  | reference target => read target
  | unary op operand => ops.unary op (operand.eval ops read)
  | binary op left right => ops.binary op (left.eval ops read) (right.eval ops read)

/-- The references of a tree, in the order in which evaluation reads them. -/
def references : Tree → List Reference
  | const _ => []
  | reference target => [target]
  | unary _ operand => operand.references
  | binary _ left right => left.references ++ right.references

def const? : Tree → Option Float
  | const value => some value
  | _ => none

def foldUnary (ops : Interpretation) (op : Unary) : Tree → Tree
  | const x => const (ops.unary op x)
  | operand => unary op operand

def foldBinary (ops : Interpretation) (op : Binary) : Tree → Tree → Tree
  | const x, const y => const (ops.binary op x y)
  | left, right => binary op left right

/-- A tree with every part that has no references replaced by its value. -/
def fold (ops : Interpretation) : Tree → Tree
  | const value => const value
  | reference target => reference target
  | unary op operand => foldUnary ops op (operand.fold ops)
  | binary op left right => foldBinary ops op (left.fold ops) (right.fold ops)

end Tree

end RuleEngine.Arithmetic
