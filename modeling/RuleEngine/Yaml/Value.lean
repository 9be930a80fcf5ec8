/-
  RuleEngine/Yaml/Value.lean
  ==========================
  **The values of YAML documents.**

  Any value may be the key of a mapping, so this file says when two values are the
  same key: numbers by their kind and value, mappings whatever the order of their
  entries.
-/
import RuleEngine.Decimal.Text

namespace RuleEngine.Yaml

/-! ### Numbers -/

/-- A number: an integer of 64 bits, with a sign only where it is negative, or a float. -/
inductive Number where
  | natural (n : UInt64)
  | negative (i : Int64)
  | float (x : Float)
deriving DecidableEq

/-- Two numbers are the same key: integers by value, floats by value, where all that
    are no number count as one.  An integer is never the same as a float. -/
def Number.same : Number → Number → Bool
  | natural a, natural b => a == b
  | negative a, negative b => a == b
  | float x, float y => (x.isNaN && y.isNaN) || x == y
  | _, _ => false

def Number.text : Number → String
  | natural n => toString n.toNat
  | negative i => toString i.toInt
  | float x =>
    match Decimal.Value.ofFloat x with
    | .notNumber => ".nan"
    | .infinite sign => Decimal.signText sign ++ ".inf"
    | .finite sign 0 _ => Decimal.signText sign ++ "0.0"
    | .finite sign m e =>
      Decimal.signText sign ++ (Decimal.shortest .even m e).pointed ""

/-! ### Values -/

inductive Value where
  | null
  | bool (b : Bool)
  | number (n : Number)
  | string (s : String)
  | sequence (items : List Value)
  | mapping (entries : List (Value × Value))
  | tagged (tag : String) (content : Value)

instance : Inhabited Value := ⟨.null⟩

mutual

/-- Two values are the same key. -/
def Value.same : Value → Value → Bool
  | .null, .null => true
  | .bool a, .bool b => a == b
  | .number a, .number b => a.same b
  | .string a, .string b => a == b
  | .sequence xs, .sequence ys => sameItems xs ys
  | .mapping xs, .mapping ys => xs.length == ys.length && allEntriesIn xs ys
  | .tagged s x, .tagged t y => s == t && Value.same x y
  | _, _ => false

def sameItems : List Value → List Value → Bool
  | [], [] => true
  | x :: xs, y :: ys => Value.same x y && sameItems xs ys
  | _, _ => false

/-- Every entry of a mapping is one of another. -/
def allEntriesIn : List (Value × Value) → List (Value × Value) → Bool
  | [], _ => true
  | e :: es, other => entryIn e other && allEntriesIn es other

def entryIn : Value × Value → List (Value × Value) → Bool
  | (k, v), other => other.any fun e => Value.same k e.1 && Value.same v e.2

end

def hasKey (key : Value) (entries : List (Value × Value)) : Bool :=
  entries.any fun e => Value.same key e.1

end RuleEngine.Yaml
