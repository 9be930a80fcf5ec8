/-
  RuleEngine/Decimal/Reader.lean
  ==============================
  **Reading numbers.**

  A number in a rule tree or a property may be an integer of 64 bits or a binary64
  float.  Both have one grammar each, without blanks: an integer is an optional
  sign and digits; a float is an optional sign and either a word for infinity or
  for no number, or digits with an optional point and an optional exponent.  The
  float read is the one nearest to the decimal.
-/
import RuleEngine.Decimal.Value

namespace RuleEngine.Decimal

/-! ### Digits -/

/-- The value of a run of decimal digits, continuing from `acc`. -/
def digitsValue (acc : Nat) (cs : List Char) : Nat :=
  cs.foldl (fun n c => 10 * n + (c.toNat - '0'.toNat)) acc

def splitSign : List Char → Bool × List Char
  | '-' :: cs => (true, cs)
  | '+' :: cs => (false, cs)
  | cs => (false, cs)

def splitDigits (cs : List Char) : List Char × List Char :=
  (cs.takeWhile Char.isDigit, cs.dropWhile Char.isDigit)

def readNat? (cs : List Char) : Option Nat :=
  if cs.isEmpty || !cs.all Char.isDigit then none else some (digitsValue 0 cs)

/-! ### Integers -/

/-- Whether an integer fits into 64 bits with a sign. -/
def fitsInt64 (i : Int) : Bool := Int64.minValue.toInt ≤ i && i ≤ Int64.maxValue.toInt

def readInteger? (s : String) : Option Int :=
  let (negative, cs) := splitSign s.toList
  (readNat? cs).map fun n => if negative then -(n : Int) else (n : Int)

def readInt64? (s : String) : Option Int64 :=
  match readInteger? s with
  | some i => if fitsInt64 i then some (Int64.ofInt i) else none
  | none => none

/-! ### Floats -/

/-- The float nearest to `± digits · 10 ^ exponent`.  Decimals far beyond the range
    are settled without forming the power. -/
def nearest (negative : Bool) (digits : Nat) (exponent : Int) : Float :=
  let position : Int := (Nat.toDigits 10 digits).length + exponent
  let magnitude : Float :=
    if digits = 0 ∨ position < -400 then 0
    else if 400 < position then Value.toFloat (.infinite false)
    else .ofScientific digits (exponent < 0) exponent.natAbs
  if negative then -magnitude else magnitude

/-- The exponent part of a float: nothing, or `e`, an optional sign and digits. -/
def readExponent? : List Char → Option Int
  | [] => some 0
  | c :: cs =>
    if c = 'e' ∨ c = 'E' then
      let (negative, ds) := splitSign cs
      (readNat? ds).map fun n => if negative then -(n : Int) else (n : Int)
    else none

/-- The float that an unsigned text of digits, an optional point and an optional
    exponent spells. -/
def readUnsigned? (negative : Bool) (cs : List Char) : Option Float :=
  let (whole, rest) := splitDigits cs
  let (places, rest) := match rest with
    | '.' :: more => splitDigits more
    | other => ([], other)
  if whole.isEmpty && places.isEmpty then none
  else (readExponent? rest).map fun e =>
    nearest negative (digitsValue 0 (whole ++ places)) (e - places.length)

def readFloat? (s : String) : Option Float :=
  let (negative, cs) := splitSign s.toList
  match String.ofList (cs.map Char.toLower) with
  | "inf" | "infinity" => some (Value.infinite negative).toFloat
  | "nan" => some notNumber
  | _ => readUnsigned? negative cs

end RuleEngine.Decimal
