/-
  RuleEngine/Yaml/Resolve.lean
  ============================
  **What a plain text stands for.**

  A plain text that spells nothing, a truth value, an integer or a float stands for
  it; any other is a string.  Decimal digits with a leading zero spell no number.
  A tag of the format itself demands one kind of value.
-/
import RuleEngine.Yaml.Value
import RuleEngine.Yaml.Cursor
import RuleEngine.Text.Hex
import RuleEngine.Decimal.Reader

namespace RuleEngine.Yaml

/-! ### Words -/

/-- The texts that spell nothing. -/
def isNullWord (s : String) : Bool := ["null", "Null", "NULL", "~"].contains s

def boolWord? (s : String) : Option Bool :=
  if ["true", "True", "TRUE"].contains s then some true
  else if ["false", "False", "FALSE"].contains s then some false
  else none

/-! ### Integers -/

/-- The value of some digits of a radix, if there are any and all are digits of it. -/
def radixNumber? (radix : Nat) (digits : List Char) : Option Nat :=
  if digits.isEmpty then none
  else digits.foldlM (fun n d => (Text.hexValue? d).bind fun v =>
    if v < radix then some (n * radix + v) else none) 0

/-- Decimal digits that a leading zero keeps from being a number, after a sign or not. -/
def hasLeadingZero (cs : List Char) : Bool :=
  match (Decimal.splitSign cs).2 with
  | '0' :: d :: rest => (d :: rest).all Char.isDigit
  | _ => false

/-- The magnitude that an unsigned text spells; `whole` is the text with its sign. -/
def magnitude? (whole : List Char) : List Char → Option Nat
  | '0' :: 'x' :: digits => radixNumber? 16 digits
  | '0' :: 'o' :: digits => radixNumber? 8 digits
  | '0' :: 'b' :: digits => radixNumber? 2 digits
  | digits => if hasLeadingZero whole then none else radixNumber? 10 digits

def integer? (cs : List Char) : Option Int :=
  match cs with
  | '-' :: rest => (magnitude? cs rest).map fun n => -(n : Int)
  | '+' :: rest => (magnitude? cs rest).map Int.ofNat
  | _ => (magnitude? cs cs).map Int.ofNat

/-- What an integer is read as: a number, or none at all where 128 bits do not hold
    it.  An integer between is an error. -/
def integerValue? (i : Int) : Option (Except Fault Value) :=
  if 0 ≤ i then
    if i < UInt64.size then some (.ok (.number (.natural (UInt64.ofNat i.toNat))))
    else if i < UInt64.size * UInt64.size then some (.error .wideInteger)
    else none
  else if Int64.minValue.toInt ≤ i then some (.ok (.number (.negative (Int64.ofInt i))))
  else if Int64.minValue.toInt * UInt64.size ≤ i then some (.error .wideInteger)
  else none

/-! ### Floats -/

/-- The float that a text spells; one beyond the range of floats spells none. -/
def float? (s : String) : Option Float :=
  let unsigned? : Option String :=
    match s.toList with
    | '+' :: '+' :: _ | '+' :: '-' :: _ => none
    | '+' :: rest => some (String.ofList rest)
    | _ => some s
  match unsigned? with
  | none => none
  | some unsigned =>
    if [".inf", ".Inf", ".INF"].contains unsigned then some (Decimal.Value.infinite false).toFloat
    else if ["-.inf", "-.Inf", "-.INF"].contains s then some (Decimal.Value.infinite true).toFloat
    else if [".nan", ".NaN", ".NAN"].contains s then some Decimal.notNumber
    else (Decimal.readFloat? unsigned).filter Float.isFinite

/-! ### Plain texts -/

/-- The value that a plain text stands for. -/
def plainValue (s : String) : Except Fault Value :=
  if s.isEmpty || isNullWord s then .ok .null
  else
    match boolWord? s, (integer? s.toList).bind integerValue? with
    | some b, _ => .ok (.bool b)
    | none, some result => result
    | none, none =>
      match if hasLeadingZero s.toList then none else float? s with
      | some x => .ok (.number (.float x))
      | none => .ok (.string s)

inductive CoreType where
  | null
  | bool
  | int
  | float
deriving DecidableEq, Repr

def CoreType.ofTag? (tag : String) : Option CoreType :=
  match tag with
  | "tag:yaml.org,2002:null" => some .null
  | "tag:yaml.org,2002:bool" => some .bool
  | "tag:yaml.org,2002:int" => some .int
  | "tag:yaml.org,2002:float" => some .float
  | _ => none

/-- The value of a type that a text, quoted or not, spells. -/
def CoreType.read (t : CoreType) (s : String) : Except Fault Value :=
  match t with
  | .null => if isNullWord s then .ok .null else .error .wrongTag
  | .bool => ((boolWord? s).map fun b => .ok (.bool b)).getD (.error .wrongTag)
  | .int => ((integer? s.toList).bind integerValue?).getD (.error .wrongTag)
  | .float => ((float? s).map fun x => .ok (.number (.float x))).getD (.error .wrongTag)

end RuleEngine.Yaml
