/-
  RuleEngine/Decimal/Value.lean
  =============================
  **What a binary64 number is, exactly.**

  Numbers are binary64 floats.  Rounding to an integer, the remainder of a
  division and the shortest decimal text all need the exact value, so this file
  reads a float as a sign, a natural mantissa and a power of two, and writes such
  a triple back.  Everything here is integer arithmetic on that triple.
-/

namespace RuleEngine.Decimal

open Float.Model.UnpackedFloat (Sign)

/-! ### Reading and writing -/

/-- The value of a float.  `finite negative m e` is `± m · 2 ^ e`; zero is the
    mantissa `0`, with its sign. -/
inductive Value where
  | notNumber
  | infinite (negative : Bool)
  | finite (negative : Bool) (mantissa : Nat) (exponent : Int)
deriving DecidableEq, Repr

def Value.ofFloat (x : Float) : Value :=
  match x.toModel.unpack with
  | .notANumber => .notNumber
  | .infinity .negative => .infinite true
  | .infinity .positive => .infinite false
  | .zero .negative => .finite true 0 0
  | .zero .positive => .finite false 0 0
  | .finite .negative m e _ => .finite true m e
  | .finite .positive m e _ => .finite false m e

def signOf (negative : Bool) : Sign := if negative then .negative else .positive

/-- The float nearest to a value, ties to the even mantissa. -/
def Value.toFloat : Value → Float
  | .notNumber => .ofModel (.pack .notANumber)
  | .infinite negative => .ofModel (.pack (.infinity (signOf negative)))
  | .finite negative 0 _ => .ofModel (.pack (.zero (signOf negative)))
  | .finite negative (m + 1) e =>
    .ofModel (.pack (.round .binary64 (signOf negative) (m + 1) e))

def notNumber : Float := Value.notNumber.toFloat

/-! ### Rounding to an integer -/

/-- The ways a number is rounded to an integer. -/
inductive Rounding where
  | down
  | up
  | towardZero
  /-- To the nearest integer, a half away from zero. -/
  | nearest
deriving DecidableEq, Repr

/-- The integer magnitude that `m / d` rounds to, for a magnitude of the given sign. -/
def Rounding.magnitude (mode : Rounding) (negative : Bool) (m d : Nat) : Nat :=
  match mode with
  | .towardZero => m / d
  | .down => if negative && m % d != 0 then m / d + 1 else m / d
  | .up => if !negative && m % d != 0 then m / d + 1 else m / d
  | .nearest => if d ≤ 2 * (m % d) then m / d + 1 else m / d

/-- A float rounded to an integer.  The sign stays, also on a zero; infinities and
    what is no number stay as they are. -/
def Rounding.apply (mode : Rounding) (x : Float) : Float :=
  match Value.ofFloat x with
  | .finite negative m (.negSucc k) =>
    (Value.finite negative (mode.magnitude negative m (1 <<< (k + 1))) 0).toFloat
  | _ => x

def toInt? (x : Float) : Option Int :=
  match Value.ofFloat x with
  | .finite negative m e =>
    let magnitude? :=
      match e with
      | .ofNat k => some (m <<< k)
      | .negSucc k => if m % (1 <<< (k + 1)) = 0 then some (m >>> (k + 1)) else none
    magnitude?.map fun n => if negative then -(n : Int) else (n : Int)
  | _ => none

/-! ### Remainder -/

/-- The remainder of a division whose quotient is cut toward zero.  It is exact,
    has the sign of the dividend, and is no number when the dividend is infinite
    or the divisor is zero. -/
def remainder (x y : Float) : Float :=
  match Value.ofFloat x, Value.ofFloat y with
  | .finite negative m e, .finite _ n f =>
    if n = 0 then notNumber
    else
      let low := min e f
      let r := (m <<< (e - low).toNat) % (n <<< (f - low).toNat)
      (Value.finite negative r low).toFloat
  | .finite .., .infinite _ => x
  | _, _ => notNumber

end RuleEngine.Decimal
