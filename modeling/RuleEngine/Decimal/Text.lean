/-
  RuleEngine/Decimal/Text.lean
  ============================
  **The texts of a number.**

  The same shortest decimal has three layouts: the plain one, which never uses an
  exponent and writes an integral number without a point; the one of JSON, which
  keeps a `.0` and turns to an exponent for very large and very small numbers; and
  the one with a fixed number of places, for log lines.
-/
import RuleEngine.Decimal.Shortest

namespace RuleEngine.Decimal

def zeros (n : Nat) : String := String.ofList (List.replicate n '0')

def signText (negative : Bool) : String := if negative then "-" else ""

/-- The digits of `n`, filled up with zeros on the left to at least `width`. -/
def padded (width n : Nat) : String :=
  let ds := toString n
  zeros (width - ds.length) ++ ds

/-- Digits with a point before the last `places` of them. -/
def pointed (n places : Nat) : String :=
  let unit := Nat.pow 10 places
  toString (n / unit) ++ "." ++ padded places (n % unit)

/-! ### Plain layout -/

def Shortest.plain (d : Shortest) : String :=
  match d.exponent with
  | .ofNat k => toString d.digits ++ (if d.digits = 0 then "" else zeros k)
  | .negSucc k => pointed d.digits (k + 1)

/-- The plain text of a number: never an exponent, no `.0` for an integral one. -/
def plain (x : Float) : String :=
  match Value.ofFloat x with
  | .notNumber => "NaN"
  | .infinite negative => signText negative ++ "inf"
  | .finite negative 0 _ => signText negative ++ "0"
  | .finite negative m e => signText negative ++ (shortest .up m e).plain

/-! ### JSON layout -/

/-- A decimal that keeps a `.0`: positional from `0.00001` up to sixteen digits
    before the point, with an exponent beyond, whose sign `plus` is `+` or left out. -/
def Shortest.pointed (plus : String) (d : Shortest) : String :=
  let ds := toString d.digits
  let point : Int := ds.length + d.exponent
  if 0 ≤ d.exponent ∧ point ≤ 16 then ds ++ zeros d.exponent.toNat ++ ".0"
  else if -5 < point ∧ point ≤ 16 then d.plain
  else
    let power := point - 1
    let powerText := (if power < 0 then "e-" else "e" ++ plus) ++ toString power.natAbs
    match ds.toList with
    | first :: second :: rest => String.ofList (first :: '.' :: second :: rest) ++ powerText
    | short => String.ofList short ++ powerText

/-- The JSON text of a finite number; `none` for the others, which JSON cannot write. -/
def json? (x : Float) : Option String :=
  match Value.ofFloat x with
  | .finite negative 0 _ => some (signText negative ++ "0.0")
  | .finite negative m e => some (signText negative ++ (shortest .even m e).pointed "+")
  | _ => none

/-! ### Fixed places -/

/-- `n / d` rounded to the nearest integer, a tie to the even one. -/
def roundHalfEven (n d : Nat) : Nat :=
  let r := n % d
  if d < 2 * r ∨ (d = 2 * r ∧ n / d % 2 = 1) then n / d + 1 else n / d

/-- The text of a number with a fixed number of places, rounded from its exact value. -/
def fixed (places : Nat) (x : Float) : String :=
  match Value.ofFloat x with
  | .notNumber => "NaN"
  | .infinite negative => signText negative ++ "inf"
  | .finite negative m e =>
    let n := roundHalfEven (m <<< e.toNat * Nat.pow 10 places) (1 <<< (-e).toNat)
    signText negative ++ pointed n places

end RuleEngine.Decimal
