/-
  RuleEngine/Decimal/Shortest.lean
  ================================
  **The shortest decimal that reads back.**

  A number is printed with the fewest decimal digits that still denote it.  The
  reals that round to the binary64 number `m · 2 ^ e` form an interval around it,
  whose ends belong to it exactly when `m` is even.  For one digit, two, … up to
  seventeen, the two neighbours of the number on that decimal grid are tested in
  exact natural-number arithmetic; the first grid with a neighbour inside the
  interval wins, and of two neighbours inside the nearer one.
-/
import RuleEngine.Decimal.Value

namespace RuleEngine.Decimal

/-! ### Decimals -/

/-- The decimal `digits · 10 ^ exponent`. -/
structure Shortest where
  digits : Nat
  exponent : Int
deriving DecidableEq, Repr

/-- Which of two equally near decimals is taken. -/
inductive Tie where
  | up
  | even
deriving DecidableEq, Repr

/-- Move trailing zero digits into the exponent, at most `fuel` of them. -/
def stripZeros : Nat → Shortest → Shortest
  | 0, d => d
  | fuel + 1, d =>
    if d.digits ≠ 0 ∧ d.digits % 10 = 0 then
      stripZeros fuel ⟨d.digits / 10, d.exponent + 1⟩
    else d

/-! ### The interval of a float -/

/-- A positive number with the interval of reals that round to it, all three over
    one denominator. -/
structure Interval where
  low : Nat
  value : Nat
  high : Nat
  scale : Nat
  closed : Bool
deriving Repr

/-- The interval of the binary64 number `m · 2 ^ e`.  Below the least mantissa of
    a binade the neighbour is half as far away. -/
def Interval.ofParts (m : Nat) (e : Int) : Interval :=
  let gap := if m = 1 <<< 52 ∧ -1074 < e then 1 else 2
  let up := 1 <<< (e - 2).toNat
  { low := (4 * m - gap) * up
    value := 4 * m * up
    high := (4 * m + 2) * up
    scale := 1 <<< (2 - e).toNat
    closed := m % 2 == 0 }

/-- Whether the fraction `n / d` lies in the interval. -/
def Interval.holds (i : Interval) (n d : Nat) : Bool :=
  if i.closed then i.low * d ≤ n * i.scale && n * i.scale ≤ i.high * d
  else i.low * d < n * i.scale && n * i.scale < i.high * d

/-- The number of decimal digits before the point of `n / d`, zero or negative for
    a fraction that starts with zeros; at most `fuel` of those are counted. -/
def leadingPosition (n d : Nat) : Nat → Int
  | 0 => (Nat.toDigits 10 (n / d)).length
  | fuel + 1 =>
    if d ≤ n then (Nat.toDigits 10 (n / d)).length
    else leadingPosition (n * 10) d fuel - 1

/-- The neighbour of the number on the grid of multiples of `10 ^ g` that lies in
    its interval, the nearer one if both do. -/
def Interval.pick (i : Interval) (tie : Tie) (g : Int) : Option Shortest :=
  let unit := Nat.pow 10 g.toNat
  let d := Nat.pow 10 (-g).toNat
  let below := i.value * d / (i.scale * unit)
  let lowHit := below ≠ 0 ∧ i.holds (below * unit) d
  let highHit := i.holds ((below + 1) * unit) d
  let twice := 2 * i.value * d
  let middle := (2 * below + 1) * (i.scale * unit)
  let takeHigh : Bool := match tie with
    | .up => middle ≤ twice
    | .even => middle < twice || (middle == twice && below % 2 == 1)
  if lowHit ∧ highHit then
    some ⟨if takeHigh then below + 1 else below, g⟩
  else if lowHit then some ⟨below, g⟩
  else if highHit then some ⟨below + 1, g⟩
  else none

def Interval.search (i : Interval) (tie : Tie) (g : Int) : Nat → Shortest
  | 0 => ⟨i.value * Nat.pow 10 (-g).toNat / (i.scale * Nat.pow 10 g.toNat), g⟩
  | fuel + 1 =>
    match i.pick tie g with
    | some d => d
    | none => i.search tie (g - 1) fuel

/-- The shortest decimal that reads back as the positive number `m · 2 ^ e`. -/
def shortest (tie : Tie) (m : Nat) (e : Int) : Shortest :=
  let i := Interval.ofParts m e
  let position := leadingPosition i.value i.scale 400
  stripZeros 400 (i.search tie (position - 1) 17)

end RuleEngine.Decimal
