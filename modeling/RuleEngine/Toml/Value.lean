/-
  RuleEngine/Toml/Value.lean
  ==========================
  **The values of TOML documents.**

  TOML has dates and times as values of their own.  They are kept as they were
  written, save that fractions of a second beyond the ninth digit are cut off, and
  have one text each.
-/
import RuleEngine.Decimal.Text

namespace RuleEngine.Toml

/-! ### Dates and times -/

structure Date where
  year : Nat
  month : Nat
  day : Nat
deriving DecidableEq, Repr

structure Time where
  hour : Nat
  minute : Nat
  second : Nat
  nanosecond : Nat := 0
deriving DecidableEq, Repr

/-- How far a time is from universal time. -/
inductive Offset where
  | zulu
  | minutes (count : Int)
deriving DecidableEq, Repr

/-- A date, a time, or both with or without an offset. -/
structure DateTime where
  date? : Option Date := none
  time? : Option Time := none
  offset? : Option Offset := none
deriving DecidableEq, Repr

/-- A year has a day more than others. -/
def isLeapYear (year : Nat) : Bool := year % 4 == 0 && (year % 100 != 0 || year % 400 == 0)

def daysInMonth (year month : Nat) : Nat :=
  if month == 2 then (if isLeapYear year then 29 else 28)
  else if [4, 6, 9, 11].contains month then 30
  else 31

def Date.text (d : Date) : String :=
  Decimal.padded 4 d.year ++ "-" ++ Decimal.padded 2 d.month ++ "-" ++ Decimal.padded 2 d.day

/-- The text of a fraction of a second, without the zeros at its end. -/
def fractionText (nanosecond : Nat) : String :=
  if nanosecond = 0 then ""
  else
    let digits := (Decimal.padded 9 nanosecond).toList.reverse.dropWhile (· == '0')
    "." ++ String.ofList digits.reverse

def Time.text (t : Time) : String :=
  Decimal.padded 2 t.hour ++ ":" ++ Decimal.padded 2 t.minute ++ ":" ++
    Decimal.padded 2 t.second ++ fractionText t.nanosecond

def Offset.text : Offset → String
  | .zulu => "Z"
  | .minutes count =>
    (if count < 0 then "-" else "+") ++ Decimal.padded 2 (count.natAbs / 60) ++ ":" ++
      Decimal.padded 2 (count.natAbs % 60)

def DateTime.text (d : DateTime) : String :=
  let date := d.date?.elim "" Date.text
  let separator := if d.date?.isSome && d.time?.isSome then "T" else ""
  date ++ separator ++ d.time?.elim "" Time.text ++ d.offset?.elim "" Offset.text

/-! ### Values -/

/-- A value.  The entries of a table are in declared order. -/
inductive Value where
  | string (s : String)
  | integer (i : Int64)
  | float (x : Float)
  | boolean (b : Bool)
  | dateTime (d : DateTime)
  | array (items : List Value)
  | table (entries : List (String × Value))

instance : Inhabited Value := ⟨.table []⟩

/-! ### Faults -/

inductive Fault where
  /-- Characters that the grammar has no rule for. -/
  | malformed
  | unterminated
  | badEscape
  /-- A number, date or time beyond its range. -/
  | outOfRange
  /-- A key that was given a value before, or a table that was closed. -/
  | duplicateKey
  /-- A key below one that has a value. -/
  | notATable
  | tooDeep
  /-- A table that is marked as a date or time and holds none. -/
  | noDate
deriving DecidableEq, Repr

end RuleEngine.Toml
