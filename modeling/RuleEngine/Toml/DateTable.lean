/-
  RuleEngine/Toml/DateTable.lean
  ==============================
  **Dates in the form of tables.**

  A document without dates of its own can still give one: as a table whose first
  key is a mark, with a string for its value.  The string has to be a date or time
  by itself, with somewhat wider bounds than one in a document; the other keys of
  such a table do not count.
-/
import RuleEngine.Toml.Reader

namespace RuleEngine.Toml

/-- The key that marks a table as a date or time where it comes first. -/
def dateMark : String := "$__toml_private_datetime"

/-- A table of some entries is marked as a date or time. -/
def isMarked (entries : List (String × Value)) : Bool := entries.head?.any (·.1 == dateMark)

def markedDate : List (String × Value) → Except Fault DateTime
  | (_, .string s) :: _ => (DateTime.ofText? s).elim (.error .noDate) .ok
  | _ => .error .noDate

mutual

/-- A value with the marked tables in it replaced by the dates and times they give. -/
def Value.withDates : Value → Except Fault Value
  | .array items => return .array (← withDatesItems items)
  | .table entries => do
    if isMarked entries then return .dateTime (← markedDate entries)
    return .table (← withDatesEntries entries)
  | v => return v

def withDatesItems : List Value → Except Fault (List Value)
  | [] => return []
  | v :: rest => return (← v.withDates) :: (← withDatesItems rest)

def withDatesEntries : List (String × Value) → Except Fault (List (String × Value))
  | [] => return []
  | e :: rest => return (← withDatesEntry e) :: (← withDatesEntries rest)

def withDatesEntry : String × Value → Except Fault (String × Value)
  | (k, v) => return (k, ← v.withDates)

end

end RuleEngine.Toml
