/-
  RuleEngine/Configuration/Format.lean
  ====================================
  **Formats of settings files.**

  How settings become text, and text becomes settings again, is up to a format.  The one
  that is used is TOML.  It has strings, truth values and signed numbers of 64 bits; it
  leaves out settings that are absent, and refuses to print a larger number.
-/
import RuleEngine.Configuration.Written
import RuleEngine.Toml.Reader
import RuleEngine.Toml.Written

namespace RuleEngine.Configuration

structure Format where
  print : List Group → Except WriteError String
  parse : String → Except Toml.Fault Toml.Value

/-! ### TOML -/

def Setting.fault? : Setting → Option WriteError
  | .count n => if n ≤ Int64.maxValue.toUInt64 then none else some (.tooLarge n)
  | .truth _ | .text _ | .absent => none

def Setting.scalar? : Setting → Option Toml.Scalar
  | .truth b => some (.boolean b)
  | .count n => some (.integer n.toInt64)
  | .text s => some (.string s)
  | .absent => none

/-- The table of a group, without the settings that are absent. -/
def Group.section (g : Group) : Toml.Section :=
  ⟨g.name, g.settings.filterMap fun s => s.2.scalar?.map (s.1, ·)⟩

def Format.toml : Format where
  print groups :=
    match (groups.flatMap Group.settings).findSome? (·.2.fault?) with
    | some e => .error e
    | none => .ok (Toml.documentText (groups.map Group.section))
  parse := Toml.Value.read

end RuleEngine.Configuration
