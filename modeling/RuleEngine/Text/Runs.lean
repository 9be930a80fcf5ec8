/-
  RuleEngine/Text/Runs.lean
  =========================
  **Sets of characters as runs of numbers.**

  A property of characters is kept as the runs of numbers that have it.  Whether a
  character has the property is then a matter of comparing its number with the ends
  of the runs.
-/

namespace RuleEngine.Text

def inRuns (runs : List (Nat × Nat)) (n : Nat) : Bool := runs.any fun r => r.1 ≤ n && n ≤ r.2

/-- A number is in some runs if it is between the ends of one. -/
theorem inRuns_iff {runs : List (Nat × Nat)} {n : Nat} :
    inRuns runs n = true ↔ ∃ r ∈ runs, r.1 ≤ n ∧ n ≤ r.2 := by
  simp [inRuns]

end RuleEngine.Text
