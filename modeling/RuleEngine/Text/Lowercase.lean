/-
  RuleEngine/Text/Lowercase.lean
  ==============================
  **Lower case.**

  The lower case of a text is that of its characters, with the two exceptions that
  the Unicode standard makes without regard to a language: the capital I with a dot
  becomes two characters, and a capital sigma at the end of a word becomes a final
  sigma.
-/
import RuleEngine.Text.CaseTable
import RuleEngine.Text.Runs

namespace RuleEngine.Text

/-! ### Characters -/

/-- A character that has a case and counts as a letter. -/
def isCased (c : Char) : Bool := inRuns casedRuns c.toNat

/-- A character that is passed over when the letters around a place are looked for. -/
def isCaseIgnorable (c : Char) : Bool := inRuns caseIgnorableRuns c.toNat

def inLowerRun (n : Nat) (run : Nat × Nat × Nat × Int) : Bool :=
  run.1 ≤ n && n ≤ run.2.1 && (n - run.1) % run.2.2.1 == 0

/-- The lower case of a character by itself. -/
def lowerChar (c : Char) : Char :=
  match lowerRuns.find? (inLowerRun c.toNat) with
  | some (_, _, _, distance) => Char.ofNat ((c.toNat : Int) + distance).toNat
  | none => c

/-- On ASCII it is the lower case of core. -/
theorem lowerChar_of_ascii :
    ∀ n < 128, lowerChar (Char.ofNat n) = (Char.ofNat n).toLower := by decide +kernel

/-! ### Texts -/

/-- The first of some characters that is not passed over is a letter. -/
def meetsLetter (cs : List Char) : Bool :=
  match cs.dropWhile isCaseIgnorable with
  | c :: _ => isCased c
  | [] => false

/-- The lower case of characters, given those before them, the last one first. -/
def lowerAfter (before : List Char) : List Char → List Char
  | [] => []
  | c :: rest =>
    let lower :=
      if c == 'Σ' then [if meetsLetter before && !meetsLetter rest then 'ς' else 'σ']
      else if c == 'İ' then ['i', '\u0307']
      else [lowerChar c]
    lower ++ lowerAfter (c :: before) rest

def lowercase (s : String) : String := String.ofList (lowerAfter [] s.toList)

end RuleEngine.Text
