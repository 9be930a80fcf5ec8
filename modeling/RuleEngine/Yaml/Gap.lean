/-
  RuleEngine/Yaml/Gap.lean
  ========================
  **Gaps between the words of a text.**

  Plain and quoted texts may run over several lines.  What stands between two of
  their words is a gap: blanks alone are kept as they are, a single line break
  becomes a space, and of several line breaks all but the first are kept.
-/
import RuleEngine.Yaml.Cursor

namespace RuleEngine.Yaml

/-- A gap: the blanks before its first line break, and its line breaks. -/
structure Gap where
  blanks : List Char := []
  breaks : List Char := []
deriving DecidableEq, Repr

namespace Gap

def breaksOf : List Char → List Char
  | [] => []
  | '\r' :: '\n' :: rest => '\n' :: breaksOf rest
  | c :: rest => if isBreak c then keptBreak c :: breaksOf rest else breaksOf rest

def ofRun (run : List Char) : Gap := ⟨run.takeWhile isSpace, breaksOf run⟩

/-- The characters that a gap is read as. -/
def joined (g : Gap) : List Char :=
  match g.breaks with
  | [] => g.blanks
  | first :: more =>
    if first == '\n' then (if more.isEmpty then [' '] else more) else first :: more

/-- A gap without line breaks is read as it stands. -/
theorem joined_of_breaks_nil {g : Gap} (h : g.breaks = []) : g.joined = g.blanks := by
  simp [joined, h]

end Gap

/-- A tab stands left of a column in one of the lines that a run of blanks and line
    breaks starts; the line that it continues is not looked at. -/
def tabLeftOf (indent : Nat) : Option Nat → List Char → Bool
  | _, [] => false
  | _, '\r' :: '\n' :: rest => tabLeftOf indent (some 0) rest
  | none, c :: rest => tabLeftOf indent (if isBreak c then some 0 else none) rest
  | some column, c :: rest =>
    if isBreak c then tabLeftOf indent (some 0) rest
    else (c == '\t' && column < indent) || tabLeftOf indent (some (column + 1)) rest

end RuleEngine.Yaml
