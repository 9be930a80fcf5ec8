/-
  RuleEngine/Yaml/Quoted.lean
  ===========================
  **Quoted texts.**

  A text in single quotes holds every character as it stands; a quote inside is
  written twice.  A text in double quotes has escapes, among them one that removes
  a line break.  Both fold the line breaks that they run over.
-/
import RuleEngine.Yaml.Gap
import RuleEngine.Text.Hex

namespace RuleEngine.Yaml

/-! ### Escapes -/

def shortEscape? : Char → Option Char
  | '0' => some '\x00'
  | 'a' => some '\x07'
  | 'b' => some '\x08'
  | 't' => some '\t'
  | '\t' => some '\t'
  | 'n' => some '\n'
  | 'v' => some '\x0b'
  | 'f' => some '\x0c'
  | 'r' => some '\r'
  | 'e' => some '\x1b'
  | ' ' => some ' '
  | '"' => some '"'
  | '/' => some '/'
  | '\\' => some '\\'
  | 'N' => some '\x85'
  | '_' => some '\xa0'
  | 'L' => some '\u2028'
  | 'P' => some '\u2029'
  | _ => none

def escapeDigits? : Char → Option Nat
  | 'x' => some 2
  | 'u' => some 4
  | 'U' => some 8
  | _ => none

/-- The character that an escape stands for, from what follows its backslash, and
    how many characters follow it. -/
def escape? : List Char → Option (Char × Nat)
  | [] => none
  | letter :: rest =>
    match shortEscape? letter, escapeDigits? letter with
    | some c, _ => some (c, 1)
    | none, some n =>
      if (rest.take n).length = n then
        ((Text.hexNumber? (rest.take n)).bind Text.charOf?).map (·, 1 + n)
      else none
    | none, none => none

/-! ### Words -/

inductive WordEnd where
  /-- A blank, a line break, the end of the text or the closing quote. -/
  | seen
  /-- A backslash before a line break, which it removes. -/
  | escapedBreak
deriving DecidableEq, Repr

/-- The word of a text in single quotes that some characters start with, and how
    many characters it takes. -/
def singleWord : List Char → List Char × Nat
  | [] => ([], 0)
  | '\'' :: '\'' :: rest => let (w, n) := singleWord rest; ('\'' :: w, n + 2)
  | '\'' :: _ => ([], 0)
  | c :: rest =>
    if isSpace c || isBreak c then ([], 0) else let (w, n) := singleWord rest; (c :: w, n + 1)

/-- The word of a text in double quotes that some characters start with, how many
    characters it takes, and how it ends; `skip` characters belong to an escape. -/
def doubleWord : Nat → List Char → Except Fault (List Char × Nat × WordEnd)
  | _, [] => .ok ([], 0, .seen)
  | skip + 1, _ :: rest => doubleWord skip rest
  | 0, c :: rest =>
    if c == '"' || isSpace c || isBreak c then .ok ([], 0, .seen)
    else if c == '\\' then
      if rest.head?.any isBreak then .ok ([], 1, .escapedBreak)
      else
        match escape? rest with
        | none => .error .badEscape
        | some (x, n) => do
          let (word, taken, stop) ← doubleWord n rest
          return (x :: word, taken + 1 + n, stop)
    else do
      let (word, taken, stop) ← doubleWord 0 rest
      return (c :: word, taken + 1, stop)

/-! ### Texts -/

def quotedFrom (single : Bool) :
    Nat → List Char → Cursor → Except Fault (List Char × Cursor)
  | 0, _, _ => .error .unterminated
  | bound + 1, text, c =>
    if c.atDocumentMarker || c.rest.isEmpty then .error .unterminated
    else do
      let (word, taken, stop) ←
        if single then pure ((singleWord c.rest).1, (singleWord c.rest).2, WordEnd.seen)
        else doubleWord 0 c.rest
      let text := text ++ word
      let c := c.advance taken
      match stop with
      | .escapedBreak =>
        let (run, c) := c.overSpace
        quotedFrom single bound (text ++ (Gap.breaksOf run).tail) c
      | .seen =>
        if c.next? == some (if single then '\'' else '"') then return (text, c.advance 1)
        let (run, c) := c.overSpace
        quotedFrom single bound (text ++ (Gap.ofRun run).joined) c

/-- The quoted text whose opening quote was read. -/
def readQuoted (single : Bool) (c : Cursor) : Except Fault (List Char × Cursor) :=
  quotedFrom single (c.rest.length + 1) [] c

end RuleEngine.Yaml
