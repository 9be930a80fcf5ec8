/-
  RuleEngine/Yaml/Cursor.lean
  ===========================
  **Positions in a YAML text.**

  YAML gives meaning to columns, so the reader keeps, beside the text that is left,
  the line and column that it stands at, and the byte, as some lengths are limited.
  This file holds the character classes of the format, the ways a reading can fail,
  and the steps of a cursor: over characters of one line, over one line break, and
  over a run that mixes both.
-/
import RuleEngine.Text.Blank

namespace RuleEngine.Yaml

/-! ### Faults -/

inductive Fault where
  /-- A character that no text may hold. -/
  | control (c : Char)
  /-- No token starts like this. -/
  | unexpected (c : Char)
  /-- A quoted text or flow collection that the text ends in. -/
  | unterminated
  /-- A tab where only spaces count as indentation. -/
  | tab
  | badEscape
  | badDirective
  | badAnchor
  | badTag
  | badBlockHeader
  /-- A colon that ends a plain text inside a flow collection without a blank. -/
  | tightColon
  /-- A key that its line ends without a colon for. -/
  | missingColon
  /-- An entry, key or value where no new block may start. -/
  | misplaced
  /-- Tokens in an order that the grammar has no rule for. -/
  | structural
  | undefinedTag
  | unknownAnchor
  | moreThanOneDocument
  | duplicateKey
  /-- A value that its explicit tag does not fit. -/
  | wrongTag
  /-- An integer that needs more than 64 bits. -/
  | wideInteger
  | tooDeep
  /-- Aliases that repeat too much of the document. -/
  | tooManyAliases
deriving DecidableEq, Repr

/-! ### Characters -/

def isBreak (c : Char) : Bool :=
  c == '\n' || c == '\r' || c == '\x85' || c == '\u2028' || c == '\u2029'

def isSpace (c : Char) : Bool := c == ' ' || c == '\t'

/-- The end of the text, a line break, a space or a tab. -/
def endsWord : Option Char → Bool
  | none => true
  | some c => isSpace c || isBreak c

def endsLine : Option Char → Bool
  | none => true
  | some c => isBreak c

def isWordChar (c : Char) : Bool := c.isAlphanum || c == '_' || c == '-'

/-- The characters that a text may hold: all but the controls (tab, line feed,
    carriage return and next line are allowed) and two code points that stand for
    no character. -/
def isAllowed (c : Char) : Bool :=
  let n := c.toNat
  n == 0x09 || n == 0x0A || n == 0x0D || (0x20 ≤ n && n ≤ 0x7E) || n == 0x85 ||
    (0xA0 ≤ n && n ≤ 0xD7FF) || (0xE000 ≤ n && n ≤ 0xFFFD) || 0x10000 ≤ n

/-- The character that a line break is kept as: a line feed, save for the two
    separators of Unicode, which stay. -/
def keptBreak (c : Char) : Char :=
  if c == '\u2028' || c == '\u2029' then c else '\n'

/-! ### The cursor -/

/-- A place in a text: what is left of it, and where that starts. -/
structure Cursor where
  rest : List Char
  line : Nat := 0
  column : Nat := 0
  /-- The number of bytes before it. -/
  index : Nat := 0
deriving DecidableEq, Repr

namespace Cursor

def next? (c : Cursor) : Option Char := c.rest.head?

def at? (c : Cursor) (n : Nat) : Option Char := c.rest[n]?

/-- Over characters of the line. -/
def advance (c : Cursor) (count : Nat) : Cursor :=
  { c with
    rest := c.rest.drop count
    column := c.column + count
    index := c.index + Text.utf8Length (c.rest.take count) }

/-- Over the characters of the line for which a test holds. -/
def advanceWhile (c : Cursor) (test : Char → Bool) : List Char × Cursor :=
  let run := c.rest.takeWhile test
  (run, c.advance run.length)

/-- Over a line break, kept as one character; none where no line break stands.  A
    carriage return takes the line feed after it along. -/
def lineBreak? (c : Cursor) : Option (Char × Cursor) :=
  match c.rest with
  | '\r' :: '\n' :: rest =>
    some ('\n', { rest, line := c.line + 1, column := 0, index := c.index + 2 })
  | b :: rest =>
    if isBreak b then
      some (keptBreak b,
        { rest, line := c.line + 1, column := 0, index := c.index + b.utf8Size })
    else none
  | [] => none

/-- The line and column after a run of characters that starts at a line and column. -/
def after : List Char → Nat → Nat → Nat × Nat
  | [], line, column => (line, column)
  | '\r' :: '\n' :: rest, line, _ => after rest (line + 1) 0
  | c :: rest, line, column =>
    if isBreak c then after rest (line + 1) 0 else after rest line (column + 1)

/-- Over the blanks and line breaks ahead. -/
def overSpace (c : Cursor) : List Char × Cursor :=
  let run := c.rest.takeWhile fun x => isSpace x || isBreak x
  let (line, column) := after run c.line c.column
  (run, { rest := c.rest.drop run.length, line, column, index := c.index + Text.utf8Length run })

/-- Over the spaces and tabs ahead and a comment after them. -/
def overComment (c : Cursor) : Cursor :=
  let (_, c) := c.advanceWhile isSpace
  if c.next? == some '#' then (c.advanceWhile (!isBreak ·)).2 else c

/-- A document marker starts here: three dashes or three dots at the start of a
    line, with a blank or the end after them. -/
def atMarker (c : Cursor) (sign : Char) : Bool :=
  c.column == 0 && c.rest.take 3 == [sign, sign, sign] && endsWord (c.at? 3)

/-- A document marker of either kind starts here. -/
def atDocumentMarker (c : Cursor) : Bool := c.atMarker '-' || c.atMarker '.'

end Cursor

end RuleEngine.Yaml
