/-
  RuleEngine/Guest/Source.lean
  ============================
  **Guest modules as text.**

  A file of a guest module may hold it as text: an S-expression with comments.  Only
  the module without fields is understood here.  A text that is no module is shown
  with the place where that is clear: its path, the line and the column.
-/

namespace RuleEngine.Guest

/-! ### Blanks and comments -/

/-- A character between the words of a module. -/
def isGap (c : Char) : Bool := c == ' ' || c == '\n' || c == '\t' || c == '\r'

def isWordSign (c : Char) : Bool :=
  c.isAlphanum || "!#$%&'*+-./:<=>?@\\^_\x60|~".toList.contains c

/-- Pass over blanks and comments: a comment runs to the end of its line, or between
    brackets, which nest.  Gives the number of bytes passed over, counted on from
    `position`, and the characters left. -/
def nextWord (inLine : Bool) (depth position : Nat) : List Char → Nat × List Char
  | [] => (position, [])
  | '(' :: ';' :: rest =>
    if inLine then nextWord true depth (position + 2) rest
    else nextWord false (depth + 1) (position + 2) rest
  | ';' :: ')' :: rest =>
    if inLine then nextWord true depth (position + 2) rest
    else if depth = 0 then (position, ';' :: ')' :: rest)
    else nextWord false (depth - 1) (position + 2) rest
  | ';' :: ';' :: rest =>
    if depth = 0 then nextWord true 0 (position + 2) rest
    else nextWord false depth (position + 1) (';' :: rest)
  | c :: rest =>
    if inLine then nextWord (c != '\n') depth (position + c.utf8Size) rest
    else if depth = 0 && !isGap c then (position, c :: rest)
    else nextWord false depth (position + c.utf8Size) rest

/-! ### Modules -/

/-- Why a text is no module without fields, and at which byte. -/
structure SourceFault where
  message : String
  position : Nat
deriving DecidableEq, Repr

/-- The fault of a text that goes on after the word for a module. -/
def moduleFault? (position : Nat) (cs : List Char) : Option SourceFault :=
  let (position, cs) := nextWord false 0 position cs
  match cs with
  | ')' :: rest =>
    let (position, rest) := nextWord false 0 (position + 1) rest
    if rest.isEmpty then none else some ⟨"extra tokens remaining after parse", position⟩
  | _ => some ⟨"expected \x60)\x60", position⟩

/-- The fault of a text, unless it is the module without fields. -/
def sourceFault? (text : String) : Option SourceFault :=
  let (position, cs) := nextWord false 0 0 text.toList
  match cs with
  | [] => some ⟨"expected at least one module field", position⟩
  | '(' :: rest =>
    let (position, rest) := nextWord false 0 (position + 1) rest
    let word := rest.takeWhile isWordSign
    if word = "module".toList then moduleFault? (position + word.length) (rest.drop word.length)
    else some ⟨"expected valid module field", position⟩
  | _ => some ⟨"expected \x60(\x60", position⟩

/-! ### Showing faults -/

/-- The line and the column of a byte, both from zero, where the first of some lines
    starts at `start`. -/
def lineAndColumn (position start number : Nat) : List String → Nat × Nat
  | [] => (number, 0)
  | line :: rest =>
    let next := start + line.utf8ByteSize + 1
    if position < next then (number, position - start)
    else lineAndColumn position next (number + 1) rest

/-- The lines of a text; the end of the last one may be missing. -/
def linesOf (text : String) : List String :=
  let lines := text.splitOn "\n"
  if lines.getLast? == some "" then lines.dropLast else lines

/-- A line as it is shown: tabs are widened. -/
def shownLine (line : String) : String :=
  let cs := if line.endsWith "\r" then line.toList.dropLast else line.toList
  String.ofList (cs.flatMap fun c => if c == '\t' then [' ', ' ', ' ', ' '] else [c])

/-- A text to the right of a column of some width. -/
def rightOf (width : Nat) (text : String) : String :=
  String.ofList (List.replicate (width - text.length) ' ') ++ text

def SourceFault.shown (fault : SourceFault) (path text : String) : String :=
  let lines := linesOf text
  let (line, column) := lineAndColumn fault.position 0 0 lines
  let place := s!"     --> {path}:{line + 1}:{column + 1}"
  let source := " " ++ rightOf 4 (toString (line + 1)) ++ " | " ++ shownLine (lines.getD line "")
  let marker := "      | " ++ rightOf (column + 1) "^"
  "\n".intercalate [fault.message, place, "      |", source, marker]

end RuleEngine.Guest
