/-
  RuleEngine/Yaml/Written.lean
  ============================
  **Values as YAML text.**

  A value is written in block style: one line for each item or entry, nested ones
  two columns further right, and a list of a mapping at the column of its key.  A
  string is written without quotes where that reads back as the same string, in
  single quotes where it would read as something else, and in double quotes or as a
  literal block where its characters ask for it.
-/
import RuleEngine.Yaml.Resolve
import RuleEngine.Text.Quoted
import RuleEngine.Text.Utf8

namespace RuleEngine.Yaml

/-! ### The form of a string -/

inductive TextForm where
  | plain
  | single
  | double
  | literal
deriving DecidableEq, Repr

/-- A string that would not read back as itself without quotes. -/
def isAmbiguous (s : String) : Bool :=
  hasLeadingZero s.toList ||
    match plainValue s with
    | .ok (.string _) => false
    | _ => true

def isPrintable (c : Char) : Bool :=
  let n := c.toNat
  n == 0x0A || (0x20 ≤ n && n ≤ 0x7E) || (0xA0 ≤ n && n ≤ 0xD7FF) ||
    (0xE000 ≤ n && n ≤ 0xFFFD && n != 0xFEFF) || 0x10000 ≤ n

/-- Two neighbours in a list that satisfy a test each. -/
def hasPair (first second : Char → Bool) : List Char → Bool
  | a :: b :: rest => (first a && second b) || hasPair first second (b :: rest)
  | _ => false

def hasIndicator (cs : List Char) : Bool :=
  let dots := cs.take 3
  let starts := match cs with
    | [] => false
    | c :: rest => "#,[]\x7b\x7d&*!|>'\"%@\x60".toList.contains c ||
        ("?:-".toList.contains c && endsWord rest.head?)
  dots == "---".toList || dots == "...".toList || starts || cs.getLast? == some ':' ||
    hasPair (· == ':') (fun c => isSpace c || isBreak c) cs ||
    hasPair (fun c => isSpace c || isBreak c) (· == '#') cs

def allowsPlain (cs : List Char) : Bool :=
  cs.all isPrintable && !cs.any isBreak && cs.head? != some ' ' && cs.getLast? != some ' ' &&
    !hasIndicator cs

def allowsSingle (cs : List Char) : Bool :=
  cs.all isPrintable && !hasPair isBreak (· == ' ') cs && !hasPair (· == ' ') isBreak cs

def allowsLiteral (cs : List Char) : Bool :=
  cs.all isPrintable && !hasPair (· == ' ') isBreak cs && cs.getLast? != some ' '

/-- The form of a string, which may have to stand on the line of its colon. -/
def TextForm.of (simpleKey : Bool) (s : String) : TextForm :=
  let cs := s.toList
  if simpleKey && cs.any isBreak then double
  else if cs.contains '\n' then (if allowsLiteral cs then literal else double)
  else if !isAmbiguous s && allowsPlain cs then plain
  else if allowsSingle cs then single
  else double

/-! ### The text of a string -/

def doubleQuoted (c : Char) : String :=
  let hex (width n : Nat) : String :=
    let ds := (Nat.toDigits 16 n).map Char.toUpper
    String.ofList (List.replicate (width - ds.length) '0' ++ ds)
  if isPrintable c && !isBreak c && c != '"' && c != '\\' then String.singleton c
  else match c with
  | '\x00' => "\\0"
  | '\x07' => "\\a"
  | '\x08' => "\\b"
  | '\t' => "\\t"
  | '\n' => "\\n"
  | '\x0b' => "\\v"
  | '\x0c' => "\\f"
  | '\r' => "\\r"
  | '\x1b' => "\\e"
  | '"' => "\\\""
  | '\\' => "\\\\"
  | '\x85' => "\\N"
  | '\u2028' => "\\L"
  | '\u2029' => "\\P"
  | c =>
    let n := c.toNat
    if n ≤ 0xFF then "\\x" ++ hex 2 n
    else if n ≤ 0xFFFF then "\\u" ++ hex 4 n
    else "\\U" ++ hex 8 n

def literalHeader (cs : List Char) : String :=
  let indent := if cs.head?.any fun c => c == ' ' || isBreak c then "2" else ""
  let chomping :=
    match cs.reverse with
    | [] => "-"
    | last :: rest =>
      if !isBreak last then "-" else if rest.head?.all isBreak then "+" else ""
  "|" ++ indent ++ chomping

def spaces (n : Nat) : String := String.ofList (List.replicate n ' ')

/-- Characters over several lines: where a line is not empty, it starts at the column
    `indent`.  The first line starts here where `fresh` holds, and earlier else. -/
def indented (indent : Nat) : Bool → List Char → List Char
  | _, [] => []
  | fresh, c :: rest =>
    if isBreak c then c :: indented indent true rest
    else
      (if fresh then List.replicate indent ' ' else []) ++ c :: indented indent false rest

/-- The lines of a string, the first of which goes on with the line it stands on; lines
    after a break in single quotes or a literal block start at the column `indent`. -/
def textLines (form : TextForm) (indent : Nat) (s : String) : List String :=
  match form with
  | .plain => [s]
  | .single =>
    ["'" ++ String.ofList (indented indent false ((s.replace "'" "''").toList ++ ['\'']))]
  | .double => ["\"" ++ String.join (s.toList.map doubleQuoted) ++ "\""]
  | .literal =>
    [literalHeader s.toList, String.ofList (indented indent true s.toList)]

/-! ### Blocks -/

/-- Where a value is written: at the start of a text, after the dash of an item, after
    a key on one line with it, or after the sign of a key or value of its own line. -/
inductive Position where
  | root
  | item
  | ofKey
  | ownLine
deriving DecidableEq, Repr

def prefixed (text : String) : List String → List String
  | [] => [text]
  | first :: rest => (text ++ first) :: rest

/-- The name of a tag after the exclamation mark that it is written with; the mark that
    a name starts with serves as that. -/
def tagSuffix (name : String) : List Char :=
  match name.toList with
  | '!' :: rest => rest
  | cs => cs

/-- A byte of the name of a tag: letters, digits and some signs stand for themselves,
    all else is escaped. -/
def tagByte (b : UInt8) : List Char :=
  let c := Char.ofNat b.toNat
  if isWordChar c || ";/?:@&=+$,.~*'()[]".toList.contains c then [c]
  else
    let digit (n : Nat) : Char := (Text.hexDigit n).toUpper
    ['%', digit (b.toNat / 16), digit (b.toNat % 16)]

/-- A tag, in front of what it marks.  One with an empty name is written in full. -/
def tagText (name : String) : String :=
  let suffix := tagSuffix name
  if suffix.isEmpty then "!<%21>"
  else "!" ++ String.ofList ((Text.encodeUtf8 (String.ofList suffix)).flatMap tagByte)

def tagSize (name : String) : Nat := 1 + Text.utf8Length (tagSuffix name)

def Value.leafText? : Value → Option String
  | .null => some "null"
  | .bool b => some (if b then "true" else "false")
  | .number n => some n.text
  | _ => none

/-- The lines of a scalar or empty collection after its tag; none for the others. -/
def inlineLines? (simpleKey : Bool) (indent : Nat) : Value → Option (List String)
  | .string s => some (textLines (TextForm.of simpleKey s) indent s)
  | .sequence [] => some ["[]"]
  | .mapping [] => some ["\x7b\x7d"]
  | v => v.leafText?.map ([·])

/-- The text of a key that can stand on one line with its value: one of at most 128
    bytes without a line break, its tag included. -/
def simpleKey? (key : Value) : Option String :=
  let (tag?, content) := match key with
    | .tagged tag content => (some tag, content)
    | content => (none, content)
  let size := tag?.elim 0 tagSize + (match content with
    | .string s => s.utf8ByteSize
    | .sequence _ | .mapping _ => 0
    | leaf => (leaf.leafText?.getD "").utf8ByteSize)
  let broken := match content with
    | .string s => s.toList.any isBreak
    | _ => false
  if broken || 128 < size then none
  else (inlineLines? true 0 content).map fun lines =>
    tag?.elim "" (tagText · ++ " ") ++ String.join lines

/-- The column of a collection that is written at a position of a block. -/
def blockColumn (position : Position) (tagged isSequence : Bool) (indent : Nat) : Nat :=
  match position with
  | .root => 0
  | .item => indent + 2
  | .ofKey => if isSequence then indent else indent + 2
  | .ownLine => if isSequence && tagged then indent else indent + 2

def Position.lead (position : Position) : String := if position == .root then "" else " "

/-- Place the lines of a collection: its first line where the sign of a block at the
    column `indent` leaves room for it, else all on lines of their own. -/
def placed (position : Position) (tag? : Option String) (indent : Nat)
    (lines : List String) : List String :=
  match tag?, position, lines with
  | some tag, _, lines => (position.lead ++ tagText tag) :: lines
  | none, .ofKey, lines => "" :: lines
  | none, .root, lines => lines
  | none, _, first :: rest => String.ofList (first.toList.drop (indent + 1)) :: rest
  | none, _, [] => []

/-- Place the lines of a scalar or empty collection. -/
def placedInline (position : Position) (tag? : Option String) (lines : List String) :
    List String :=
  prefixed (position.lead ++ tag?.elim "" (tagText · ++ " ")) lines

mutual

/-- The lines of a value at a position of a block that starts at the column `indent`;
    the first goes on with the line of the sign before it. -/
def Value.lines (indent : Nat) (position : Position) (tag? : Option String) :
    Value → List String
  | .tagged tag content => content.lines indent position (some tag)
  | .sequence items =>
    if items.isEmpty then placedInline position tag? ["[]"]
    else
      placed position tag? indent
        (linesOfItems (blockColumn position tag?.isSome true indent) items)
  | .mapping entries =>
    if entries.isEmpty then placedInline position tag? ["\x7b\x7d"]
    else
      placed position tag? indent
        (linesOfEntries (blockColumn position tag?.isSome false indent) entries)
  | v =>
    placedInline position tag?
      ((inlineLines? false (if position == .root then 2 else indent + 2) v).getD [])

def linesOfItems (column : Nat) : List Value → List String
  | [] => []
  | v :: rest =>
    prefixed (spaces column ++ "-") (v.lines column .item none) ++ linesOfItems column rest

def linesOfEntries (column : Nat) : List (Value × Value) → List String
  | [] => []
  | e :: rest => linesOfEntry column e ++ linesOfEntries column rest

def linesOfEntry (column : Nat) : Value × Value → List String
  | (key, v) =>
    match simpleKey? key with
    | some text => prefixed (spaces column ++ text ++ ":") (v.lines column .ofKey none)
    | none =>
      prefixed (spaces column ++ "?") (key.lines column .ownLine none) ++
        prefixed (spaces column ++ ":") (v.lines column .ownLine none)

end

/-! ### Whole texts -/

/-- A value that takes the place of the entry it is the key of: a tagged one, or a
    mapping of one entry. -/
def Value.standsAlone : Value → Bool
  | .tagged .. => true
  | .mapping [_] => true
  | _ => false

mutual

/-- A value has a text.  A mapping of one entry without a tag of its own has none where
    the key stands alone. -/
def Value.writable (tagged : Bool) : Value → Bool
  | .tagged _ content => content.writable true
  | .sequence items => writableItems items
  | .mapping entries =>
    (tagged || entries.length != 1 || !entries.any (·.1.standsAlone)) && writableEntries entries
  | _ => true

def writableItems : List Value → Bool
  | [] => true
  | v :: rest => v.writable false && writableItems rest

def writableEntries : List (Value × Value) → Bool
  | [] => true
  | e :: rest => writableEntry e && writableEntries rest

def writableEntry : Value × Value → Bool
  | (k, v) => k.writable false && v.writable false

end

/-- A line with the break at its end; one that ends in a break has it already. -/
def ended (line : String) : String :=
  if line.toList.getLast?.any isBreak then line else line.push '\n'

/-- The text of a value; empty where it has none. -/
def Value.text (v : Value) : String :=
  if v.writable false then String.join ((v.lines 0 .root none).map ended) else ""

end RuleEngine.Yaml
