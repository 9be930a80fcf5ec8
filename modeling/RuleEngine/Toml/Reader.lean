/-
  RuleEngine/Toml/Reader.lean
  ===========================
  **TOML documents.**

  A document is a list of lines: keys with values, headers of tables, and comments.
  Arrays may run over several lines, inline tables may not.  Nesting is limited to
  79 collections and 79 parts of a key.
-/
import RuleEngine.Toml.Scalar
import RuleEngine.Toml.Table

namespace RuleEngine.Toml

/-! ### Blanks and comments -/

def afterComment (cs : List Char) : List Char :=
  if cs.head? == some '#' then cs.dropWhile isTextChar else cs

def afterSpace (cs : List Char) : List Char := cs.dropWhile isSpace

/-- The characters after the end of a line, with the spaces and the comment before it. -/
def afterLine (cs : List Char) : Except Fault (List Char) :=
  let rest := afterComment (afterSpace cs)
  if rest.isEmpty then .ok [] else
    match lineBreak? rest with
    | some rest => .ok rest
    | none => .error .malformed

/-- The characters after blanks, comments and line breaks. -/
def afterGap : Nat → List Char → Except Fault (List Char)
  | 0, cs => .ok cs
  | bound + 1, cs =>
    let rest := afterSpace cs
    match rest with
    | '#' :: _ | '\n' :: _ | '\r' :: _ =>
      match lineBreak? (afterComment rest) with
      | some rest => afterGap bound rest
      | none => .error .malformed
    | rest => .ok rest

def expect (c : Char) (cs : List Char) : Except Fault (List Char) :=
  match cs with
  | d :: rest => if d == c then .ok rest else .error .malformed
  | [] => .error .unterminated

/-! ### Keys -/

def isBareChar (c : Char) : Bool := c.isAlphanum || c == '_' || c == '-'

def readKeyPart (cs : List Char) : Except Fault (String × List Char) :=
  match cs.head? with
  | some '"' | some '\'' => readString false cs
  | _ =>
    let bare := cs.takeWhile isBareChar
    if bare.isEmpty then .error .malformed
    else .ok (String.ofList bare, cs.drop bare.length)

/-- The parts of a key, with blanks around them and dots between them. -/
def readKeyParts : Nat → List Char → Except Fault (List String × List Char)
  | 0, _ => .error .tooDeep
  | bound + 1, cs => do
    let (part, rest) ← readKeyPart (afterSpace cs)
    match afterSpace rest with
    | '.' :: rest =>
      let (parts, rest) ← readKeyParts bound rest
      return (part :: parts, rest)
    | rest => return ([part], rest)

/-- How many collections nest, and of how many parts a key has. -/
def nestingLimit : Nat := 79

/-- A key: the path to its table, its last part, and the characters after it. -/
def readKey (cs : List Char) : Except Fault ((List String × String) × List Char) := do
  let (parts, rest) ← readKeyParts nestingLimit cs
  match parts.getLast? with
  | some key => return ((parts.dropLast, key), rest)
  | none => throw .malformed

/-! ### Values -/

def readNumber (cs : List Char) : Except Fault (Value × List Char) :=
  match dateTime? .plain cs, float? cs, floatWord? cs with
  | some (d, rest), _, _ => .ok (.dateTime d, rest)
  | none, some step, _ => step.map fun (x, rest) => (.float x, rest)
  | none, none, some (x, rest) => .ok (.float x, rest)
  | none, none, none => (readInteger cs).map fun (i, rest) => (.integer i, rest)

def readWord (cs : List Char) : Except Fault (Value × List Char) :=
  if cs.take 4 == "true".toList then .ok (.boolean true, cs.drop 4)
  else if cs.take 5 == "false".toList then .ok (.boolean false, cs.drop 5)
  else
    match floatWord? cs with
    | some (x, rest) => .ok (.float x, rest)
    | none => .error .malformed

mutual

/-- The value that some characters start with, where `depth` collections may nest. -/
def readValue (depth : Nat) : Nat → List Char → Except Fault (Value × List Char)
  | 0, _ => .error .unterminated
  | bound + 1, cs =>
    match cs with
    | [] => .error .unterminated
    | c :: rest =>
      if c == '"' || c == '\'' then
        (readString true cs).map fun (s, rest) => (.string s, rest)
      else if c == '[' then
        if depth = 0 then .error .tooDeep
        else (readItems (depth - 1) true bound rest).map fun (items, rest) => (.array items, rest)
      else if c == '\x7b' then
        if depth = 0 then .error .tooDeep
        else (readInline (depth - 1) true [] bound rest).map fun (entries, rest) =>
          (.table (finishedEntries entries), rest)
      else if c.isDigit || c == '+' || c == '-' then readNumber cs
      else readWord cs

/-- The items of an array and its closing bracket. -/
def readItems (depth : Nat) (first : Bool) :
    Nat → List Char → Except Fault (List Value × List Char)
  | 0, _ => .error .unterminated
  | bound + 1, cs => do
    let rest ← afterGap (cs.length + 1) cs
    if rest.head? == some ']' then return ([], rest.drop 1)
    let rest ← if first then pure rest else do afterGap (cs.length + 1) (← expect ',' rest)
    if !first && rest.head? == some ']' then return ([], rest.drop 1)
    let (v, rest) ← readValue depth bound rest
    let (items, rest) ← readItems depth false bound rest
    return (v :: items, rest)

/-- The entries of an inline table, after those read already, and its closing brace. -/
def readInline (depth : Nat) (first : Bool) (entries : Entries) :
    Nat → List Char → Except Fault (Entries × List Char)
  | 0, _ => .error .unterminated
  | bound + 1, cs => do
    let rest := afterSpace cs
    if rest.head? == some '\x7d' then return (entries, rest.drop 1)
    let rest ← if first then pure rest else expect ',' rest
    let ((path, key), rest) ← readKey rest
    let rest ← expect '=' rest
    let (v, rest) ← readValue depth bound (afterSpace rest)
    readInline depth false (← addValue path key v entries) bound rest

end

/-! ### Documents -/

/-- The header that some characters start with, after its first bracket. -/
def readHeader (d : Draft) (cs : List Char) : Except Fault (Draft × List Char) := do
  if cs.head? == some '[' then
    let ((path, key), rest) ← readKey (cs.drop 1)
    let rest ← afterLine (← expect ']' (← expect ']' rest))
    return (← d.openRepeated path key, rest)
  let ((path, key), rest) ← readKey cs
  let rest ← afterLine (← expect ']' rest)
  return (← d.openTable path key, rest)

def readEntry (d : Draft) (cs : List Char) : Except Fault (Draft × List Char) := do
  let ((path, key), rest) ← readKey cs
  let rest ← expect '=' rest
  let (v, rest) ← readValue nestingLimit (2 * rest.length + 2) (afterSpace rest)
  let rest ← afterLine rest
  return (← d.add path key v, rest)

def readLines : Nat → Draft → List Char → Except Fault Draft
  | 0, d, _ => .ok d
  | bound + 1, d, cs =>
    match afterSpace cs with
    | [] => .ok d
    | c :: rest => do
      let (d, rest) ←
        if c == '#' || c == '\n' || c == '\r' then do pure (d, ← afterLine (c :: rest))
        else if c == '[' then readHeader d rest
        else readEntry d (c :: rest)
      readLines bound d rest

/-- The table that a text is; a byte order mark at its start is passed over. -/
def Value.read (text : String) : Except Fault Value := do
  let cs := match text.toList with
    | '\uFEFF' :: rest => rest
    | cs => cs
  (← readLines (cs.length + 1) {} cs).finish

end RuleEngine.Toml
