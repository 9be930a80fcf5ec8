/-
  RuleEngine/Yaml/Tag.lean
  ========================
  **Tags and the stems that shorten them.**

  A tag names the type of a node.  It is written in full between angle brackets, or
  as a handle and a suffix; a directive says which stem a handle stands for.  Tags
  are resource identifiers, so they are kept as bytes, with their escapes resolved.
-/
import RuleEngine.Yaml.Quoted
import RuleEngine.Text.Utf8

namespace RuleEngine.Yaml

/-! ### Identifiers -/

/-- A character that an identifier may hold; inside angle brackets, and as the stem
    of a directive, commas and square brackets count as well. -/
def isTagChar (wide : Bool) (c : Char) : Bool :=
  isWordChar c || ";/?:@&=+$.%!~*'()".toList.contains c || (wide && ",[]".toList.contains c)

def escapedByte? : List Char → Option UInt8
  | '%' :: a :: b :: _ => do return UInt8.ofNat ((← Text.hexValue? a) * 16 + (← Text.hexValue? b))
  | _ => none

/-- The number of bytes that the character takes that a byte leads. -/
def sequenceLength? (lead : UInt8) : Option Nat :=
  if lead < 0x80 then some 1
  else if 0xC0 ≤ lead && lead < 0xE0 then some 2
  else if 0xE0 ≤ lead && lead < 0xF0 then some 3
  else if 0xF0 ≤ lead && lead < 0xF8 then some 4
  else none

/-- The bytes that go on with a character in percent escapes. -/
def escapedTail : Nat → List Char → Except Fault (List UInt8)
  | 0, _ => .ok []
  | count + 1, cs =>
    match escapedByte? cs with
    | some b =>
      if Text.isContinuation b then return b :: (← escapedTail count (cs.drop 3))
      else .error .badTag
    | none => .error .badTag

/-- The bytes of the character whose percent escapes some characters start with. -/
def escapedCharacter (cs : List Char) : Except Fault (List UInt8) :=
  match escapedByte? cs with
  | none => .error .badTag
  | some lead =>
    match sequenceLength? lead with
    | none => .error .badTag
    | some n => return lead :: (← escapedTail (n - 1) (cs.drop 3))

/-- The bytes of the identifier that some characters start with, and how many
    characters it takes; `skip` characters belong to an escape. -/
def identifier (wide : Bool) : Nat → List Char → Except Fault (List UInt8 × Nat)
  | _, [] => .ok ([], 0)
  | skip + 1, _ :: rest => do
    let (bytes, taken) ← identifier wide skip rest
    return (bytes, taken + 1)
  | 0, c :: rest =>
    if !isTagChar wide c then .ok ([], 0)
    else if c == '%' then do
      let escaped ← escapedCharacter (c :: rest)
      let (bytes, taken) ← identifier wide (3 * escaped.length - 1) rest
      return (escaped ++ bytes, taken + 1)
    else do
      let (bytes, taken) ← identifier wide 0 rest
      return (Text.encodeUtf8 (String.singleton c) ++ bytes, taken + 1)

/-- The identifier that starts here, up to its first zero byte; there has to be one
    unless `optional` holds. -/
def readIdentifier (wide optional : Bool) (c : Cursor) :
    Except Fault (List UInt8 × Cursor) := do
  let (bytes, taken) ← identifier wide 0 c.rest
  if taken == 0 && !optional then throw .badTag
  return (bytes.takeWhile (· != 0), c.advance taken)

/-! ### Handles and tags -/

/-- The handle that starts here: an exclamation mark, word characters, and a second
    mark if one follows. -/
def readHandle (c : Cursor) : Except Fault (List Char × Cursor) :=
  if c.next? != some '!' then .error .badTag
  else
    let (word, c) := (c.advance 1).advanceWhile isWordChar
    if c.next? == some '!' then .ok ('!' :: word ++ ['!'], c.advance 1) else .ok ('!' :: word, c)

/-- A handle with two marks, as opposed to the start of a suffix. -/
def isNamedHandle (handle : List Char) : Bool :=
  handle.length ≥ 2 && handle.getLast? == some '!'

/-- A tag as it is written: its handle, empty for a tag in full, and its suffix. -/
structure TagName where
  handle : List Char
  suffix : List UInt8
deriving DecidableEq, Repr

def readTag (flow : Bool) (c : Cursor) : Except Fault (TagName × Cursor) := do
  let (tag, c) ←
    if c.at? 1 == some '<' then do
      let (suffix, c) ← readIdentifier true false (c.advance 2)
      if c.next? != some '>' then throw .badTag
      pure (TagName.mk [] suffix, c.advance 1)
    else do
      let (handle, c) ← readHandle c
      if isNamedHandle handle then
        let (suffix, c) ← readIdentifier false false c
        pure (TagName.mk handle suffix, c)
      else
        let (suffix, c) ← readIdentifier false true c
        let suffix := (Text.encodeUtf8 (String.ofList handle.tail)) ++ suffix
        pure (if suffix.isEmpty then TagName.mk [] [0x21] else TagName.mk ['!'] suffix, c)
  if !(endsWord c.next? || (flow && c.next? == some ',')) then throw .badTag
  return (tag, c)

/-! ### Stems -/

/-- The stems that handles stand for. -/
abbrev TagStems := List (List Char × List UInt8)

/-- The stems that every document has: a single mark stands for itself, two marks
    for the types of the format. -/
def defaultStems : TagStems :=
  [(['!'], [0x21]), (['!', '!'], Text.encodeUtf8 "tag:yaml.org,2002:")]

/-- The tag in full that a written tag is. -/
def TagName.resolve (stems : TagStems) (t : TagName) : Except Fault (List UInt8) :=
  if t.handle.isEmpty then .ok t.suffix
  else
    match (stems ++ defaultStems).lookup t.handle with
    | some stem => .ok (stem ++ t.suffix)
    | none => .error .undefinedTag

end RuleEngine.Yaml
