/-
  RuleEngine/Yaml/Scan.lean
  =========================
  **From text to tokens.**

  Whether a text is a key shows only at the colon after it.  So the places where a
  key may have started are remembered, one for each open flow collection and one for
  the blocks around them; a colon inserts the key token there, and in a block the
  start of the mapping before it.  A remembered place is good for one line and 1024
  characters.
-/
import RuleEngine.Yaml.Token
import RuleEngine.Yaml.Plain
import RuleEngine.Yaml.Block

namespace RuleEngine.Yaml

/-! ### The state -/

/-- A place where a key may have started. -/
structure KeyPlace where
  /-- The number of tokens before it. -/
  tokens : Nat
  /-- Where it stands. -/
  line : Nat
  column : Nat
  index : Nat
  /-- The line is no entry of its block unless a key starts there. -/
  required : Bool
deriving DecidableEq, Repr

structure Scan where
  cursor : Cursor
  tokens : Array Token := #[]
  /-- The columns of the open blocks, the innermost first. -/
  blocks : List Nat := []
  /-- The place of a possible key in the innermost collection. -/
  key? : Option KeyPlace := none
  /-- The same for the collections around it; as many as flow collections are open. -/
  outerKeys : List (Option KeyPlace) := []
  /-- A key may start at the next token. -/
  keyAllowed : Bool := true

namespace Scan

def inFlow (s : Scan) : Bool := !s.outerKeys.isEmpty

/-- The column of the innermost block. -/
def block? (s : Scan) : Option Nat := s.blocks.head?

/-- The column that the lines of a text inside the innermost block start at. -/
def inner (s : Scan) : Nat := s.block?.elim 0 (· + 1)

def push (s : Scan) (t : Token) : Scan := { s with tokens := s.tokens.push t }

def take (s : Scan) (count : Nat) (t : Token) : Scan :=
  { s with tokens := s.tokens.push t, cursor := s.cursor.advance count }

/-! ### Blanks -/

/-- Over blanks, comments and line breaks to the next token.  A tab is a blank only
    where no key may start, as it says nothing about indentation. -/
def overBlanks : Nat → Scan → Scan
  | 0, s => s
  | bound + 1, s =>
    let c := s.cursor
    let c := if c.column == 0 && c.next? == some '\uFEFF' then c.advance 1 else c
    let (_, c) := c.advanceWhile fun x => x == ' ' || (x == '\t' && (s.inFlow || !s.keyAllowed))
    let c := if c.next? == some '#' then (c.advanceWhile (!isBreak ·)).2 else c
    match c.lineBreak? with
    | some (_, c) =>
      overBlanks bound { s with cursor := c, keyAllowed := s.keyAllowed || !s.inFlow }
    | none => { s with cursor := c }

/-! ### Possible keys -/

/-- A remembered place that is too far back to start a key. -/
def isStale (s : Scan) (k : KeyPlace) : Bool :=
  k.line < s.cursor.line || k.index + 1024 < s.cursor.index

/-- A place after those too far back are forgotten; a required one must not be. -/
def fresh (s : Scan) : Option KeyPlace → Except Fault (Option KeyPlace)
  | none => .ok none
  | some k =>
    if !s.isStale k then .ok (some k) else if k.required then .error .missingColon else .ok none

/-- Forget the places that are too far back. -/
def forgetStale (s : Scan) : Except Fault Scan := do
  return { s with key? := ← s.fresh s.key?, outerKeys := ← s.outerKeys.mapM s.fresh }

def dropKey (s : Scan) : Except Fault Scan :=
  if s.key?.any (·.required) then .error .missingColon else .ok { s with key? := none }

/-- Remember this place if a key may start here. -/
def markKey (s : Scan) : Except Fault Scan :=
  if !s.keyAllowed then .ok s
  else do
    let required := !s.inFlow && s.block? == some s.cursor.column
    let s ← s.dropKey
    return { s with key? := some {
      tokens := s.tokens.size, line := s.cursor.line, column := s.cursor.column,
      index := s.cursor.index, required } }

/-! ### Blocks -/

/-- Open a block at a column right of the innermost one, its token after the first
    `place` tokens. -/
def openBlock (s : Scan) (column place : Nat) (t : Token) : Scan :=
  if s.inFlow || s.block?.any (column ≤ ·) then s
  else { s with blocks := column :: s.blocks, tokens := s.tokens.insertIdxIfInBounds place t }

/-- Close the blocks right of a column, or all where there is none. -/
def closeBlocks (s : Scan) (column? : Option Nat) : Scan :=
  if s.inFlow then s
  else
    let closed := s.blocks.takeWhile fun b => column?.all (· < b)
    { s with
      blocks := s.blocks.drop closed.length
      tokens := s.tokens ++ (closed.map fun _ => Token.blockEnd).toArray }

/-! ### Single tokens -/

/-- Close all blocks, as before a document marker or directive. -/
def closeAll (s : Scan) : Except Fault Scan := do
  let s ← (s.closeBlocks none).dropKey
  return { s with keyAllowed := false }

def readVersionNumber (c : Cursor) : Except Fault (Nat × Cursor) :=
  let (digits, c) := c.advanceWhile Char.isDigit
  if digits.isEmpty || 9 < digits.length then .error .badDirective
  else .ok (digits.foldl (fun n d => n * 10 + (d.toNat - 0x30)) 0, c)

def readDirective (c : Cursor) : Except Fault (Token × Cursor) := do
  let (name, c) := (c.advance 1).advanceWhile isWordChar
  if name.isEmpty || !endsWord c.next? then throw .badDirective
  let (token, c) ←
    if name == "YAML".toList then do
      let (major, c) ← readVersionNumber (c.advanceWhile isSpace).2
      if c.next? != some '.' then throw .badDirective
      let (minor, c) ← readVersionNumber (c.advance 1)
      pure (Token.version major minor, c)
    else if name == "TAG".toList then do
      let (handle, c) ← readHandle (c.advanceWhile isSpace).2
      if !(handle == ['!'] || isNamedHandle handle) then throw .badDirective
      if !c.next?.any isSpace then throw .badDirective
      let (stem, c) ← readIdentifier true false (c.advanceWhile isSpace).2
      if !endsWord c.next? then throw .badDirective
      pure (Token.stem handle stem, c)
    else throw .badDirective
  let c := c.overComment
  if !endsLine c.next? then throw .badDirective
  return (token, (c.lineBreak?.map Prod.snd).getD c)

def readAnchorName (c : Cursor) : Except Fault (List Char × Cursor) :=
  let (name, c) := c.advanceWhile isWordChar
  if name.isEmpty then .error .badAnchor
  else if endsWord c.next? || c.next?.any ("?:,]\x7d%@\x60".toList.contains ·) then .ok (name, c)
  else .error .badAnchor

def openFlow (s : Scan) (t : Token) : Except Fault Scan := do
  let s ← s.markKey
  return { s.take 1 t with key? := none, outerKeys := s.key? :: s.outerKeys, keyAllowed := true }

/-- The end of a flow collection; one that none started is left to the grammar. -/
def closeFlow (s : Scan) (t : Token) : Except Fault Scan := do
  let s ← s.dropKey
  let s := { s.take 1 t with keyAllowed := false }
  match s.outerKeys with
  | key? :: outerKeys => return { s with key?, outerKeys }
  | [] => return s

def comma (s : Scan) : Except Fault Scan := do
  return { (← s.dropKey).take 1 .comma with keyAllowed := true }

def dash (s : Scan) : Except Fault Scan := do
  if !s.inFlow && !s.keyAllowed then throw .misplaced
  let s ← (s.openBlock s.cursor.column s.tokens.size .blockSequence).dropKey
  return { s.take 1 .dash with keyAllowed := true }

def questionMark (s : Scan) : Except Fault Scan := do
  if !s.inFlow && !s.keyAllowed then throw .misplaced
  let s ← (s.openBlock s.cursor.column s.tokens.size .blockMapping).dropKey
  return { s.take 1 .key with keyAllowed := !s.inFlow }

def colon (s : Scan) : Except Fault Scan :=
  match s.key? with
  | some k =>
    let s := { s with tokens := s.tokens.insertIdxIfInBounds k.tokens .key }
    let s := s.openBlock k.column k.tokens .blockMapping
    .ok { s.take 1 .value with key? := none, keyAllowed := false }
  | none =>
    if !s.inFlow && !s.keyAllowed then .error .misplaced
    else
      let s := s.openBlock s.cursor.column s.tokens.size .blockMapping
      .ok { s.take 1 .value with keyAllowed := !s.inFlow }

/-- A token that may be a key, read by a reader for it. -/
def keyed (s : Scan) (read : Cursor → Except Fault (Token × Cursor)) : Except Fault Scan := do
  let s ← s.markKey
  let (t, c) ← read s.cursor
  return { s with tokens := s.tokens.push t, cursor := c, keyAllowed := false }

def plain (s : Scan) : Except Fault Scan := do
  let s ← s.markKey
  let p ← readPlain s.inFlow s.inner s.cursor
  return { s with
    tokens := s.tokens.push (.scalar true p.text), cursor := p.cursor, keyAllowed := p.endedLine }

def blockText (s : Scan) (literal : Bool) : Except Fault Scan := do
  let s ← s.dropKey
  let (text, c) ← readBlock literal s.block? (s.cursor.advance 1)
  return { s with tokens := s.tokens.push (.scalar false text), cursor := c, keyAllowed := true }

/-- A character that no plain text starts with. -/
def isIndicator (c : Char) : Bool := "-?:,[]\x7b\x7d#&*!|>'\"%@\x60".toList.contains c

def token (s : Scan) (first : Char) : Except Fault Scan :=
  let second? := s.cursor.at? 1
  let quoted (single : Bool) (c : Cursor) : Except Fault (Token × Cursor) := do
    let (text, c) ← readQuoted single (c.advance 1)
    return (.scalar false text, c)
  if s.cursor.column == 0 && first == '%' then do
    let s ← s.closeAll
    let (t, c) ← readDirective s.cursor
    return { s with tokens := s.tokens.push t, cursor := c }
  else if s.cursor.atMarker '-' then return (← s.closeAll).take 3 .documentStart
  else if s.cursor.atMarker '.' then return (← s.closeAll).take 3 .documentEnd
  else if first == '[' then s.openFlow .openBracket
  else if first == '\x7b' then s.openFlow .openBrace
  else if first == ']' then s.closeFlow .closeBracket
  else if first == '\x7d' then s.closeFlow .closeBrace
  else if first == ',' then s.comma
  else if first == '-' && endsWord second? then s.dash
  else if first == '?' && (s.inFlow || endsWord second?) then s.questionMark
  else if first == ':' && (s.inFlow || endsWord second?) then s.colon
  else if first == '*' then s.keyed fun c => do
    let (name, c) ← readAnchorName (c.advance 1)
    return (.alias name, c)
  else if first == '&' then s.keyed fun c => do
    let (name, c) ← readAnchorName (c.advance 1)
    return (.anchor name, c)
  else if first == '!' then s.keyed fun c => do
    let (name, c) ← readTag s.inFlow c
    return (.tag name, c)
  else if first == '|' && !s.inFlow then s.blockText true
  else if first == '>' && !s.inFlow then s.blockText false
  else if first == '\'' then s.keyed (quoted true)
  else if first == '"' then s.keyed (quoted false)
  else if !(isSpace first || isBreak first || isIndicator first) ||
      (first == '-' && !second?.any isSpace) ||
      (!s.inFlow && (first == '?' || first == ':') && !endsWord second?) then s.plain
  else .error (.unexpected first)

def finish : Nat → Scan → Except Fault (Array Token)
  | 0, _ => .error .unterminated
  | bound + 1, s => do
    let s ← (overBlanks (s.cursor.rest.length + 1) s).forgetStale
    match s.cursor.next? with
    | none =>
      let s ← (s.closeBlocks none).dropKey
      return s.tokens
    | some first =>
      let s ← (s.closeBlocks (some s.cursor.column)).token first
      finish bound s

end Scan

def Token.scan (text : List Char) : Except Fault (List Token) :=
  match text.find? (!isAllowed ·) with
  | some c => .error (.control c)
  | none => do return (← Scan.finish (text.length + 1) { cursor := { rest := text } }).toList

end RuleEngine.Yaml
