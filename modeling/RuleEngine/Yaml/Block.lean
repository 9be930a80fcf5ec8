/-
  RuleEngine/Yaml/Block.lean
  ==========================
  **Block texts.**

  A block text stands on lines of its own, right of the enclosing block.  A literal
  one keeps its line breaks, a folded one joins the lines that start with no blank.
  Its header says what becomes of the line breaks at the end.
-/
import RuleEngine.Yaml.Cursor

namespace RuleEngine.Yaml

/-! ### The header -/

/-- What becomes of the line breaks at the end of a block text. -/
inductive Chomping where
  /-- The last one is kept. -/
  | clip
  /-- None is kept. -/
  | strip
  /-- All are kept. -/
  | keep
deriving DecidableEq, Repr

structure BlockHeader where
  chomping : Chomping := .clip
  /-- How far right of the enclosing block the lines start, where it is given. -/
  indent? : Option Nat := none
deriving DecidableEq, Repr

def chomping? : Char → Option Chomping
  | '+' => some .keep
  | '-' => some .strip
  | _ => none

/-- The header that starts here: at most one chomping sign and one digit. -/
def readHeader (c : Cursor) : Except Fault (BlockHeader × Cursor) :=
  let digit? (c : Cursor) : Except Fault (Option Nat × Cursor) :=
    match c.next? with
    | some d =>
      if d == '0' then .error .badBlockHeader
      else if d.isDigit then .ok (some (d.toNat - 0x30), c.advance 1)
      else .ok (none, c)
    | none => .ok (none, c)
  match c.next?.bind chomping? with
  | some chomping => do
    let (indent?, c) ← digit? (c.advance 1)
    return ({ chomping, indent? }, c)
  | none => do
    let (indent?, c) ← digit? c
    match indent?, c.next?.bind chomping? with
    | some _, some chomping => return ({ chomping, indent? }, c.advance 1)
    | _, _ => return ({ indent? }, c)

/-! ### The lines -/

/-- The empty lines ahead and the indentation of the line after them: the line
    breaks, the widest column that was reached, and where the line starts.  Without
    an indentation all spaces are indentation. -/
def blockGap (indent? : Option Nat) :
    Nat → Nat → Cursor → Except Fault (List Char × Nat × Cursor)
  | 0, widest, c => .ok ([], widest, c)
  | bound + 1, widest, c =>
    let spaces := (c.rest.takeWhile (· == ' ')).length
    let c := c.advance (match indent? with
      | some n => min spaces (n - c.column)
      | none => spaces)
    let widest := max widest c.column
    if c.next? == some '\t' && indent?.all (c.column < ·) then .error .tab
    else
      match c.lineBreak? with
      | none => .ok ([], widest, c)
      | some (b, c) => do
        let (breaks, widest, c) ← blockGap indent? bound widest c
        return (b :: breaks, widest, c)

/-- How the line before the one being read ended. -/
structure LineEnd where
  /-- Its line break, none before the first line and at the end of the text. -/
  break? : Option Char := none
  /-- The line started with a blank. -/
  indented : Bool := false
  /-- The empty lines after it. -/
  breaks : List Char := []

/-- What stands between two lines of a block text, the second of which may start
    with a blank. -/
def LineEnd.joined (literal : Bool) (e : LineEnd) (indented : Bool) : List Char :=
  if !literal && e.break? == some '\n' && !e.indented && !indented then
    (if e.breaks.isEmpty then [' '] else []) ++ e.breaks
  else e.break?.toList ++ e.breaks

/-- What a block text ends with. -/
def LineEnd.last (chomping : Chomping) (e : LineEnd) : List Char :=
  match chomping with
  | .strip => []
  | .clip => e.break?.toList
  | .keep => e.break?.toList ++ e.breaks

/-- Read on in a block text whose lines start at a column. -/
def blockLines (literal : Bool) (chomping : Chomping) (indent : Nat) :
    Nat → List Char → LineEnd → Cursor → Except Fault (List Char × Cursor)
  | 0, text, before, c => .ok (text ++ before.last chomping, c)
  | bound + 1, text, before, c =>
    if c.column != indent || c.rest.isEmpty then .ok (text ++ before.last chomping, c)
    else do
      let indented := c.next?.any isSpace
      let (line, c) := c.advanceWhile (!isBreak ·)
      let text := text ++ before.joined literal indented ++ line
      let (break?, c) := match c.lineBreak? with
        | some (b, c) => (some b, c)
        | none => (none, c)
      let (breaks, _, c) ← blockGap (some indent) (c.rest.length + 1) 0 c
      blockLines literal chomping indent bound text { break?, indented, breaks } c

def readBlock (literal : Bool) (block? : Option Nat) (c : Cursor) :
    Except Fault (List Char × Cursor) := do
  let (header, c) ← readHeader c
  let c := c.overComment
  if !endsLine c.next? then throw .badBlockHeader
  let c := (c.lineBreak?.map Prod.snd).getD c
  let indent? := header.indent?.map (block?.getD 0 + ·)
  let (breaks, widest, c) ← blockGap indent? (c.rest.length + 1) 0 c
  let indent := indent?.getD (max (max widest (block?.elim 0 (· + 1))) 1)
  blockLines literal header.chomping indent (c.rest.length + 1) [] { breaks } c

end RuleEngine.Yaml
