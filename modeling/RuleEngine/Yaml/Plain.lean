/-
  RuleEngine/Yaml/Plain.lean
  ==========================
  **Plain texts.**

  A plain text has no quotes.  It goes on over blanks and line breaks as long as the
  lines stay right of the enclosing block; a colon before a blank, a comment after a
  blank, a document marker and, inside a flow collection, a comma or bracket end it.
-/
import RuleEngine.Yaml.Gap

namespace RuleEngine.Yaml

/-- The signs of flow collections that end a plain text in one. -/
def isFlowSign (c : Char) : Bool :=
  c == ',' || c == '[' || c == ']' || c == '{' || c == '}'

def plainWord (flow : Bool) : List Char → Except Fault (List Char)
  | [] => .ok []
  | c :: rest =>
    if isSpace c || isBreak c then .ok []
    else if flow && c == ':' && rest.head?.any (fun d => isFlowSign d || d == '?') then
      .error .tightColon
    else if c == ':' && endsWord rest.head? then .ok []
    else if flow && isFlowSign c then .ok []
    else return c :: (← plainWord flow rest)

/-- A plain text that was read: its characters, where it ends, and whether line
    breaks were read after its last word. -/
structure PlainText where
  text : List Char
  cursor : Cursor
  endedLine : Bool

/-- Read on in a plain text that must stay right of `indent - 1`, after the words
    `text`, over the gap `gap`. -/
def plainFrom (flow : Bool) (indent : Nat) :
    Nat → List Char → Gap → Cursor → Except Fault PlainText
  | 0, text, gap, c => .ok ⟨text, c, !gap.breaks.isEmpty⟩
  | bound + 1, text, gap, c =>
    if c.atDocumentMarker || c.next? == some '#' then .ok ⟨text, c, !gap.breaks.isEmpty⟩
    else do
      let word ← plainWord flow c.rest
      if word.isEmpty then return ⟨text, c, !gap.breaks.isEmpty⟩
      let text := text ++ gap.joined ++ word
      let c := c.advance word.length
      if !c.next?.any (fun x => isSpace x || isBreak x) then return ⟨text, c, false⟩
      let (run, c) := c.overSpace
      if tabLeftOf indent none run then throw .tab
      let gap := Gap.ofRun run
      if !flow && c.column < indent then return ⟨text, c, !gap.breaks.isEmpty⟩
      plainFrom flow indent bound text gap c

def readPlain (flow : Bool) (indent : Nat) (c : Cursor) : Except Fault PlainText :=
  plainFrom flow indent (c.rest.length + 1) [] {} c

end RuleEngine.Yaml
