/-
  RuleEngine/Toml/Written.lean
  ============================
  **TOML documents as they are written.**

  A settings file is a list of tables of scalars.  A table is written as its header
  and a line for each entry, with an empty line between two tables.  A string is
  written in the plainest form that shows it without escapes, as far as one does.
-/
import RuleEngine.Toml.Value
import RuleEngine.Text.Quoted

namespace RuleEngine.Toml

/-! ### Strings -/

/-- The length of the longest run of a character, given that of the run before. -/
def longestRun (c : Char) : Nat → List Char → Nat
  | run, [] => run
  | run, d :: rest => if d == c then longestRun c (run + 1) rest else max run (longestRun c 0 rest)

/-- A character that every form of string has to escape. -/
def needsEscape (c : Char) : Bool := (c < ' ' && c != '\t' && c != '\n') || c == '\x7f'

/-- The forms of strings: with escapes or without, on one line or on several. -/
inductive StringForm where
  | basic
  | literal
  | wideBasic
  | wideLiteral
deriving DecidableEq, Repr

def StringForm.of (cs : List Char) : StringForm :=
  let escapes := cs.any needsEscape
  let backslash := cs.contains '\\'
  let breaks := cs.contains '\n'
  let doubles := longestRun '"' 0 cs
  let singles := longestRun '\'' 0 cs
  if !escapes && !backslash && doubles == 0 && !breaks then .basic
  else if !escapes && singles == 0 && !breaks then .literal
  else if !escapes && !backslash && doubles ≤ 2 then .wideBasic
  else if !escapes && singles ≤ 2 then .wideLiteral
  else if breaks then .wideBasic
  else .basic

def StringForm.quotes : StringForm → List Char
  | .basic => ['"']
  | .literal => ['\'']
  | .wideBasic => ['"', '"', '"']
  | .wideLiteral => ['\'', '\'', '\'']

def escapedChar (wide : Bool) (c : Char) : List Char :=
  match c with
  | '\x08' => ['\\', 'b']
  | '\t' => ['\\', 't']
  | '\n' => if wide then ['\n'] else ['\\', 'n']
  | '\x0c' => ['\\', 'f']
  | '\r' => ['\\', 'r']
  | '\\' => ['\\', '\\']
  | c =>
    if needsEscape c then
      ['\\', 'u', '0', '0', (Text.hexDigit (c.toNat / 16)).toUpper,
        (Text.hexDigit (c.toNat % 16)).toUpper]
    else [c]

/-- The characters of a string in a form with escapes, after a run of quotes.  On
    several lines two quotes in a row stand for themselves. -/
def escaped (wide : Bool) : Nat → List Char → List Char
  | _, [] => []
  | run, c :: rest =>
    if c == '"' then
      if wide && run < 2 then '"' :: escaped wide (run + 1) rest
      else '\\' :: '"' :: escaped wide 0 rest
    else escapedChar wide c ++ escaped wide 0 rest

/-- A string as it is written.  One with line breaks starts on a line of its own. -/
def stringText (s : String) : String :=
  let cs := s.toList
  let form := StringForm.of cs
  let body :=
    match form with
    | .basic => escaped false 0 cs
    | .wideBasic => escaped true 0 cs
    | .literal | .wideLiteral => cs
  let start := if cs.contains '\n' then ['\n'] else []
  String.ofList (form.quotes ++ start ++ body ++ form.quotes)

/-! ### Documents -/

inductive Scalar where
  | string (s : String)
  | integer (i : Int64)
  | boolean (b : Bool)
deriving DecidableEq, Repr

def Scalar.value : Scalar → Value
  | .string s => .string s
  | .integer i => .integer i
  | .boolean b => .boolean b

def Scalar.text : Scalar → String
  | .string s => stringText s
  | .integer i => toString i.toInt
  | .boolean true => "true"
  | .boolean false => "false"

/-- A table of scalars under its name.  Names and keys are bare. -/
structure Section where
  name : String
  entries : List (String × Scalar)
deriving DecidableEq, Repr

def Section.text (s : Section) : String :=
  let lines := s.entries.map fun (key, value) => key ++ " = " ++ value.text ++ "\n"
  "[" ++ s.name ++ "]\n" ++ String.join lines

def documentText (sections : List Section) : String :=
  "\n".intercalate (sections.map Section.text)

end RuleEngine.Toml
