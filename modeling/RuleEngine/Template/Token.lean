/-
  RuleEngine/Template/Token.lean
  ==============================
  **The tokens of a formula.**

  A formula is a number written with operators, functions and references.  This
  file cuts its source into tokens and writes a token back.  Blanks separate
  tokens; a percent sign starts a placeholder where one can be read and is the
  remainder operator elsewhere.
-/
import RuleEngine.Template.Reference

namespace RuleEngine

/-! ### Tokens -/

inductive Symbol where
  | plus
  | minus
  | times
  | divide
  | percent
  | caret
  | openParen
  | closeParen
  | comma
deriving DecidableEq, Repr

def Symbol.char : Symbol → Char
  | plus => '+'
  | minus => '-'
  | times => '*'
  | divide => '/'
  | percent => '%'
  | caret => '^'
  | openParen => '('
  | closeParen => ')'
  | comma => ','

/-- The sign that a character is; the percent sign needs its surroundings and is
    not among them. -/
def Symbol.ofChar? : Char → Option Symbol
  | '+' => some plus
  | '-' => some minus
  | '*' => some times
  | '/' => some divide
  | '^' => some caret
  | '(' => some openParen
  | ')' => some closeParen
  | ',' => some comma
  | _ => none

inductive Token where
  | number (value : Float)
  | name (text : String)
  | reference (target : Reference)
  | symbol (sign : Symbol)
deriving DecidableEq

def Token.written : Token → List Char
  | number value => (Decimal.plain value).toList
  | name text => text.toList
  | reference target => target.written
  | symbol sign => [sign.char]

def Token.text (t : Token) : String := String.ofList t.written

/-! ### Scanning -/

def isNumberChar (c : Char) : Bool := c.isDigit || c == '.'

def isNameStart (c : Char) : Bool := c.isAlpha || c == '_'

def isNameChar (c : Char) : Bool := c.isAlphanum || c == '_'

/-- The rest after a run of characters is no longer than what it was cut from. -/
theorem length_dropWhile_le {α : Type} (p : α → Bool) (xs : List α) :
    (xs.dropWhile p).length ≤ xs.length :=
  (List.dropWhile_sublist p).length_le

/-- Cut the characters of a formula into tokens, `offset` bytes into its source. -/
def Token.scan (offset : Nat) (cs : List Char) : Except TemplateError (List Token) :=
  match cs with
  | [] => .ok []
  | c :: rest =>
    if Text.isBlank c then Token.scan (offset + c.utf8Size) rest
    else if isNumberChar c then
      let digits := c :: rest.takeWhile isNumberChar
      match Decimal.readFloat? (String.ofList digits) with
      | none => .error (.unexpectedToken (String.ofList digits))
      | some value =>
        (Token.scan (offset + Text.utf8Length digits) (rest.dropWhile isNumberChar)).map
          (.number value :: ·)
    else if isNameStart c then
      let letters := c :: rest.takeWhile isNameChar
      (Token.scan (offset + Text.utf8Length letters) (rest.dropWhile isNameChar)).map
        (.name (String.ofList letters) :: ·)
    else if c = '\x7b' then
      match h : propertyAt offset rest with
      | .error e => .error e
      | .ok (key, after) =>
        (Token.scan (offset + 1 + bytesBefore rest after) after).map
          (.reference (.property (String.ofList key)) :: ·)
    else if c = '%' then
      match h : placeholderAt rest with
      | some (word, after) =>
        (Token.scan (offset + 1 + bytesBefore rest after) after).map
          (.reference (.placeholder (String.ofList word)) :: ·)
      | none => (Token.scan (offset + 1) rest).map (.symbol .percent :: ·)
    else
      match Symbol.ofChar? c with
      | some sign => (Token.scan (offset + 1) rest).map (.symbol sign :: ·)
      | none => .error (.unexpectedChar c offset)
termination_by cs.length
decreasing_by
  · simp
  · have := length_dropWhile_le isNumberChar rest
    simp
    omega
  · have := length_dropWhile_le isNameChar rest
    simp
    omega
  · have := propertyAt_length h
    simp
    omega
  · have := placeholderAt_length h
    simp
    omega
  · simp
  · simp

end RuleEngine
