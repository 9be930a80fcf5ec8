/-
  RuleEngine/Text/Quoted.lean
  ===========================
  **Quoted text.**

  Two formats put text between double quotes.  JSON escapes the quote, the
  backslash and the control characters, and leaves all else as it is.  Log lines
  that list keys use the same quotes with a few other escapes.
-/
import RuleEngine.Text.HiddenTable
import RuleEngine.Text.Runs

namespace RuleEngine.Text

def hexDigit (n : Nat) : Char := Char.ofNat (if n < 10 then '0'.toNat + n else 'a'.toNat + (n - 10))

def hexText (n : Nat) : String := String.ofList (Nat.toDigits 16 n)

/-! ### JSON strings -/

/-- A character inside a JSON string. -/
def jsonChar (c : Char) : List Char :=
  match c with
  | '"' => ['\\', '"']
  | '\\' => ['\\', '\\']
  | '\n' => ['\\', 'n']
  | '\r' => ['\\', 'r']
  | '\t' => ['\\', 't']
  | '\x08' => ['\\', 'b']
  | '\x0c' => ['\\', 'f']
  | c =>
    if c.toNat < 0x20 then
      ['\\', 'u', '0', '0', hexDigit (c.toNat / 16), hexDigit (c.toNat % 16)]
    else [c]

def jsonString (s : String) : String := "\"" ++ String.ofList (s.toList.flatMap jsonChar) ++ "\""

/-! ### Lists of keys -/

def isHidden (c : Char) : Bool := inRuns hiddenRuns c.toNat

def keyChar (c : Char) : List Char :=
  match c with
  | '"' => ['\\', '"']
  | '\\' => ['\\', '\\']
  | '\n' => ['\\', 'n']
  | '\r' => ['\\', 'r']
  | '\t' => ['\\', 't']
  | '\x00' => ['\\', '0']
  | c =>
    if isHidden c then '\\' :: 'u' :: '\x7b' :: (Nat.toDigits 16 c.toNat ++ ['\x7d'])
    else [c]

def keyText (s : String) : String := "\"" ++ String.ofList (s.toList.flatMap keyChar) ++ "\""

def listText (keys : List String) : String := "[" ++ ", ".intercalate (keys.map keyText) ++ "]"

end RuleEngine.Text
