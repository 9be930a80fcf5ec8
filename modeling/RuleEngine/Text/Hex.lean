/-
  RuleEngine/Text/Hex.lean
  ========================
  **Hexadecimal digits.**

  Text formats write characters and bytes that cannot stand for themselves by their
  number, in hexadecimal digits of either case.
-/

namespace RuleEngine.Text

def hexValue? (c : Char) : Option Nat :=
  if c.isDigit then some (c.toNat - 0x30)
  else if 'a' ≤ c && c ≤ 'f' then some (c.toNat - 0x57)
  else if 'A' ≤ c && c ≤ 'F' then some (c.toNat - 0x37)
  else none

def hexNumber? (digits : List Char) : Option Nat :=
  digits.foldlM (fun n d => (hexValue? d).map (n * 16 + ·)) 0

def charOf? (n : Nat) : Option Char := if n.isValidChar then some (Char.ofNat n) else none

end RuleEngine.Text
