/-
  RuleEngine/Text/Blank.lean
  ==========================
  **Blank characters and trimming.**

  A rule tree is written by people, so scalars and references are read with the
  blanks around them removed.  "Blank" is the `White_Space` property of Unicode:
  twenty-five code points, of which core's `Char.isWhitespace` knows four.  The
  table below is the property itself, and `trim` drops its members from both
  ends of a text.
-/

namespace RuleEngine.Text

/-! ### The property -/

/-- A character with the Unicode property `White_Space`. -/
def isBlank (c : Char) : Bool :=
  let n := c.toNat
  (0x09 ≤ n && n ≤ 0x0D) || n == 0x20 || n == 0x85 || n == 0xA0 || n == 0x1680 ||
    (0x2000 ≤ n && n ≤ 0x200A) || n == 0x2028 || n == 0x2029 || n == 0x202F ||
    n == 0x205F || n == 0x3000

/-- Every blank of core is a blank here. -/
theorem isBlank_of_isWhitespace {c : Char} (h : c.isWhitespace = true) : isBlank c = true := by
  simp only [Char.isWhitespace, Bool.or_eq_true, decide_eq_true_eq] at h
  rcases h with ((h | h) | h) | h <;> subst h <;> decide

/-! ### Trimming -/

def dropBlankEnd (cs : List Char) : List Char := (cs.reverse.dropWhile isBlank).reverse

def trimChars (cs : List Char) : List Char := dropBlankEnd (cs.dropWhile isBlank)

def trim (s : String) : String := String.ofList (trimChars s.toList)

/-- Trimming keeps only characters of the text. -/
theorem mem_of_mem_trimChars {c : Char} {cs : List Char} (h : c ∈ trimChars cs) : c ∈ cs := by
  simp only [trimChars, dropBlankEnd, List.mem_reverse] at h
  exact (List.dropWhile_sublist isBlank).mem
    (List.mem_reverse.1 ((List.dropWhile_sublist isBlank).mem h))

/-- The number of bytes that a list of characters takes in UTF-8. -/
def utf8Length (cs : List Char) : Nat :=
  match cs with
  | [] => 0
  | c :: rest => c.utf8Size + utf8Length rest

@[simp] theorem utf8Length_nil : utf8Length [] = 0 := rfl

@[simp] theorem utf8Length_cons (c : Char) (cs : List Char) :
    utf8Length (c :: cs) = c.utf8Size + utf8Length cs := rfl

@[simp] theorem utf8Length_append (xs ys : List Char) :
    utf8Length (xs ++ ys) = utf8Length xs + utf8Length ys := by
  induction xs with
  | nil => simp
  | cons c cs ih => simp [ih, Nat.add_assoc]

/-- ASCII lower case: the letters A to Z become a to z, every other character stays. -/
def asciiLower (s : String) : String := String.ofList (s.toList.map Char.toLower)

end RuleEngine.Text
