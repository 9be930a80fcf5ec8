/-
  RuleEngine/Proofs/Toml/Integers.lean
  ====================================
  **Written integers read back.**

  An integer is written as its decimal digits, with a minus sign if it is negative,
  and the line ends after it.  What starts with digits may as well be a date, a time
  or a float: each of these needs another character after its first digits, and the
  line break is none of them.
-/
import Mathlib.Data.List.Basic
import RuleEngine.Toml.Reader
import RuleEngine.Toml.Written

namespace RuleEngine.Toml

/-! ### Digits -/

theorem ne_of_kind {kind : Char → Bool} {c d : Char} (inside : kind c = true)
    (outside : kind d = false) : c ≠ d := by
  rintro rfl
  rw [inside] at outside
  cases outside

/-- The digits of a number start with a zero only if it is zero. -/
theorem head?_toDigits {n : Nat} (positive : 0 < n) : (Nat.toDigits 10 n).head? ≠ some '0' := by
  induction n using Nat.strongRecOn with
  | ind n ih =>
    rw [Nat.toDigits_eq_if (by decide)]
    split_ifs with small
    · have digit : ∀ k < 10, 0 < k → k.digitChar ≠ '0' := by decide
      simpa using digit n small positive
    · have front := ih (n / 10) (by omega) (by omega)
      have some : Nat.toDigits 10 (n / 10) ≠ [] := Nat.toDigits_ne_nil
      rwa [List.head?_append_of_ne_nil _ some]

theorem groupedDigits?_digits {digits : List Char} (some : digits ≠ [])
    (digit : ∀ c ∈ digits, c.isDigit = true) (rest : List Char) :
    groupedDigits? Char.isDigit (digits ++ '\n' :: rest) = Option.some (digits, '\n' :: rest) := by
  induction digits with
  | nil => exact absurd rfl some
  | cons c digits ih =>
    obtain ⟨first, others⟩ := List.forall_mem_cons.1 digit
    rw [List.cons_append]
    cases digits with
    | nil => simp [groupedDigits?, first]
    | cons d digits =>
      have second : d.isDigit = true := (List.forall_mem_cons.1 others).1
      have plain : d ≠ '_' := ne_of_kind second (by decide)
      have more := ih (by simp) others
      rw [List.cons_append] at more
      rw [List.cons_append, groupedDigits?]
      · simp [first, second, more]
      · exact fun _ _ underscore => absurd underscore plain
      · exact fun underscore => absurd underscore plain

/-! ### Neither dates nor floats -/

theorem fixedNumber?_digits {digits : List Char} {count low high n : Nat} {rest left : List Char}
    (read : fixedNumber? count low high (digits ++ '\n' :: rest) = some (n, left)) :
    left = digits.drop count ++ '\n' :: rest := by
  obtain ⟨k, number, kept⟩ := Option.bind_eq_some_iff.1 read
  split_ifs at kept with fits
  cases kept
  by_cases long : count ≤ digits.length
  · exact List.drop_append_of_le_length long
  · -- The line break would be one of the digits.
    exfalso
    have breaks : '\n' ∈ (digits ++ '\n' :: rest).take count := by
      rw [List.take_append, List.mem_append]
      right
      obtain ⟨m, more⟩ : ∃ m, count - digits.length = m + 1 := ⟨count - digits.length - 1, by omega⟩
      rw [more, List.take_succ_cons]
      exact List.mem_cons_self ..
    unfold Decimal.readNat? at number
    split_ifs at number with bad
    simp only [Bool.or_eq_true, not_or, Bool.not_eq_true, Bool.not_eq_false'] at bad
    have digit := List.all_eq_true.1 bad.2 _ breaks
    revert digit
    decide

/-- No sign stands after a number of a fixed length that starts here. -/
theorem afterSign?_digits {digits : List Char} (digit : ∀ c ∈ digits, c.isDigit = true)
    {count low high n : Nat} {rest left : List Char}
    (read : fixedNumber? count low high (digits ++ '\n' :: rest) = some (n, left))
    {sign : Char} (other : sign.isDigit = false) (visible : sign ≠ '\n') :
    afterSign? sign left = none := by
  obtain rfl := fixedNumber?_digits read
  cases more : digits.drop count with
  | nil => simpa [afterSign?] using Ne.symm visible
  | cons c kept =>
    have mem : c ∈ digits := List.mem_of_mem_drop (more ▸ List.mem_cons_self ..)
    simpa [afterSign?] using ne_of_kind (digit c mem) other

theorem dateTime?_digits {digits : List Char} (digit : ∀ c ∈ digits, c.isDigit = true)
    (bounds : TimeBounds) (rest : List Char) :
    dateTime? bounds (digits ++ '\n' :: rest) = none := by
  have date : date? (digits ++ '\n' :: rest) = none := by
    unfold date?
    cases read : fixedNumber? 4 0 9999 (digits ++ '\n' :: rest) with
    | none => rfl
    | some year =>
      have noSign : afterSign? '-' year.2 = none :=
        afterSign?_digits digit read (by decide) (by decide)
      simp [noSign]
  have time : time? bounds (digits ++ '\n' :: rest) = none := by
    unfold time?
    cases read : fixedNumber? 2 0 bounds.hour (digits ++ '\n' :: rest) with
    | none => rfl
    | some hour =>
      have noSign : afterSign? ':' hour.2 = none :=
        afterSign?_digits digit read (by decide) (by decide)
      simp [noSign]
  rw [dateTime?, date, time]
  rfl

theorem dateTime?_minus (bounds : TimeBounds) (rest : List Char) :
    dateTime? bounds ('-' :: rest) = none := by
  have number (count low high : Nat) (some : 0 < count) :
      fixedNumber? count low high ('-' :: rest) = none := by
    obtain ⟨count, rfl⟩ : ∃ m, count = m + 1 := ⟨count - 1, by omega⟩
    have unread : Decimal.readNat? (('-' :: rest).take (count + 1)) = none := by
      simp [Decimal.readNat?]
    rw [fixedNumber?, unread]
    rfl
  have date : date? ('-' :: rest) = none := by
    rw [date?, number 4 0 9999 (by decide)]
    rfl
  have time : time? bounds ('-' :: rest) = none := by
    rw [time?, number 2 0 _ (by decide)]
    rfl
  rw [dateTime?, date, time]
  rfl

/-! ### Whole numbers -/

section

variable {sign : List Char} (isSign : sign = [] ∨ sign = ['-']) (n : Nat) (rest : List Char)

theorem toDigits_cons : ∃ c digits, Nat.toDigits 10 n = c :: digits ∧ c.isDigit = true := by
  cases digits : Nat.toDigits 10 n with
  | nil => exact absurd digits Nat.toDigits_ne_nil
  | cons c more =>
    exact ⟨c, more, rfl, Nat.isDigit_of_mem_toDigits (by decide) (by decide)
      (digits ▸ List.mem_cons_self ..)⟩

include isSign

theorem signed_digits :
    signed (sign ++ (Nat.toDigits 10 n ++ '\n' :: rest)) =
      (sign, Nat.toDigits 10 n ++ '\n' :: rest) := by
  obtain ⟨c, digits, text, digit⟩ := toDigits_cons n
  rcases isSign with rfl | rfl
  · have noMinus : c ≠ '-' := ne_of_kind digit (by decide)
    have noPlus : c ≠ '+' := ne_of_kind digit (by decide)
    simp [text, signed, noMinus, noPlus]
  · rfl

/-- The digits of a number are read, with a minus sign or without. -/
theorem whole?_digits :
    whole? (sign ++ (Nat.toDigits 10 n ++ '\n' :: rest)) =
      some (sign ++ Nat.toDigits 10 n, '\n' :: rest) := by
  rw [whole?, signed_digits isSign]
  dsimp only
  rcases Nat.eq_zero_or_pos n with rfl | positive
  · rfl
  · have noZero := head?_toDigits positive
    have read := groupedDigits?_digits (Nat.toDigits_ne_nil (n := n) (b := 10))
      (fun c h => Nat.isDigit_of_mem_toDigits (by decide) (by decide) h) rest
    split
    · rename_i more zero
      obtain ⟨c, digits, text, -⟩ := toDigits_cons n
      rw [text, List.cons_append, List.cons.injEq] at zero
      rw [text, zero.1] at noZero
      exact absurd rfl noZero
    · rw [read]
      rfl

theorem float?_digits : float? (sign ++ (Nat.toDigits 10 n ++ '\n' :: rest)) = none := by
  rw [float?, whole?_digits isSign]
  rfl

theorem floatWord?_digits : floatWord? (sign ++ (Nat.toDigits 10 n ++ '\n' :: rest)) = none := by
  obtain ⟨c, digits, text, digit⟩ := toDigits_cons n
  have noInfinity : c ≠ 'i' := ne_of_kind digit (by decide)
  have number : c ≠ 'n' := ne_of_kind digit (by decide)
  rw [floatWord?, signed_digits isSign, text]
  simp [noInfinity, number]

theorem readInteger_digits :
    readInteger (sign ++ (Nat.toDigits 10 n ++ '\n' :: rest)) =
      boundedInteger (if sign = [] then n else -n) ('\n' :: rest) := by
  have value : Decimal.digitsValue 0 (Nat.toDigits 10 n) = n := by
    rw [Decimal.digitsValue, ← Nat.ofDigitChars_eq_foldl, Nat.ofDigitChars_ten_toDigits]
  have whole := whole?_digits isSign n rest
  unfold readInteger
  split
  -- After a zero the line ends, so no letter for a radix follows.
  iterate 3
    rename_i more radix
    rw [radix] at whole
    simp [whole?, signed] at whole
  rw [whole]
  obtain ⟨c, digits, text, digit⟩ := toDigits_cons n
  rcases isSign with rfl | rfl
  · have noMinus : c ≠ '-' := ne_of_kind digit (by decide)
    simp only [List.nil_append]
    rw [← value, text]
    split
    · rename_i minus
      simp_all
    · simp_all
    · simp_all
  · simp [value]

end

theorem boundedInteger_toInt (i : Int64) (rest : List Char) :
    boundedInteger i.toInt rest = .ok (i, rest) := by
  have fits : Decimal.fitsInt64 i.toInt = true := by
    simp only [Decimal.fitsInt64, Bool.and_eq_true, decide_eq_true_eq]
    exact ⟨i.minValue_le_toInt, i.toInt_le⟩
  rw [boundedInteger, if_pos fits, Int64.ofInt_toInt]

/-- An integer is written as a minus sign or none, and digits. -/
theorem toString_toInt (i : Int) : ∃ sign n, (sign = [] ∨ sign = ['-']) ∧
    (toString i).toList = sign ++ Nat.toDigits 10 n ∧
      (if sign = [] then (n : Int) else -n) = i := by
  have digits (n : Nat) : (toString n).toList = Nat.toDigits 10 n := by
    rw [Nat.toString_eq_ofList_toDigits, String.toList_ofList]
  cases i with
  | ofNat n => exact ⟨[], n, .inl rfl, digits n, rfl⟩
  | negSucc n =>
    refine ⟨['-'], n + 1, .inr rfl, ?_, rfl⟩
    rw [show toString (Int.negSucc n) = "-" ++ toString (n + 1) from rfl, String.toList_append,
      digits]
    rfl

theorem toString_cons (i : Int) :
    ∃ c more, (toString i).toList = c :: more ∧ (c.isDigit || c == '+' || c == '-') = true := by
  obtain ⟨sign, n, isSign, text, -⟩ := toString_toInt i
  obtain ⟨c, digits, first, digit⟩ := toDigits_cons n
  rcases isSign with rfl | rfl
  · exact ⟨c, digits, by rw [text, first, List.nil_append], by rw [digit]; rfl⟩
  · exact ⟨'-', _, text, rfl⟩

/-- What a number does not start with is not the first character of one. -/
theorem ne_of_number {c d : Char} (start : (c.isDigit || c == '+' || c == '-') = true)
    (other : (d.isDigit || d == '+' || d == '-') = false) : c ≠ d :=
  @ne_of_kind (fun c => c.isDigit || c == '+' || c == '-') c d start other

/-- A written integer reads back, up to the end of its line. -/
theorem readNumber_text (i : Int64) (rest : List Char) :
    readNumber ((toString i.toInt).toList ++ '\n' :: rest) = .ok (.integer i, '\n' :: rest) := by
  obtain ⟨sign, n, isSign, text, value⟩ := toString_toInt i.toInt
  have noDate : dateTime? .plain (sign ++ (Nat.toDigits 10 n ++ '\n' :: rest)) = none := by
    rcases isSign with rfl | rfl
    · exact dateTime?_digits (fun c h => Nat.isDigit_of_mem_toDigits (by decide) (by decide) h) _ _
    · exact dateTime?_minus _ _
  rw [text, List.append_assoc, readNumber, noDate, float?_digits isSign,
    floatWord?_digits isSign, readInteger_digits isSign, value, boundedInteger_toInt]
  rfl

end RuleEngine.Toml
