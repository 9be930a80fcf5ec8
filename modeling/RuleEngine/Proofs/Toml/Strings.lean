/-
  RuleEngine/Proofs/Toml/Strings.lean
  ===================================
  **Written strings read back.**

  A string is written in one of four forms, and each of them reads back to it.  The
  body of a form is a sequence of *pieces*, one for a character: the character
  itself, or an escape.  On one line the pieces are read one by one.  On several
  lines a quote is a piece only as far as it is not one of three in a row, so there
  a body is cut into runs of at most two quotes, each ended by another piece.
-/
import Mathlib.Tactic.Common
import RuleEngine.Toml.Scalar
import RuleEngine.Toml.Written

namespace RuleEngine.Toml

/-! ### Pieces -/

/-- Some letters after a backslash are the escape of a character, whatever follows. -/
structure IsEscape (letters : List Char) (c : Char) : Prop where
  /-- They do not look like a line that goes on. -/
  visible : ∃ x more, letters = x :: more ∧ isSpace x = false ∧ x ≠ '\n' ∧ x ≠ '\r'
  read : ∀ rest, escape? (letters ++ rest) = some (c, letters.length)

/-- Some characters stand for one inside a form with the given quote. -/
inductive Piece (quote : Char) : List Char → Char → Prop
  | plain {c : Char} (inside : c ≠ quote) (noEscape : c = '\\' → quote ≠ '"')
    (shown : isTextChar c = true) : Piece quote [c] c
  | escape {letters : List Char} {c : Char} (basic : quote = '"') (h : IsEscape letters c) :
    Piece quote ('\\' :: letters) c

theorem Piece.head?_ne {quote c : Char} {piece : List Char} (h : Piece quote piece c)
    (rest : List Char) : (piece ++ rest).head? ≠ some quote := by
  cases h with
  | plain inside noEscape shown => simpa using inside
  | escape basic h => simp [basic]

theorem lineString_skip (quote : Char) (skipped rest : List Char) :
    lineString quote skipped.length (skipped ++ rest) = lineString quote 0 rest := by
  induction skipped with
  | nil => rfl
  | cons c skipped ih => rw [List.length_cons, List.cons_append, lineString, ih]

theorem blockString_skip (quote : Char) (skipped rest : List Char) :
    blockString quote skipped.length (skipped ++ rest) = blockString quote 0 rest := by
  induction skipped with
  | nil => rfl
  | cons c skipped ih => rw [List.length_cons, List.cons_append, blockString, ih]

/-- A piece within a string on one line is read as the character that it stands for. -/
theorem Piece.lineString {quote c : Char} {piece : List Char} (h : Piece quote piece c)
    (rest : List Char) :
    lineString quote 0 (piece ++ rest) = consText c (lineString quote 0 rest) := by
  cases h with
  | plain inside noEscape shown =>
    have unescaped : (c == '\\' && quote == '"') = false := by
      simpa using noEscape
    rw [List.singleton_append, Toml.lineString, if_neg (by simpa using inside),
      if_neg (by simp [unescaped]), if_pos shown]
  | escape basic h =>
    subst basic
    rw [List.cons_append, Toml.lineString, if_neg (by decide), if_pos (by decide), h.read]
    exact congrArg (consText c) (lineString_skip _ _ _)

theorem lineBreak?_of_ne {c : Char} (newline : c ≠ '\n') (carriage : c ≠ '\r')
    (rest : List Char) : lineBreak? (c :: rest) = none := by
  unfold lineBreak?
  split <;> simp_all

theorem ne_of_isTextChar {c : Char} (shown : isTextChar c = true) : c ≠ '\n' ∧ c ≠ '\r' := by
  constructor <;> rintro rfl <;> revert shown <;> decide

/-- A piece within a string on several lines is read as the character that it stands for. -/
theorem Piece.blockString {quote c : Char} {piece : List Char} (h : Piece quote piece c)
    (rest : List Char) :
    blockString quote 0 (piece ++ rest) = consText c (blockString quote 0 rest) := by
  cases h with
  | plain inside noEscape shown =>
    have unescaped : (c == '\\' && quote == '"') = false := by
      simpa using noEscape
    have unbroken : c ≠ '\r' := (ne_of_isTextChar shown).2
    rw [List.singleton_append, Toml.blockString, if_neg (by simpa using inside),
      if_neg (by simp [unescaped]), if_neg (by simpa using unbroken), if_pos (by simp [shown])]
  | escape basic h =>
    subst basic
    obtain ⟨x, more, rfl, space, newline, carriage⟩ := h.visible
    have unbroken : lineBreak? ((x :: more ++ rest).dropWhile isSpace) = none := by
      rw [List.cons_append, List.dropWhile_cons_of_neg (by simp [space]),
        lineBreak?_of_ne newline carriage]
    rw [List.cons_append, Toml.blockString, if_neg (by decide), if_pos (by decide)]
    dsimp only
    rw [if_neg (by rw [unbroken]; decide), h.read]
    exact congrArg (consText c) (blockString_skip _ _ _)

/-! ### Characters as they are written -/

theorem hexNumber_of_code :
    ∀ n < 128, (Text.hexNumber? ['0', '0', (Text.hexDigit (n / 16)).toUpper,
      (Text.hexDigit (n % 16)).toUpper]).bind Text.charOf? = some (Char.ofNat n) := by
  decide

theorem isEscape_of_code {c : Char} (small : c.toNat < 128) :
    IsEscape ['u', '0', '0', (Text.hexDigit (c.toNat / 16)).toUpper,
      (Text.hexDigit (c.toNat % 16)).toUpper] c where
  visible := ⟨'u', _, rfl, by decide, by decide, by decide⟩
  read := by
    intro rest
    have number := hexNumber_of_code c.toNat small
    rw [Char.ofNat_toNat] at number
    simp [escape?, number]

theorem isEscape_of_letter {letter c : Char} (short : shortEscape? letter = some c)
    (visible : isSpace letter = false ∧ letter ≠ '\n' ∧ letter ≠ '\r') : IsEscape [letter] c where
  visible := ⟨letter, [], rfl, visible⟩
  read := by
    have noCode : letter ≠ 'u' ∧ letter ≠ 'U' := by
      constructor <;> rintro rfl <;> revert short <;> simp [shortEscape?]
    intro rest
    simp [escape?, noCode, short]

theorem isTextChar_of_needsEscape {c : Char} (h : needsEscape c = false) (unbroken : c ≠ '\n') :
    isTextChar c = true := by
  simp only [needsEscape, isTextChar, Bool.or_eq_false_iff, Bool.and_eq_false_imp] at *
  by_cases control : c < ' '
  · simp_all
  · simp_all [Char.not_lt.1 control]

theorem toNat_lt_of_needsEscape {c : Char} (h : needsEscape c = true) : c.toNat < 128 := by
  simp only [needsEscape, Bool.or_eq_true, Bool.and_eq_true, decide_eq_true_eq, beq_iff_eq] at h
  rcases h with ⟨⟨control, -⟩, -⟩ | rfl
  · exact Nat.lt_trans (show c.toNat < 32 from control) (by decide)
  · decide

/-- An escaped character stands for itself. -/
theorem piece_of_escapedChar {wide : Bool} {c : Char} (inside : c ≠ '"')
    (unbroken : wide = true → c ≠ '\n') : Piece '"' (escapedChar wide c) c := by
  unfold escapedChar
  split
  · exact .escape rfl (isEscape_of_letter (by decide) (by decide))
  · exact .escape rfl (isEscape_of_letter (by decide) (by decide))
  · rw [if_neg (by simpa using unbroken)]
    exact .escape rfl (isEscape_of_letter (by decide) (by decide))
  · exact .escape rfl (isEscape_of_letter (by decide) (by decide))
  · exact .escape rfl (isEscape_of_letter (by decide) (by decide))
  · exact .escape rfl (isEscape_of_letter (by decide) (by decide))
  · rename_i newline _ _ backslash
    split_ifs with h
    · exact .escape rfl (isEscape_of_code (toNat_lt_of_needsEscape h))
    · exact .plain inside (by simpa using backslash)
        (isTextChar_of_needsEscape (by simpa using h) (by simpa using newline))

theorem piece_of_quote : Piece '"' ['\\', '"'] '"' :=
  .escape rfl (isEscape_of_letter (by decide) (by decide))

/-! ### Strings on one line -/

theorem lineString_escaped (cs rest : List Char) :
    lineString '"' 0 (escaped false 0 cs ++ '"' :: rest) = .ok (cs, rest) := by
  induction cs with
  | nil => rfl
  | cons c cs ih =>
    rw [escaped]
    split_ifs with quote wide
    · cases wide
    · obtain rfl := beq_iff_eq.1 quote
      have read := piece_of_quote.lineString (escaped false 0 cs ++ '"' :: rest)
      rw [ih] at read
      exact read
    · have piece : Piece '"' (escapedChar false c) c :=
        piece_of_escapedChar (by simpa using quote) (by simp)
      rw [List.append_assoc, piece.lineString, ih]
      rfl

theorem head?_escaped (cs : List Char) : (escaped false 0 cs).head? ≠ some '"' := by
  cases cs with
  | nil => simp [escaped]
  | cons c cs =>
    rw [escaped]
    split_ifs with quote wide
    · cases wide
    · simp
    · exact (piece_of_escapedChar (by simpa using quote) (by simp)).head?_ne _

theorem lineString_literal {cs : List Char} (shown : ∀ c ∈ cs, isTextChar c = true)
    (unquoted : '\'' ∉ cs) (rest : List Char) :
    lineString '\'' 0 (cs ++ '\'' :: rest) = .ok (cs, rest) := by
  induction cs with
  | nil => rfl
  | cons c cs ih =>
    have piece : Piece '\'' [c] c :=
      .plain (by rintro rfl; exact unquoted (List.mem_cons_self ..)) (by simp)
        (shown c (List.mem_cons_self ..))
    have tail := ih (fun d h => shown d (List.mem_cons_of_mem _ h))
      (fun h => unquoted (List.mem_cons_of_mem _ h))
    have read := piece.lineString (cs ++ '\'' :: rest)
    rw [tail] at read
    exact read

/-! ### Strings on several lines -/

/-- Some characters are a body on several lines, and read as others: runs of at most two
    quotes, each but the last with a piece or a line break after it. -/
inductive Body (quote : Char) : List Char → List Char → Prop
  | last {k : Nat} (short : k ≤ 2) : Body quote (List.replicate k quote) (List.replicate k quote)
  | piece {k : Nat} {p w cs : List Char} {c : Char} (short : k ≤ 2) (piece : Piece quote p c)
    (more : Body quote w cs) :
    Body quote (List.replicate k quote ++ (p ++ w)) (List.replicate k quote ++ c :: cs)
  | line {k : Nat} {w cs : List Char} (short : k ≤ 2) (more : Body quote w cs) :
    Body quote (List.replicate k quote ++ '\n' :: w) (List.replicate k quote ++ '\n' :: cs)

theorem takeWhile_quotes {quote : Char} (k : Nat) {rest : List Char}
    (ends : rest.head? ≠ some quote) :
    (List.replicate k quote ++ rest).takeWhile (· == quote) = List.replicate k quote := by
  have none : rest.takeWhile (· == quote) = [] := by
    cases rest with
    | nil => rfl
    | cons c rest => rw [List.takeWhile_cons_of_neg (by simpa using ends)]
  rw [List.takeWhile_append_of_pos (by simp), none, List.append_nil]

theorem blockString_quotes {quote : Char} {k : Nat} {rest : List Char} (short : k ≤ 2)
    (ends : rest.head? ≠ some quote) (text left : List Char)
    (read : blockString quote 0 rest = .ok (text, left)) :
    blockString quote 0 (List.replicate k quote ++ rest) =
      .ok (List.replicate k quote ++ text, left) := by
  induction k with
  | zero => exact read
  | succ k ih =>
    have run := takeWhile_quotes k ends
    rw [List.replicate_succ, List.cons_append, blockString, if_pos (by simp)]
    dsimp only
    rw [run, List.length_replicate, if_pos (by omega), ih (by omega)]
    rfl

theorem blockString_last {quote : Char} {k : Nat} {rest : List Char} (short : k ≤ 2)
    (ends : rest.head? ≠ some quote) :
    blockString quote 0 (List.replicate k quote ++ quote :: quote :: quote :: rest) =
      .ok (List.replicate k quote, rest) := by
  have all : List.replicate k quote ++ quote :: quote :: quote :: rest =
      quote :: (List.replicate (k + 2) quote ++ rest) := by
    rw [← List.singleton_append, ← List.append_assoc, ← List.replicate_succ',
      List.replicate_succ, List.cons_append]
    simp [List.replicate_succ', List.append_assoc]
  rw [all, blockString, if_pos (by simp)]
  dsimp only
  rw [takeWhile_quotes _ ends, List.length_replicate, if_neg (by omega)]
  have extra : min (1 + (k + 2) - 3) 2 = k := by omega
  rw [extra, List.drop_append_of_le_length (by simp), List.drop_eq_nil_of_le (by simp),
    List.nil_append]

theorem blockString_line (quote : Char) (known : quote ≠ '\n') (rest : List Char) :
    blockString quote 0 ('\n' :: rest) = consText '\n' (blockString quote 0 rest) := by
  rw [blockString, if_neg (by simpa using Ne.symm known), if_neg (by simp),
    if_neg (by decide), if_pos (by decide)]

/-- A body up to its closing quotes is read as the characters that it stands for. -/
theorem Body.read {quote : Char} {w cs rest : List Char} (body : Body quote w cs)
    (known : quote ≠ '\n') (ends : rest.head? ≠ some quote) :
    blockString quote 0 (w ++ quote :: quote :: quote :: rest) = .ok (cs, rest) := by
  induction body with
  | last short => exact blockString_last short ends
  | piece short piece more ih =>
    rw [List.append_assoc]
    refine blockString_quotes short ?_ _ _ ?_
    · rw [List.append_assoc]
      exact piece.head?_ne _
    · rw [List.append_assoc, piece.blockString, ih]
      rfl
  | line short more ih =>
    rw [List.append_assoc]
    refine blockString_quotes short ?_ _ _ ?_
    · simpa using Ne.symm known
    · rw [List.cons_append, blockString_line quote known, ih]
      rfl

-- The writer counts the quotes before a character, and escapes the third in a row.  With the
-- counted quotes in front, what it writes is a body of the text with the same quotes in front.
theorem body_escaped (cs : List Char) {run : Nat} (short : run ≤ 2) :
    Body '"' (List.replicate run '"' ++ escaped true run cs) (List.replicate run '"' ++ cs) := by
  induction cs generalizing run with
  | nil =>
    rw [escaped, List.append_nil]
    exact .last short
  | cons c cs ih =>
    rw [escaped]
    split_ifs with quote room
    · obtain rfl := beq_iff_eq.1 quote
      have more : Body '"' (List.replicate (run + 1) '"' ++ escaped true (run + 1) cs)
          (List.replicate (run + 1) '"' ++ cs) := ih (by simp at room; omega)
      simpa [List.replicate_succ'] using more
    · obtain rfl := beq_iff_eq.1 quote
      exact .piece short piece_of_quote (ih (Nat.zero_le 2))
    · have plain : c ≠ '"' := by simpa using quote
      by_cases newline : c = '\n'
      · subst newline
        exact .line short (ih (Nat.zero_le 2))
      · exact .piece short (piece_of_escapedChar plain fun _ => newline) (ih (Nat.zero_le 2))

theorem le_longestRun (quote : Char) (run : Nat) (cs : List Char) :
    run ≤ longestRun quote run cs := by
  induction cs generalizing run with
  | nil => exact Nat.le_refl run
  | cons c cs ih =>
    rw [longestRun]
    split_ifs
    · exact Nat.le_of_succ_le (ih _)
    · exact Nat.le_max_left ..

theorem body_literal {quote : Char} (known : quote ≠ '"') {cs : List Char}
    (shown : ∀ c ∈ cs, c ≠ '\n' → isTextChar c = true) {run : Nat}
    (short : longestRun quote run cs ≤ 2) :
    Body quote (List.replicate run quote ++ cs) (List.replicate run quote ++ cs) := by
  have few : run ≤ 2 := Nat.le_trans (le_longestRun quote run cs) short
  induction cs generalizing run with
  | nil =>
    rw [List.append_nil]
    exact .last few
  | cons c cs ih =>
    have rest : ∀ d ∈ cs, d ≠ '\n' → isTextChar d = true :=
      fun d h => shown d (List.mem_cons_of_mem _ h)
    rw [longestRun] at short
    split_ifs at short with same
    · obtain rfl := beq_iff_eq.1 same
      have more := ih rest short (Nat.le_trans (le_longestRun c _ cs) short)
      simpa [List.replicate_succ'] using more
    · have more := ih rest (Nat.le_trans (Nat.le_max_right ..) short) (Nat.zero_le 2)
      by_cases newline : c = '\n'
      · subst newline
        exact .line few more
      · exact .piece few (.plain (by simpa using same) (fun _ => known)
          (shown c (List.mem_cons_self ..) newline)) more

/-! ### Whole strings -/

theorem not_mem_of_longestRun {quote : Char} {cs : List Char} (h : longestRun quote 0 cs = 0) :
    quote ∉ cs := by
  induction cs with
  | nil => exact List.not_mem_nil
  | cons c cs ih =>
    rw [longestRun] at h
    split_ifs at h with same
    · have counted := le_longestRun quote (0 + 1) cs
      omega
    · rw [List.mem_cons, not_or]
      exact ⟨fun equal => same (by simp [equal]), ih (by omega)⟩

theorem StringForm.of_oneLine {cs : List Char}
    (h : StringForm.of cs = .basic ∨ StringForm.of cs = .literal) : '\n' ∉ cs := by
  intro newline
  have breaks : cs.contains '\n' = true := by simpa using newline
  unfold StringForm.of at h
  simp only [breaks] at h
  split_ifs at h <;> simp_all

theorem StringForm.of_literal {cs : List Char} (h : StringForm.of cs = .literal) :
    '\'' ∉ cs ∧ ∀ c ∈ cs, needsEscape c = false := by
  unfold StringForm.of at h
  dsimp only at h
  split_ifs at h with _ literal
  have quiet : longestRun '\'' 0 cs = 0 := by
    simp only [Bool.and_eq_true, beq_iff_eq] at literal
    exact literal.1.2
  exact ⟨not_mem_of_longestRun quiet, by simp_all⟩

theorem StringForm.of_wideLiteral {cs : List Char} (h : StringForm.of cs = .wideLiteral) :
    longestRun '\'' 0 cs ≤ 2 ∧ ∀ c ∈ cs, needsEscape c = false := by
  unfold StringForm.of at h
  dsimp only at h
  split_ifs at h
  simp_all

theorem readString_cons {quote : Char} (known : quote = '"' ∨ quote = '\'') (cs : List Char) :
    readString true (quote :: cs) =
      (if cs.take 2 = [quote, quote] then
        blockString quote 0 ((lineBreak? (cs.drop 2)).getD (cs.drop 2))
      else lineString quote 0 cs).map fun (text, rest) => (String.ofList text, rest) := by
  have isQuote : (!(quote == '"' || quote == '\'')) = false := by
    rcases known with rfl | rfl <;> rfl
  rw [readString, isQuote]
  simp

theorem readString_line {quote : Char} {body rest cs : List Char}
    (known : quote = '"' ∨ quote = '\'') (starts : body.head? ≠ some quote)
    (ends : rest.head? ≠ some quote)
    (read : lineString quote 0 (body ++ quote :: rest) = .ok (cs, rest)) :
    readString true (quote :: (body ++ quote :: rest)) = .ok (String.ofList cs, rest) := by
  have narrow : (body ++ quote :: rest).take 2 ≠ [quote, quote] := by
    intro wide
    cases body with
    | nil =>
      cases rest with
      | nil => simp at wide
      | cons c rest => simp_all
    | cons c body => simp_all
  rw [readString_cons known, if_neg narrow, read]
  rfl

theorem Body.unbroken {quote : Char} {body cs : List Char} (h : Body quote body cs)
    (known : quote = '"' ∨ quote = '\'') (noBreak : '\n' ∉ cs) (rest : List Char) :
    lineBreak? (body ++ quote :: rest) = none := by
  have quoted (more : List Char) : lineBreak? (quote :: more) = none := by
    rcases known with rfl | rfl <;> rfl
  cases h with
  | @last k short =>
    cases k with
    | zero => exact quoted _
    | succ k => exact quoted _
  | @piece k p w cs c short piece more =>
    cases k with
    | zero =>
      cases piece with
      | plain inside noEscape shown =>
        exact lineBreak?_of_ne (ne_of_isTextChar shown).1 (ne_of_isTextChar shown).2 _
      | escape basic h => rfl
    | succ k => exact quoted _
  | line short more => simp at noBreak

theorem readString_block {quote : Char} {body rest cs : List Char}
    (known : quote = '"' ∨ quote = '\'') (ends : rest.head? ≠ some quote)
    (h : Body quote body cs) :
    readString true (quote :: quote :: quote :: ((if cs.contains '\n' then ['\n'] else []) ++
      (body ++ quote :: quote :: quote :: rest))) = .ok (String.ofList cs, rest) := by
  have newline : quote ≠ '\n' := by rintro rfl; simp at known
  rw [readString_cons known, if_pos (by simp)]
  simp only [List.drop_succ_cons, List.drop_zero]
  -- The line break after the opening quotes is passed over; without one, none is there.
  have start : (lineBreak? ((if cs.contains '\n' then ['\n'] else []) ++
      (body ++ quote :: quote :: quote :: rest))).getD
        ((if cs.contains '\n' then ['\n'] else []) ++
          (body ++ quote :: quote :: quote :: rest)) =
      body ++ quote :: quote :: quote :: rest := by
    split_ifs with breaks
    · rfl
    · rw [List.nil_append, h.unbroken known (by simpa using breaks)]
      rfl
  rw [start, h.read newline ends]
  rfl

/-- A written string reads back, up to what follows it. -/
theorem readString_stringText (s : String) {rest : List Char}
    (ends : rest.head? ≠ some '"' ∧ rest.head? ≠ some '\'') :
    readString true ((stringText s).toList ++ rest) = .ok (s, rest) := by
  have same : String.ofList s.toList = s := String.ofList_toList
  unfold stringText
  dsimp only
  rw [String.toList_ofList]
  cases form : StringForm.of s.toList with
  | basic =>
    have noBreak := StringForm.of_oneLine (.inl form)
    have read := readString_line (.inl rfl) (head?_escaped s.toList) ends.1
      (lineString_escaped s.toList rest)
    simpa [StringForm.quotes, noBreak, same] using read
  | literal =>
    have noBreak := StringForm.of_oneLine (.inr form)
    obtain ⟨unquoted, shown⟩ := StringForm.of_literal form
    have text : ∀ c ∈ s.toList, isTextChar c = true := fun c h =>
      isTextChar_of_needsEscape (shown c h) (by rintro rfl; exact noBreak h)
    have starts : s.toList.head? ≠ some '\'' := fun h => unquoted (List.mem_of_mem_head? h)
    have read := readString_line (.inr rfl) starts ends.2 (lineString_literal text unquoted rest)
    simpa [StringForm.quotes, noBreak, same] using read
  | wideBasic =>
    have read := readString_block (.inl rfl) ends.1 (body_escaped s.toList (Nat.zero_le 2))
    simpa [StringForm.quotes, same] using read
  | wideLiteral =>
    obtain ⟨short, shown⟩ := StringForm.of_wideLiteral form
    have body := body_literal (by decide)
      (fun c h newline => isTextChar_of_needsEscape (shown c h) newline) short
    have read := readString_block (.inr rfl) ends.2 body
    simpa [StringForm.quotes, same] using read

end RuleEngine.Toml
