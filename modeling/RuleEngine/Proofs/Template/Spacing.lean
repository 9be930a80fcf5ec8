/-
  RuleEngine/Proofs/Template/Spacing.lean
  =======================================
  **Written tokens are scanned back.**

  A token that a scan gives is written in characters that the scan reads as that token again,
  whatever stands after it, as long as a space comes first (`Scannable.scan_written`).  The
  space is what keeps tokens apart: a run of digits or letters ends there, and a percent sign
  in front of it starts no placeholder, however many percent signs follow, because a space is
  no part of a placeholder's name (`placeholderAt_apart`).  So tokens that are written with
  spaces between them are scanned back as the same tokens (`scan_spaced`).
-/
import RuleEngine.Proofs.Decimal.Plain
import RuleEngine.Proofs.Template.References
import RuleEngine.Template.Token

namespace RuleEngine

namespace Token

/-! ### Which tokens a scan gives -/

/-- A token as a scan gives it: the number that some digits and points spell, a name, a
    reference to something that can be mentioned, or a sign. -/
inductive Scannable : Token → Prop
  | number {digits : List Char} {value : Float} (chars : ∀ c ∈ digits, isNumberChar c = true)
      (spells : Decimal.readFloat? (String.ofList digits) = some value) :
      Scannable (.number value)
  | name {c : Char} {letters : List Char} (start : isNameStart c = true)
      (chars : ∀ c ∈ letters, isNameChar c = true) :
      Scannable (.name (String.ofList (c :: letters)))
  | property {key : List Char} (keyed : key ≠ []) (chars : ∀ c ∈ key, isReferenceChar c = true) :
      Scannable (.reference (.property (String.ofList key)))
  | placeholder {word : List Char} (named : word ≠ [])
      (chars : ∀ c ∈ word, isReferenceChar c = true) :
      Scannable (.reference (.placeholder (String.ofList word)))
  | symbol (sign : Symbol) : Scannable (.symbol sign)

theorem scannable_of_scan {offset : Nat} {cs : List Char} {tokens : List Token}
    (h : scan offset cs = .ok tokens) : ∀ t ∈ tokens, t.Scannable := by
  fun_induction scan offset cs generalizing tokens with
  | case1 =>
    cases h
    exact List.forall_mem_nil _
  | case2 offset c rest hblank ih => exact ih h
  | case3 => cases h
  | case4 offset c rest hblank hnumber digits value hvalue =>
    rename_i ih
    obtain ⟨more, hmore, rfl⟩ := exists_ok_of_map h
    refine List.forall_mem_cons.mpr ⟨.number ?_ hvalue, ih hmore⟩
    exact List.forall_mem_cons.mpr ⟨hnumber, fun d hd => List.mem_takeWhile_imp hd⟩
  | case5 offset c rest hblank hnumber hstart letters =>
    rename_i ih
    obtain ⟨more, hmore, rfl⟩ := exists_ok_of_map h
    refine List.forall_mem_cons.mpr ⟨.name hstart ?_, ih hmore⟩
    exact fun d hd => List.mem_takeWhile_imp hd
  | case6 => cases h
  | case7 offset rest key after hkey _ _ _ ih =>
    obtain ⟨more, hmore, rfl⟩ := exists_ok_of_map h
    obtain ⟨inside, -, -, -, keyed, chars⟩ := propertyAt_eq_ok_iff.mp hkey
    exact List.forall_mem_cons.mpr ⟨.property keyed chars, ih hmore⟩
  | case8 offset rest word after hword _ _ _ _ ih =>
    obtain ⟨more, hmore, rfl⟩ := exists_ok_of_map h
    obtain ⟨-, named, chars⟩ := placeholderAt_eq_some_iff.mp hword
    exact List.forall_mem_cons.mpr ⟨.placeholder named chars, ih hmore⟩
  | case9 offset rest hword _ _ _ _ ih =>
    obtain ⟨more, hmore, rfl⟩ := exists_ok_of_map h
    exact List.forall_mem_cons.mpr ⟨.symbol _, ih hmore⟩
  | case10 offset c rest _ _ _ _ _ sign hsign ih =>
    obtain ⟨more, hmore, rfl⟩ := exists_ok_of_map h
    exact List.forall_mem_cons.mpr ⟨.symbol sign, ih hmore⟩
  | case11 => cases h

/-! ### Reading a token back

Nothing in a token depends on what comes after the space that follows it: a run of
characters ends there, and a percent sign in front of it starts no placeholder, since a
space is no part of a name. -/

/-- A text is empty or starts with a space. -/
def Apart (rest : List Char) : Prop := ∀ c, rest.head? = some c → c = ' '

theorem apart_nil : Apart [] := by
  intro c hc
  cases hc

theorem apart_space (rest : List Char) : Apart (' ' :: rest) := by
  intro c hc
  cases hc
  rfl

section Apart

variable {rest : List Char} (hapart : Apart rest)

include hapart

theorem span_apart {p : Char → Bool} (hspace : p ' ' = false) {run : List Char}
    (hrun : ∀ c ∈ run, p c = true) :
    (run ++ rest).takeWhile p = run ∧ (run ++ rest).dropWhile p = rest := by
  apply Decimal.span_append hrun
  intro c hc
  rw [hapart c hc]
  exact hspace

theorem placeholderAt_apart : placeholderAt rest = none := by
  rw [Option.eq_none_iff_forall_ne_some]
  rintro ⟨name, after⟩ h
  obtain ⟨hrest, named, chars⟩ := placeholderAt_eq_some_iff.mp h
  obtain ⟨c, word, rfl⟩ := List.exists_cons_of_ne_nil named
  subst hrest
  obtain rfl := hapart c rfl
  exact absurd (chars ' ' List.mem_cons_self) (by decide)

end Apart

/-! The first character of a token decides how it is read. -/

theorem isNumberChar_iff {c : Char} : isNumberChar c = true ↔ c.isDigit = true ∨ c = '.' := by
  rw [isNumberChar, Bool.or_eq_true, beq_iff_eq]

theorem range_of_isNumberChar {c : Char} (h : isNumberChar c = true) :
    46 ≤ c.toNat ∧ c.toNat ≤ 57 := by
  rw [isNumberChar_iff, Char.isDigit_iff_toNat] at h
  rcases h with ⟨hlow, hhigh⟩ | rfl
  · exact ⟨Nat.le_trans (by decide) hlow, hhigh⟩
  · decide

theorem range_of_isNameStart {c : Char} (h : isNameStart c = true) :
    65 ≤ c.toNat ∧ c.toNat ≤ 122 := by
  simp only [isNameStart, Char.isAlpha, Char.isUpper, Char.isLower, Bool.or_eq_true,
    Bool.and_eq_true, decide_eq_true_eq, beq_iff_eq, UInt32.le_iff_toNat_le, ge_iff_le] at h
  rcases h with (h | h) | rfl
  · exact ⟨h.1, Nat.le_trans h.2 (by decide)⟩
  · exact ⟨Nat.le_trans (by decide) h.1, h.2⟩
  · decide

theorem scan_space (offset : Nat) (rest : List Char) :
    scan offset (' ' :: rest) = scan (offset + 1) rest := by
  rw [scan]
  exact if_pos (by decide)

variable {rest : List Char} {tokens : List Token}

theorem scan_number {c : Char} {digits : List Char} {value : Float}
    (chars : ∀ d ∈ c :: digits, isNumberChar d = true)
    (spells : Decimal.readFloat? (String.ofList (c :: digits)) = some value)
    (hapart : Apart rest) (hrest : ∀ offset, scan offset rest = .ok tokens) (offset : Nat) :
    scan offset (c :: digits ++ rest) = .ok (.number value :: tokens) := by
  obtain ⟨hc, hdigits⟩ := List.forall_mem_cons.mp chars
  obtain ⟨htake, hdrop⟩ := span_apart hapart (by decide : isNumberChar ' ' = false) hdigits
  obtain ⟨hlow, hhigh⟩ := range_of_isNumberChar hc
  have hblank := Text.isBlank_of_range (by omega : 33 ≤ c.toNat) (by omega)
  rw [List.cons_append, scan, if_neg (by simp [hblank]), if_pos hc]
  dsimp only
  rw [htake, hdrop, spells]
  dsimp only
  rw [hrest]
  rfl

theorem scan_name {c : Char} {letters : List Char} (start : isNameStart c = true)
    (chars : ∀ d ∈ letters, isNameChar d = true) (hapart : Apart rest)
    (hrest : ∀ offset, scan offset rest = .ok tokens) (offset : Nat) :
    scan offset (c :: letters ++ rest) = .ok (.name (String.ofList (c :: letters)) :: tokens) := by
  obtain ⟨htake, hdrop⟩ := span_apart hapart (by decide : isNameChar ' ' = false) chars
  obtain ⟨hlow, hhigh⟩ := range_of_isNameStart start
  have hblank := Text.isBlank_of_range (by omega : 33 ≤ c.toNat) (by omega)
  have hnumber : ¬ isNumberChar c = true := by
    intro hc
    have hdigit := range_of_isNumberChar hc
    omega
  rw [List.cons_append, scan, if_neg (by simp [hblank]), if_neg hnumber, if_pos start]
  dsimp only
  rw [htake, hdrop, hrest]
  rfl

theorem scan_property {key : List Char} (keyed : key ≠ [])
    (chars : ∀ c ∈ key, isReferenceChar c = true)
    (hrest : ∀ offset, scan offset rest = .ok tokens) (offset : Nat) :
    scan offset ('\x7b' :: (key ++ '\x7d' :: rest)) =
      .ok (.reference (.property (String.ofList key)) :: tokens) := by
  have hkey := propertyAt_key keyed chars offset rest
  rw [scan, if_neg (by decide), if_neg (by decide), if_neg (by decide), if_pos rfl]
  split
  · rename_i e he
    rw [hkey] at he
    cases he
  · rename_i key' after hok
    rw [hkey] at hok
    cases hok
    rw [hrest]
    rfl

theorem scan_placeholder {word : List Char} (named : word ≠ [])
    (chars : ∀ c ∈ word, isReferenceChar c = true)
    (hrest : ∀ offset, scan offset rest = .ok tokens) (offset : Nat) :
    scan offset ('%' :: (word ++ '%' :: rest)) =
      .ok (.reference (.placeholder (String.ofList word)) :: tokens) := by
  have hword : placeholderAt (word ++ '%' :: rest) = some (word, rest) :=
    placeholderAt_eq_some_iff.mpr ⟨rfl, named, chars⟩
  rw [scan, if_neg (by decide), if_neg (by decide), if_neg (by decide), if_neg (by decide),
    if_pos rfl]
  split
  · rename_i word' after hsome
    rw [hword] at hsome
    cases hsome
    rw [hrest]
    rfl
  · rename_i hnone
    rw [hword] at hnone
    cases hnone

theorem scan_percent (hapart : Apart rest) (hrest : ∀ offset, scan offset rest = .ok tokens)
    (offset : Nat) : scan offset ('%' :: rest) = .ok (.symbol .percent :: tokens) := by
  have hword := placeholderAt_apart hapart
  rw [scan, if_neg (by decide), if_neg (by decide), if_neg (by decide), if_neg (by decide),
    if_pos rfl]
  split
  · rename_i word after hsome
    rw [hword] at hsome
    cases hsome
  · rw [hrest]
    rfl

theorem scan_symbol {sign : Symbol} (hapart : Apart rest)
    (hrest : ∀ offset, scan offset rest = .ok tokens) (offset : Nat) :
    scan offset (sign.char :: rest) = .ok (.symbol sign :: tokens) := by
  by_cases hpercent : sign = .percent
  · subst hpercent
    exact scan_percent hapart hrest offset
  · have hsign : Symbol.ofChar? sign.char = some sign := by
      cases sign with
      | percent => exact absurd rfl hpercent
      | _ => rfl
    have hother : Text.isBlank sign.char = false ∧ isNumberChar sign.char = false ∧
        isNameStart sign.char = false ∧ sign.char ≠ '\x7b' ∧ sign.char ≠ '%' := by
      cases sign with
      | percent => exact absurd rfl hpercent
      | _ => decide
    obtain ⟨hblank, hnumber, hname, hbrace, hremainder⟩ := hother
    rw [scan, if_neg (by simp [hblank]), if_neg (by simp [hnumber]), if_neg (by simp [hname]),
      if_neg hbrace, if_neg hremainder, hsign]
    dsimp only
    rw [hrest]
    rfl

/-- A token that is scanned is read back from its written form, whatever tokens follow. -/
theorem Scannable.scan_written {t : Token} (h : t.Scannable)
    (hfinite : ∀ value, t = .number value → value.isFinite = true) (hapart : Apart rest)
    (hrest : ∀ offset, scan offset rest = .ok tokens) (offset : Nat) :
    scan offset (t.written ++ rest) = .ok (t :: tokens) := by
  cases h with
  | @number digits value chars spells =>
    have hdigital : Decimal.Digital digits := fun c hc => isNumberChar_iff.mp (chars c hc)
    obtain ⟨m, e, hvalue⟩ :=
      Decimal.exists_finite_of_readFloat? hdigital spells (hfinite value rfl)
    obtain ⟨hnonempty, hplain⟩ := Decimal.digital_plain_float hvalue
    obtain ⟨c, more, hwritten⟩ := List.exists_cons_of_ne_nil hnonempty
    rw [Token.written, hwritten]
    rw [hwritten] at hplain
    refine scan_number (fun d hd => isNumberChar_iff.mpr (hplain d hd)) ?_ hapart hrest offset
    rw [← hwritten, String.ofList_toList]
    exact Decimal.readFloat?_plain hvalue
  | name start chars =>
    rw [Token.written, String.toList_ofList]
    exact scan_name start chars hapart hrest offset
  | property keyed chars =>
    rw [Token.written, Reference.written, String.toList_ofList, List.cons_append,
      List.cons_append, List.append_assoc]
    exact scan_property keyed chars hrest offset
  | placeholder named chars =>
    rw [Token.written, Reference.written, String.toList_ofList, List.cons_append,
      List.cons_append, List.append_assoc]
    exact scan_placeholder named chars hrest offset
  | symbol sign => exact scan_symbol hapart hrest offset

/-- Tokens as they are written, with one space between two of them. -/
def spaced (tokens : List Token) : String := " ".intercalate (tokens.map Token.text)

theorem spaced_cons (t : Token) (tokens : List Token) :
    (spaced (t :: tokens)).toList = t.written ++
      match tokens with
      | [] => []
      | _ => ' ' :: (spaced tokens).toList := by
  cases tokens with
  | nil => simp [spaced, Token.text]
  | cons u more => simp [spaced, Token.text, String.toList_intercalate]

theorem scan_spaced_of_scannable (h : ∀ t ∈ tokens, t.Scannable)
    (hfinite : ∀ value, .number value ∈ tokens → value.isFinite = true) (offset : Nat) :
    scan offset (spaced tokens).toList = .ok tokens := by
  induction tokens generalizing offset with
  | nil =>
    rw [show (spaced []).toList = [] from rfl, scan]
  | cons t more ih =>
    obtain ⟨ht, hmore⟩ := List.forall_mem_cons.mp h
    have hread := ih hmore fun value hvalue => hfinite value (List.mem_cons_of_mem t hvalue)
    have hnumber : ∀ value, t = .number value → value.isFinite = true := by
      rintro value rfl
      exact hfinite value List.mem_cons_self
    rw [spaced_cons]
    cases more with
    | nil =>
      refine ht.scan_written hnumber apart_nil ?_ offset
      intro offset
      rw [scan]
    | cons u rest =>
      refine ht.scan_written hnumber (apart_space _) ?_ offset
      intro offset
      rw [scan_space]
      exact hread _

/-- **Printing tokens and scanning them back is the identity.**  From each token on the text is
    read as that token and those after it, so the percent sign of an operator starts no
    placeholder and the one of a placeholder is no operator, whatever follows. -/
theorem scan_spaced {source : String} (hscan : scan 0 source.toList = .ok tokens)
    (hfinite : ∀ value, .number value ∈ tokens → value.isFinite = true) :
    scan 0 (spaced tokens).toList = .ok tokens ∧
      ∀ before t after, tokens = before ++ t :: after →
        ∀ offset, scan offset (spaced (t :: after)).toList = .ok (t :: after) := by
  have hscannable := scannable_of_scan hscan
  constructor
  · exact scan_spaced_of_scannable hscannable hfinite 0
  · rintro before t after rfl offset
    apply scan_spaced_of_scannable
    · intro u hu
      exact hscannable u (List.mem_append_right before hu)
    · intro value hvalue
      exact hfinite value (List.mem_append_right before hvalue)

theorem scan_spaced_remainder :
    ∃ tokens, scan 0 "7%%a%*2.5".toList = .ok tokens ∧ spaced tokens = "7 % %a% * 2.5" ∧
      scan 0 "7 % %a% * 2.5".toList = .ok tokens := by
  have hscan : scan 0 "7%%a%*2.5".toList = .ok [.number 7, .symbol .percent,
      .reference (.placeholder "a"), .symbol .times, .number 2.5] := by
    decide +kernel
  have hwritten : spaced [.number 7, .symbol .percent, .reference (.placeholder "a"),
      .symbol .times, .number 2.5] = "7 % %a% * 2.5" := by
    decide +kernel
  have hfinite : ∀ value, Token.number value ∈ [.number 7, .symbol .percent,
      .reference (.placeholder "a"), .symbol .times, .number 2.5] → value.isFinite = true := by
    intro value hvalue
    simp only [List.mem_cons, Token.number.injEq, List.not_mem_nil, reduceCtorEq, or_false,
      false_or] at hvalue
    rcases hvalue with rfl | rfl
    · decide +kernel
    · decide +kernel
  obtain ⟨hread, -⟩ := scan_spaced hscan hfinite
  rw [hwritten] at hread
  exact ⟨_, hscan, hwritten, hread⟩

end Token

end RuleEngine
