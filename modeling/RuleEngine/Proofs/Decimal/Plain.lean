/-
  RuleEngine/Proofs/Decimal/Plain.lean
  ====================================
  **Printed numbers are read back.**

  The plain text of a decimal is made of digits, with zeros appended or a point inserted.
  Such a text is no word for a number, and it is read as its digits and places say.  The
  shortest decimal of a float lies in the float's interval and reading rounds to nearest, so
  a float that is not negative is read back from its plain text (`readFloat?_plain`).
-/
import RuleEngine.Decimal.Text
import RuleEngine.Proofs.Decimal.Shortest

namespace RuleEngine.Decimal

/-! ### Reading digits and points -/

def Digital (cs : List Char) : Prop := ∀ c ∈ cs, c.isDigit = true ∨ c = '.'

theorem toLower_of_digital {cs : List Char} (h : Digital cs) : cs.map Char.toLower = cs := by
  refine (List.map_congr_left ?_).trans (List.map_id cs)
  intro c hc
  refine Char.toLower_eq_of_not_isUpper ?_
  rcases h c hc with hdigit | rfl
  · intro hupper
    simp only [Char.isDigit, Char.isUpper, Bool.and_eq_true, decide_eq_true_eq,
      UInt32.le_iff_toNat_le, ge_iff_le] at hdigit hupper
    exact absurd (Nat.le_trans hupper.1 hdigit.2) (by decide)
  · decide

theorem splitSign_of_digital {cs : List Char} (h : Digital cs) : splitSign cs = (false, cs) := by
  unfold splitSign
  split
  · exact absurd (h '-' List.mem_cons_self) (by decide)
  · exact absurd (h '+' List.mem_cons_self) (by decide)
  · rfl

/-- Digits and points are no word for a number. -/
theorem readFloat?_of_digital {cs : List Char} (h : Digital cs) :
    readFloat? (String.ofList cs) = readUnsigned? false cs := by
  have hword : ∀ {word : String} {c : Char}, c ∈ word.toList → ¬ (c.isDigit = true ∨ c = '.') →
      String.ofList cs ≠ word := by
    rintro word c hc hnot rfl
    rw [String.toList_ofList] at hc
    exact hnot (h c hc)
  unfold readFloat?
  rw [String.toList_ofList, splitSign_of_digital h]
  dsimp only
  rw [toLower_of_digital h]
  split
  · rename_i heq
    exact absurd heq (hword (c := 'i') (by decide) (by decide))
  · rename_i heq
    exact absurd heq (hword (c := 'i') (by decide) (by decide))
  · rename_i heq
    exact absurd heq (hword (c := 'n') (by decide) (by decide))
  · rfl

/-- A run of characters ends where none of its kind follows. -/
theorem span_append {p : Char → Bool} {run rest : List Char} (hrun : ∀ c ∈ run, p c = true)
    (hrest : ∀ c, rest.head? = some c → p c = false) :
    (run ++ rest).takeWhile p = run ∧ (run ++ rest).dropWhile p = rest := by
  have hnone : rest.takeWhile p = [] ∧ rest.dropWhile p = rest := by
    cases rest with
    | nil => exact ⟨rfl, rfl⟩
    | cons c more => simp [hrest c rfl]
  rw [List.takeWhile_append_of_pos hrun, List.dropWhile_append_of_pos hrun, hnone.1, hnone.2,
    List.append_nil]
  exact ⟨rfl, rfl⟩

theorem exists_nearest_of_readUnsigned? {negative : Bool} {cs : List Char} {x : Float}
    (h : readUnsigned? negative cs = some x) :
    ∃ digits exponent, x = nearest negative digits exponent := by
  unfold readUnsigned? at h
  dsimp only at h
  split at h
  all_goals
    split at h
    · cases h
    · obtain ⟨exponent, -, rfl⟩ := Option.map_eq_some_iff.mp h
      exact ⟨_, _, rfl⟩

section Digits

variable {whole places rest : List Char} (hwhole : ∀ c ∈ whole, c.isDigit = true)

include hwhole

theorem splitDigits_append (hrest : ∀ c, rest.head? = some c → c.isDigit = false) :
    splitDigits (whole ++ rest) = (whole, rest) := by
  obtain ⟨htake, hdrop⟩ := span_append hwhole hrest
  rw [splitDigits, htake, hdrop]

theorem splitDigits_self : splitDigits whole = (whole, []) := by
  have hnone : ∀ c, ([] : List Char).head? = some c → c.isDigit = false := by
    intro c hc
    cases hc
  have hsplit := splitDigits_append hwhole hnone
  rwa [List.append_nil] at hsplit

theorem readUnsigned?_whole (hne : whole ≠ []) :
    readUnsigned? false whole = some (nearest false (digitsValue 0 whole) 0) := by
  simp [readUnsigned?, splitDigits_self hwhole, hne, readExponent?]

theorem readUnsigned?_pointed (hne : whole ≠ []) (hplaces : ∀ c ∈ places, c.isDigit = true) :
    readUnsigned? false (whole ++ '.' :: places) =
      some (nearest false (digitsValue 0 (whole ++ places)) (-places.length)) := by
  have hsplit : splitDigits (whole ++ '.' :: places) = (whole, '.' :: places) := by
    refine splitDigits_append hwhole ?_
    intro c hc
    cases hc
    decide
  simp [readUnsigned?, hsplit, splitDigits_self hplaces, hne, readExponent?]

end Digits

/-! ### Writing digits and points -/

theorem digitsValue_toDigits (n : ℕ) : digitsValue 0 (Nat.toDigits 10 n) = n :=
  Nat.ofDigitChars_ten_toDigits

theorem isDigit_of_mem_toDigits {n : ℕ} : ∀ c ∈ Nat.toDigits 10 n, c.isDigit = true :=
  fun _ hc => Nat.isDigit_of_mem_toDigits (by decide) (by decide) hc

theorem isDigit_of_mem_zeros {n k : ℕ} :
    ∀ c ∈ Nat.toDigits 10 n ++ List.replicate k '0', c.isDigit = true := by
  intro c hc
  rcases List.mem_append.mp hc with hdigit | hzero
  · exact isDigit_of_mem_toDigits c hdigit
  · rw [List.eq_of_mem_replicate hzero]
    decide

def placeDigits (width n : ℕ) : List Char :=
  List.replicate (width - (Nat.toDigits 10 n).length) '0' ++ Nat.toDigits 10 n

theorem isDigit_of_mem_placeDigits {width n : ℕ} :
    ∀ c ∈ placeDigits width n, c.isDigit = true := by
  intro c hc
  rcases List.mem_append.mp hc with hzero | hdigit
  · rw [List.eq_of_mem_replicate hzero]
    decide
  · exact isDigit_of_mem_toDigits c hdigit

theorem length_placeDigits {width n : ℕ} (hwidth : 0 < width) (hn : n < 10 ^ width) :
    (placeDigits width n).length = width := by
  have hlength := (Nat.length_toDigits_le_iff (by decide) hwidth).mpr hn
  unfold placeDigits
  rw [List.length_append, List.length_replicate]
  omega

theorem digitsValue_placeDigits {width n acc : ℕ} (hwidth : 0 < width) (hn : n < 10 ^ width) :
    digitsValue acc (placeDigits width n) = 10 ^ width * acc + n := by
  have hzero : digitsValue 0 (placeDigits width n) = n := by
    refine (Nat.ofDigitChars_append 0).trans ?_
    rw [Nat.ofDigitChars_replicate_zero, Nat.mul_zero]
    exact digitsValue_toDigits n
  refine Nat.ofDigitChars_eq_ofDigitChars_zero.trans ?_
  rw [length_placeDigits hwidth hn]
  exact congrArg _ hzero

theorem toList_pointed (n places : ℕ) :
    (pointed n places).toList = Nat.toDigits 10 (n / Nat.pow 10 places) ++
      '.' :: placeDigits places (n % Nat.pow 10 places) := by
  unfold pointed padded zeros placeDigits
  simp only [String.toList_append, Nat.toString_eq_ofList_toDigits, String.toList_ofList,
    String.length_ofList]
  rw [List.append_assoc]
  rfl

theorem toList_plain_ofNat {digits : ℕ} (hdigits : digits ≠ 0) (k : ℕ) :
    (Shortest.plain ⟨digits, .ofNat k⟩).toList =
      Nat.toDigits 10 digits ++ List.replicate k '0' := by
  simp [Shortest.plain, zeros, hdigits]

theorem digital_plain {d : Shortest} (hdigits : d.digits ≠ 0) : Digital d.plain.toList := by
  obtain ⟨digits, _ | _⟩ := d
  · rename_i k
    rw [toList_plain_ofNat hdigits]
    exact fun c hc => .inl (isDigit_of_mem_zeros c hc)
  · rename_i k
    show Digital (pointed digits (k + 1)).toList
    rw [toList_pointed]
    intro c hc
    rcases List.mem_append.mp hc with hdigit | hrest
    · exact .inl (isDigit_of_mem_toDigits c hdigit)
    · rcases List.mem_cons.mp hrest with rfl | hplace
      · exact .inr rfl
      · exact .inl (isDigit_of_mem_placeDigits c hplace)

/-- The plain text of a decimal is read as the float nearest to it. -/
theorem readFloat?_plain_shortest {d : Shortest} {m : ℕ} {e : ℤ} (hc : Canonical m e)
    (hd : RoundsTo m e d.value) :
    readFloat? d.plain = some (.ofModel (.pack (.finite .positive m e hc.pos))) := by
  have hdigits : d.digits ≠ 0 := (hd.digits_pos hc).ne'
  rw [← String.ofList_toList (s := d.plain), readFloat?_of_digital (digital_plain hdigits)]
  obtain ⟨digits, _ | _⟩ := d
  · -- an integral decimal: zeros are appended
    rename_i k
    have hread : digitsValue 0 (Nat.toDigits 10 digits ++ List.replicate k '0') =
        10 ^ k * digits := by
      refine (Nat.ofDigitChars_append 0).trans ?_
      rw [Nat.ofDigitChars_ten_toDigits, Nat.ofDigitChars_replicate_zero]
    rw [toList_plain_ofNat hdigits, readUnsigned?_whole isDigit_of_mem_zeros
      (List.append_ne_nil_of_left_ne_nil Nat.toDigits_ne_nil _), hread]
    refine congrArg some (nearest_eq hc ?_)
    have hvalue : ((10 ^ k * digits : ℕ) : ℚ) * (10 : ℚ) ^ (0 : ℤ) =
        (Shortest.mk digits (.ofNat k)).value := by
      unfold Shortest.value
      rw [Int.ofNat_eq_natCast, zpow_natCast, zpow_zero]
      push_cast
      ring
    exact hvalue ▸ hd
  · -- a point is inserted
    rename_i k
    have hmod : digits % Nat.pow 10 (k + 1) < 10 ^ (k + 1) :=
      Nat.mod_lt digits (Nat.pow_pos (by decide))
    have hread : digitsValue 0 (Nat.toDigits 10 (digits / Nat.pow 10 (k + 1)) ++
        placeDigits (k + 1) (digits % Nat.pow 10 (k + 1))) = digits := by
      refine (Nat.ofDigitChars_append 0).trans ?_
      rw [Nat.ofDigitChars_ten_toDigits]
      refine (digitsValue_placeDigits (Nat.succ_pos k) hmod).trans ?_
      exact Nat.div_add_mod digits (10 ^ (k + 1))
    show readUnsigned? false (pointed digits (k + 1)).toList = _
    rw [toList_pointed, readUnsigned?_pointed isDigit_of_mem_toDigits Nat.toDigits_ne_nil
      isDigit_of_mem_placeDigits, length_placeDigits (Nat.succ_pos k) hmod, hread]
    exact congrArg some (nearest_eq hc hd)

/-! ### Floats -/

section Floats

open Float.Model.UnpackedFloat

variable {x : Float} {m : ℕ} {e : ℤ}

theorem ofFloat_finite (hx : Value.ofFloat x = .finite false m e) :
    (m = 0 ∧ e = 0 ∧ x.toModel.unpack = .zero .positive) ∨
      ∃ hc : Canonical m e, x.toModel.unpack = .finite .positive m e hc.pos := by
  unfold Value.ofFloat at hx
  split at hx <;> rename_i hunpack
  all_goals cases hx
  · exact .inl ⟨rfl, rfl, hunpack⟩
  · exact .inr ⟨canonical_of_unpack hunpack, hunpack⟩

theorem plain_zero (hx : Value.ofFloat x = .finite false 0 0) : plain x = "0" := by
  unfold plain
  rw [hx]
  rfl

theorem plain_shortest (hc : Canonical m e) (hx : Value.ofFloat x = .finite false m e) :
    plain x = (shortest .up m e).plain := by
  obtain ⟨k, rfl⟩ := Nat.exists_eq_succ_of_ne_zero hc.pos.ne'
  unfold plain
  rw [hx]
  exact String.empty_append

/-- **Numbers are read back as they are printed.** -/
theorem readFloat?_plain (hx : Value.ofFloat x = .finite false m e) :
    readFloat? (plain x) = some x := by
  have hself := ofModel_pack_unpack x
  rcases ofFloat_finite hx with ⟨rfl, rfl, hunpack⟩ | ⟨hc, hunpack⟩
  · rw [plain_zero hx]
    rw [hunpack] at hself
    rw [← hself]
    decide +kernel
  · rw [plain_shortest hc hx, readFloat?_plain_shortest hc (roundsTo_shortest .up hc), ← hunpack,
      hself]

theorem digital_plain_float (hx : Value.ofFloat x = .finite false m e) :
    (plain x).toList ≠ [] ∧ Digital (plain x).toList := by
  constructor
  · intro hempty
    have hread := readFloat?_plain hx
    rw [← String.ofList_toList (s := plain x), hempty] at hread
    cases hread
  · rcases ofFloat_finite hx with ⟨rfl, rfl, hunpack⟩ | ⟨hc, hunpack⟩
    · rw [plain_zero hx]
      intro c hc
      obtain rfl := List.mem_singleton.mp hc
      exact .inl (by decide)
    · rw [plain_shortest hc hx]
      exact digital_plain ((roundsTo_shortest .up hc).digits_pos hc).ne'

/-- A number that digits and points spell is not negative. -/
theorem exists_finite_of_readFloat? {cs : List Char} (hcs : Digital cs)
    (h : readFloat? (String.ofList cs) = some x) (hfinite : x.isFinite = true) :
    ∃ m e, Value.ofFloat x = .finite false m e := by
  rw [readFloat?_of_digital hcs] at h
  obtain ⟨digits, exponent, rfl⟩ := exists_nearest_of_readUnsigned? h
  exact exists_finite_of_plus (plus_nearest digits exponent) hfinite

end Floats

end RuleEngine.Decimal
