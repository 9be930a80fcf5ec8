/-
  RuleEngine/Proofs/Decimal/Scientific.lean
  =========================================
  **Reading a decimal rounds to nearest.**

  A decimal is formed with one rounding: small digits and small powers of ten are floats, and
  their product or quotient is rounded; otherwise the product or quotient of integers is.
  Products are exact before they are rounded, and a quotient is formed with enough bits that
  its integer part and the place of its remainder decide (`mul_eq`, `div_eq`).  So a decimal
  that lies in the interval of a float is read as that float (`nearest_eq`), and a decimal
  without a minus sign is never read as a negative number (`plus_nearest`).
-/
import RuleEngine.Decimal.Reader
import RuleEngine.Proofs.Decimal.Rounding

namespace RuleEngine.Decimal

open Float.Model Float.Model.UnpackedFloat

/-! ### Exact operands -/

theorem holds_exact (n : ℕ) : Holds (.ofMantissaAndAccuracy n .exact) n := by
  refine ⟨0, le_refl 0, by norm_num, ?_, ?_⟩
  · simp [ExtendedMantissa.ofMantissaAndAccuracy]
  · simp [ExtendedMantissa.ofMantissaAndAccuracy]

/-- A quotient is held by its integer part and the place of the remainder. -/
theorem holds_quotient (n : ℕ) {d : ℕ} (hd : 0 < d) :
    Holds (.ofMantissaAndAccuracy (n / d) (accuracyOfFraction (n % d) d)) (n / d : ℚ) := by
  have hd' : (0 : ℚ) < d := by exact_mod_cast hd
  have hvalue : (n / d : ℚ) = (n / d : ℕ) + ((n % d : ℕ) : ℚ) / d := by
    have hsplit : (n : ℚ) = d * (n / d : ℕ) + (n % d : ℕ) := by
      exact_mod_cast (Nat.div_add_mod n d).symm
    rw [hsplit, add_div, mul_div_cancel_left₀ _ hd'.ne']
  have hmod := Nat.mod_lt n hd
  rw [hvalue]
  generalize n / d = q
  generalize n % d = r at hmod
  have hless : (r : ℚ) / d < 1 := (div_lt_one hd').mpr (by exact_mod_cast hmod)
  by_cases hzero : r = 0
  · subst hzero
    simpa [accuracyOfFraction] using holds_exact q
  · have hpos : (0 : ℚ) < (r : ℚ) / d := div_pos (by exact_mod_cast Nat.pos_of_ne_zero hzero) hd'
    rw [accuracyOfFraction, if_neg hzero]
    rcases hcompare : compare (2 * r) d with _ | _ | _
    · have hlt : (2 * r : ℚ) < d := by exact_mod_cast Nat.compare_eq_lt.mp hcompare
      have hhalf : (r : ℚ) / d < 1 / 2 := by
        rw [div_lt_div_iff₀ hd' two_pos]
        linarith
      exact ⟨r / d, hpos.le, hhalf, iff_of_true rfl hpos, by
        simp [ExtendedMantissa.ofMantissaAndAccuracy]⟩
    · have heq : (2 * r : ℚ) = d := by exact_mod_cast Nat.compare_eq_eq.mp hcompare
      have hhalf : (r : ℚ) / d = 1 / 2 := by
        rw [div_eq_div_iff hd'.ne' two_ne_zero]
        linarith
      refine ⟨0, le_refl 0, by norm_num, ?_, ?_⟩
      · simp [ExtendedMantissa.ofMantissaAndAccuracy]
      · rw [hhalf]
        simp [ExtendedMantissa.ofMantissaAndAccuracy]
    · have hgt : (d : ℚ) < 2 * r := by exact_mod_cast Nat.compare_eq_gt.mp hcompare
      have hhalf : 1 / 2 < (r : ℚ) / d := by
        rw [div_lt_div_iff₀ two_pos hd']
        linarith
      refine ⟨r / d - 1 / 2, by linarith, by linarith, iff_of_true rfl (by linarith), ?_⟩
      simp [ExtendedMantissa.ofMantissaAndAccuracy]

/-! ### Products and quotients -/

section Operations

variable {s₁ s₂ : Sign} {m₁ m₂ m : ℕ} {e₁ e₂ e : ℤ} {h₁ : 0 < m₁} {h₂ : 0 < m₂}

/-- The product of two numbers is the one that their exact product rounds to. -/
theorem mul_eq (hbits : 2 ^ 52 ≤ m₁ * m₂) (hc : Canonical m e)
    (hx : RoundsTo m e (m₁ * (2 : ℚ) ^ e₁ * (m₂ * (2 : ℚ) ^ e₂))) :
    mul .binary64 (.finite s₁ m₁ e₁ h₁) (.finite s₂ m₂ e₂ h₂) = .finite (s₁ * s₂) m e hc.pos := by
  have hlog : 52 ≤ (m₁ * m₂).log2 := (Nat.le_log2 (Nat.mul_pos h₁ h₂).ne').mpr hbits
  refine roundWithAccuracy_eq (holds_exact (m₁ * m₂)) (.inl hlog) hc ?_
  have hproduct : ((m₁ * m₂ : ℕ) : ℚ) * (2 : ℚ) ^ (e₁ + e₂) =
      m₁ * (2 : ℚ) ^ e₁ * (m₂ * (2 : ℚ) ^ e₂) := by
    rw [zpow_add₀ two_ne_zero]
    push_cast
    ring
  rwa [hproduct]

theorem le_log2_quotient {n d shift : ℕ} (hn : 0 < n) (hd : 0 < d)
    (henough : d.log2 + 53 ≤ n.log2 + shift) : 52 ≤ ((n <<< shift) / d).log2 := by
  have hquotient : 2 ^ 52 ≤ (n <<< shift) / d := by
    rw [Nat.le_div_iff_mul_le hd, Nat.shiftLeft_eq]
    calc 2 ^ 52 * d ≤ 2 ^ 52 * 2 ^ (d.log2 + 1) :=
          Nat.mul_le_mul_left _ (Nat.le_of_lt Nat.lt_log2_self)
      _ = 2 ^ (d.log2 + 53) := by rw [← Nat.pow_add]; congr 1; omega
      _ ≤ 2 ^ (n.log2 + shift) := Nat.pow_le_pow_right two_pos henough
      _ ≤ n * 2 ^ shift := by
          rw [Nat.pow_add]
          exact Nat.mul_le_mul_right _ (Nat.log2_self_le hn.ne')
  exact (Nat.le_log2 (Nat.lt_of_lt_of_le (by decide) hquotient).ne').mpr hquotient

/-- A quotient is formed with enough bits for its rounding. -/
theorem divCore_eq (e₁ e₂ : ℤ) (h₁ : 0 < m₁) (h₂ : 0 < m₂) : ∃ (shift : ℕ) (target : ℤ),
    divCore .binary64 m₁ e₁ m₂ e₂ =
        ((m₁ <<< shift) / m₂, target, accuracyOfFraction ((m₁ <<< shift) % m₂) m₂) ∧
      target + shift = e₁ - e₂ ∧ (52 ≤ ((m₁ <<< shift) / m₂).log2 ∨ target ≤ -1074) := by
  let target := min (e₁ - e₂) (max (totalExponent m₁ e₁ - totalExponent m₂ e₂ - 53) (-1074))
  obtain ⟨shift, hshift⟩ := Int.le.dest (min_le_left (e₁ - e₂) _ : target ≤ e₁ - e₂)
  refine ⟨shift, target, ?_, hshift, ?_⟩
  · have hamount : (e₁ - e₂ - target).toNat = shift := by omega
    unfold divCore
    rw [targetExponent_binary64]
    dsimp only
    rw [show min (e₁ - e₂) (max (totalExponent m₁ e₁ - totalExponent m₂ e₂ - 53) (-1074)) = target
      from rfl, hamount]
  · by_cases hleast : target ≤ -1074
    · exact .inr hleast
    · left
      apply le_log2_quotient h₁ h₂
      simp only [target, totalExponent] at hshift hleast
      omega

/-- The quotient of two numbers is the one that their exact quotient rounds to. -/
theorem div_eq (hc : Canonical m e)
    (hx : RoundsTo m e (m₁ * (2 : ℚ) ^ e₁ / (m₂ * (2 : ℚ) ^ e₂))) :
    div .binary64 (.finite s₁ m₁ e₁ h₁) (.finite s₂ m₂ e₂ h₂) = .finite (s₁ / s₂) m e hc.pos := by
  obtain ⟨shift, target, hcore, hshift, hbits⟩ := divCore_eq e₁ e₂ h₁ h₂
  have hvalue : ((m₁ <<< shift : ℕ) / m₂ : ℚ) * (2 : ℚ) ^ target =
      m₁ * (2 : ℚ) ^ e₁ / (m₂ * (2 : ℚ) ^ e₂) := by
    have hpowers : (2 : ℚ) ^ shift * (2 : ℚ) ^ target = (2 : ℚ) ^ e₁ / (2 : ℚ) ^ e₂ := by
      rw [← zpow_natCast, ← zpow_add₀ two_ne_zero, ← zpow_sub₀ two_ne_zero]
      congr 1
      omega
    rw [Nat.shiftLeft_eq]
    push_cast
    calc (m₁ : ℚ) * 2 ^ shift / m₂ * (2 : ℚ) ^ target
        = m₁ / m₂ * ((2 : ℚ) ^ shift * (2 : ℚ) ^ target) := by ring
      _ = m₁ / m₂ * ((2 : ℚ) ^ e₁ / (2 : ℚ) ^ e₂) := by rw [hpowers]
      _ = m₁ * (2 : ℚ) ^ e₁ / (m₂ * (2 : ℚ) ^ e₂) := by rw [div_mul_div_comm]
  unfold UnpackedFloat.div
  dsimp only
  rw [hcore]
  exact roundWithAccuracy_eq (holds_quotient (m₁ <<< shift) h₂) hbits hc (hvalue ▸ hx)

end Operations

/-! ### Reading a decimal -/

/-- An integer of at most 53 bits, shifted until it has all of them. -/
theorem canonical_shiftLeft {n : ℕ} {j : ℤ} (hpos : 0 < n) (hlt : n < 2 ^ 53) (hlow : -1022 ≤ j)
    (hhigh : j ≤ 971) :
    Canonical (n <<< (52 - n.log2)) (j - (52 - n.log2 : ℕ)) ∧ 2 ^ 52 ≤ n <<< (52 - n.log2) ∧
      ((n <<< (52 - n.log2) : ℕ) : ℚ) * (2 : ℚ) ^ (j - (52 - n.log2 : ℕ)) = n * (2 : ℚ) ^ j := by
  have hlog := log2_le hlt
  obtain ⟨k, hk⟩ := Nat.exists_eq_add_of_le hlog
  have hwidth : 52 - n.log2 = k := by omega
  have hwide : 2 ^ 52 ≤ n <<< k := by
    rw [Nat.shiftLeft_eq, hk, Nat.pow_add]
    exact Nat.mul_le_mul_right _ (Nat.log2_self_le hpos.ne')
  have hbits : n <<< k < 2 ^ 53 := by
    have hself : n < 2 ^ (n.log2 + 1) := Nat.lt_log2_self
    calc n <<< k = n * 2 ^ k := Nat.shiftLeft_eq n k
      _ < 2 ^ (n.log2 + 1) * 2 ^ k := Nat.mul_lt_mul_of_pos_right hself (Nat.two_pow_pos k)
      _ = 2 ^ 53 := by rw [← Nat.pow_add]; congr 1; omega
  rw [hwidth]
  refine ⟨⟨by omega, hbits, by omega, by omega, .inl hwide⟩, hwide, ?_⟩
  rw [Nat.shiftLeft_eq, zpow_sub₀ two_ne_zero, zpow_natCast]
  push_cast
  field_simp

/-- Small integers are floats. -/
theorem unpack_toFloat {n : ℕ} (hpos : 0 < n) (hlt : n < 2 ^ 53) :
    ∃ m e h, n.toUInt64.toFloat.toModel.unpack = .finite .positive m e h ∧
      2 ^ 52 ≤ m ∧ (m : ℚ) * (2 : ℚ) ^ e = n := by
  obtain ⟨hc, hwide, hvalue⟩ := canonical_shiftLeft (j := 0) hpos hlt (by decide) (by decide)
  have hround : UnpackedFloat.ofUInt64 .binary64 n.toUInt64 =
      .finite .positive (n <<< (52 - n.log2)) (0 - (52 - n.log2 : ℕ)) hc.pos := by
    have hlog := log2_le hlt
    have hnat : n.toUInt64.toNat = n := Nat.mod_eq_of_lt (Nat.lt_trans hlt (by decide))
    have hamount : (0 - Format.binary64.targetExponent (totalExponent n 0)).toNat =
        52 - n.log2 := by
      rw [targetExponent_binary64, totalExponent]
      omega
    unfold UnpackedFloat.ofUInt64 UnpackedFloat.ofNat UnpackedFloat.ofInt UnpackedFloat.normalize
    rw [hnat, Int.compare_eq_gt.mpr (by omega)]
    unfold UnpackedFloat.round decreaseExponent
    dsimp only
    rw [Int.toNat_natCast, hamount]
    refine roundWithAccuracy_eq (holds_exact _) (.inl ?_) hc roundsTo_self
    exact (Nat.le_log2 hc.pos.ne').mpr hwide
  refine ⟨_, 0 - (52 - n.log2 : ℕ), hc.pos, ?_, hwide, by simpa using hvalue⟩
  show (Float.Model.pack (UnpackedFloat.ofUInt64 .binary64 n.toUInt64)).unpack = _
  rw [hround, unpack_pack hc]

/-- The powers of ten that are floats are the floats of their odd parts, shifted. -/
theorem powerOfTen_eq : ∀ k : Fin Float.exactlyRepresentablePowersOfTen.size,
    ∃ h : 0 < 5 ^ k.val <<< (52 - (5 ^ k.val).log2),
      Float.exactlyRepresentablePowersOfTen[k.val] = .ofModel (.pack (.finite .positive
        (5 ^ k.val <<< (52 - (5 ^ k.val).log2)) (k.val - (52 - (5 ^ k.val).log2 : ℕ)) h)) := by
  decide +kernel

/-- The powers of ten of the table are exact. -/
theorem unpack_powerOfTen {k : ℕ} (h : k < Float.exactlyRepresentablePowersOfTen.size) :
    ∃ m e h', Float.exactlyRepresentablePowersOfTen[k].toModel.unpack =
      .finite .positive m e h' ∧ 2 ^ 52 ≤ m ∧ (m : ℚ) * (2 : ℚ) ^ e = 10 ^ k := by
  have hk : k < 23 := h
  have hfive : 5 ^ k < 2 ^ 53 :=
    Nat.lt_of_le_of_lt (Nat.pow_le_pow_right (by decide) (Nat.le_of_lt_succ hk)) (by decide)
  obtain ⟨hc, hwide, hvalue⟩ := canonical_shiftLeft (j := k)
    (Nat.pow_pos (by decide : 0 < 5)) hfive (by omega) (by omega)
  obtain ⟨_, htable⟩ := powerOfTen_eq ⟨k, h⟩
  refine ⟨_, k - (52 - (5 ^ k).log2 : ℕ), hc.pos, ?_, hwide, ?_⟩
  · exact (congrArg (fun power : Float => power.toModel.unpack) htable).trans (unpack_pack hc)
  · rw [hvalue, zpow_natCast]
    push_cast
    rw [← mul_pow]
    norm_num

section Scientific

variable {digits m : ℕ} {exponent e : ℤ}

theorem unpackedOfScientific_eq (hdigits : 0 < digits) (hlow : -2048 - digits.log2 ≤ exponent)
    (hhigh : exponent ≤ 2048) (hc : Canonical m e)
    (hx : RoundsTo m e (digits * (10 : ℚ) ^ exponent)) :
    UnpackedFloat.ofScientific .binary64 digits exponent = .finite .positive m e hc.pos := by
  have hzero : (2 : ℚ) ^ (0 : ℤ) = 1 := zpow_zero 2
  unfold UnpackedFloat.ofScientific
  rw [dif_neg hdigits.ne', if_neg (by simp; omega), if_neg (by simp; omega)]
  by_cases hsign : 0 ≤ exponent
  · obtain ⟨k, rfl⟩ := Int.eq_ofNat_of_zero_le hsign
    rw [if_pos hsign]
    simp only [Int.toNat_natCast]
    have hbits : 2 ^ 52 ≤ digits <<< 53 * 10 ^ k := by
      have hshifted : 2 ^ 52 ≤ digits <<< 53 := by
        rw [Nat.shiftLeft_eq]
        omega
      exact Nat.le_trans hshifted (Nat.le_mul_of_pos_right _ (Nat.pow_pos (by decide)))
    have hvalue : ((digits <<< 53 : ℕ) : ℚ) * (2 : ℚ) ^ (-53 : ℤ) *
        ((10 ^ k : ℕ) * (2 : ℚ) ^ (0 : ℤ)) = digits * (10 : ℚ) ^ (k : ℤ) := by
      rw [Nat.shiftLeft_eq, zpow_natCast, hzero, zpow_neg]
      push_cast
      norm_num
      ring
    rw [← hvalue] at hx
    exact mul_eq hbits hc hx
  · rw [if_neg hsign]
    obtain ⟨k, rfl⟩ := Int.exists_eq_neg_ofNat (Int.le_of_not_le hsign)
    simp only [neg_neg, Int.toNat_natCast]
    have hvalue : (digits : ℚ) * (2 : ℚ) ^ (0 : ℤ) / ((10 ^ k : ℕ) * (2 : ℚ) ^ (0 : ℤ)) =
        digits * (10 : ℚ) ^ (-k : ℤ) := by
      rw [hzero, zpow_neg, zpow_natCast]
      push_cast
      ring
    rw [← hvalue] at hx
    exact div_eq hc hx

/-- The quick way for small digits and a small power of ten: one product or quotient. -/
theorem toFloat_mul_eq {k : ℕ} (hdigits : 0 < digits) (hsmall : digits < 2 ^ 53)
    (hk : k < Float.exactlyRepresentablePowersOfTen.size) (hc : Canonical m e)
    (hx : RoundsTo m e (digits * 10 ^ k)) :
    digits.toUInt64.toFloat * Float.exactlyRepresentablePowersOfTen[k] =
      .ofModel (.pack (.finite .positive m e hc.pos)) := by
  obtain ⟨m₁, e₁, h₁, hfirst, hwide, hvalue₁⟩ := unpack_toFloat hdigits hsmall
  obtain ⟨m₂, e₂, h₂, hsecond, -, hvalue₂⟩ := unpack_powerOfTen hk
  show Float.ofModel (.pack (UnpackedFloat.mul _ _ _)) = _
  rw [← hvalue₁, ← hvalue₂] at hx
  rw [hfirst, hsecond, mul_eq (Nat.le_trans hwide (Nat.le_mul_of_pos_right _ h₂)) hc hx]
  rfl

/-- Few digits divided by a power of ten that is exact are the float next to the quotient. -/
theorem toFloat_div_eq {k : ℕ} (hdigits : 0 < digits) (hsmall : digits < 2 ^ 53)
    (hk : k < Float.exactlyRepresentablePowersOfTen.size) (hc : Canonical m e)
    (hx : RoundsTo m e (digits / 10 ^ k)) :
    digits.toUInt64.toFloat / Float.exactlyRepresentablePowersOfTen[k] =
      .ofModel (.pack (.finite .positive m e hc.pos)) := by
  obtain ⟨m₁, e₁, h₁, hfirst, -, hvalue₁⟩ := unpack_toFloat hdigits hsmall
  obtain ⟨m₂, e₂, h₂, hsecond, -, hvalue₂⟩ := unpack_powerOfTen hk
  show Float.ofModel (.pack (UnpackedFloat.div _ _ _)) = _
  rw [← hvalue₁, ← hvalue₂] at hx
  rw [hfirst, hsecond, div_eq hc hx]
  rfl

/-- **A decimal gives the float in whose interval it lies.** -/
theorem ofScientific_eq (hdigits : 0 < digits) (hlow : -2048 - digits.log2 ≤ exponent)
    (hhigh : exponent ≤ 2048) (hc : Canonical m e)
    (hx : RoundsTo m e (digits * (10 : ℚ) ^ exponent)) :
    Float.ofScientific digits (exponent < 0) exponent.natAbs =
      .ofModel (.pack (.finite .positive m e hc.pos)) := by
  unfold Float.ofScientific
  by_cases hfast : digits < 2 ^ 53 ∧ exponent.natAbs ≤ 22
  · have hindex : exponent.natAbs < Float.exactlyRepresentablePowersOfTen.size :=
      Nat.lt_succ_of_le hfast.2
    rw [dif_pos hfast]
    dsimp only
    rcases lt_or_ge exponent 0 with hsign | hsign
    · have hpower : (10 : ℚ) ^ exponent = ((10 : ℚ) ^ exponent.natAbs)⁻¹ := by
        rw [← zpow_natCast, ← zpow_neg, Int.ofNat_natAbs_of_nonpos hsign.le, neg_neg]
      rw [hpower, ← div_eq_mul_inv] at hx
      rw [if_pos (decide_eq_true hsign)]
      exact toFloat_div_eq hdigits hfast.1 hindex hc hx
    · have hpower : (10 : ℚ) ^ exponent = (10 : ℚ) ^ exponent.natAbs := by
        rw [← zpow_natCast, Int.natAbs_of_nonneg hsign]
      rw [hpower] at hx
      rw [if_neg (by simpa using hsign)]
      exact toFloat_mul_eq hdigits hfast.1 hindex hc hx
  · have hexponent : (if (decide (exponent < 0)) = true then Int.negOfNat exponent.natAbs
        else Int.ofNat exponent.natAbs) = exponent := by
      by_cases hsign : exponent < 0
      · rw [if_pos (decide_eq_true hsign), Int.negOfNat_eq, Int.ofNat_eq_natCast]
        omega
      · rw [if_neg (by simpa using hsign), Int.ofNat_eq_natCast]
        omega
    rw [dif_neg hfast]
    dsimp only
    rw [hexponent]
    show Float.ofModel (.pack (UnpackedFloat.ofScientific _ _ _)) = _
    rw [unpackedOfScientific_eq hdigits hlow hhigh hc hx]

theorem length_toDigits_bounds (hdigits : 0 < digits) :
    10 ^ ((Nat.toDigits 10 digits).length - 1) ≤ digits ∧
      digits < 10 ^ (Nat.toDigits 10 digits).length := by
  have hlength : 0 < (Nat.toDigits 10 digits).length := Nat.length_toDigits_pos
  constructor
  · by_cases hone : (Nat.toDigits 10 digits).length - 1 = 0
    · rw [hone]
      exact hdigits
    · rw [← Nat.not_lt, ← Nat.length_toDigits_le_iff (by decide) (Nat.pos_of_ne_zero hone)]
      omega
  · exact (Nat.length_toDigits_le_iff (by decide) hlength).mp (le_refl _)

/-- Where the first digit of a decimal stands that rounds to a float. -/
theorem RoundsTo.position (hc : Canonical m e) (hdigits : 0 < digits)
    (hx : RoundsTo m e (digits * (10 : ℚ) ^ exponent)) :
    -400 < (Nat.toDigits 10 digits).length + exponent ∧
      (Nat.toDigits 10 digits).length + exponent ≤ 400 := by
  obtain ⟨hsmall, hlarge⟩ := hx.bounds hc
  obtain ⟨hfewest, hmost⟩ := length_toDigits_bounds hdigits
  have hlength : 0 < (Nat.toDigits 10 digits).length := Nat.length_toDigits_pos
  generalize (Nat.toDigits 10 digits).length = length at hfewest hmost hlength
  have hpower : (0 : ℚ) < (10 : ℚ) ^ exponent := zpow_pos (by norm_num) exponent
  have hlt : ∀ {a b : ℤ}, (10 : ℚ) ^ a < (10 : ℚ) ^ b → a < b := fun h =>
    (zpow_lt_zpow_iff_right₀ (by norm_num)).mp h
  have hpowers : (2 : ℚ) ^ (1200 : ℤ) < (10 : ℚ) ^ (400 : ℤ) := by
    rw [show (1200 : ℤ) = 3 * 400 from rfl, zpow_mul]
    exact zpow_lt_zpow_left₀ (by norm_num) (by norm_num) (by decide)
  constructor
  · apply hlt
    calc (10 : ℚ) ^ (-400 : ℤ) < (2 : ℚ) ^ (-1200 : ℤ) := by
          rw [zpow_neg, zpow_neg]
          exact inv_strictAnti₀ (zpow_pos two_pos _) hpowers
      _ ≤ (2 : ℚ) ^ (-1075 : ℤ) := zpow_le_zpow_right₀ one_le_two (by decide)
      _ ≤ digits * (10 : ℚ) ^ exponent := hsmall
      _ < 10 ^ length * (10 : ℚ) ^ exponent :=
          mul_lt_mul_of_pos_right (by exact_mod_cast hmost) hpower
      _ = (10 : ℚ) ^ (length + exponent) := by
          rw [zpow_add₀ (by norm_num), zpow_natCast]
  · have hbelow : ((length - 1 : ℕ) : ℤ) + exponent < 400 := by
      apply hlt
      calc (10 : ℚ) ^ (((length - 1 : ℕ) : ℤ) + exponent)
          = 10 ^ (length - 1) * (10 : ℚ) ^ exponent := by
            rw [zpow_add₀ (by norm_num), zpow_natCast]
        _ ≤ digits * (10 : ℚ) ^ exponent :=
            mul_le_mul_of_nonneg_right (by exact_mod_cast hfewest) hpower.le
        _ ≤ (2 : ℚ) ^ (1025 : ℤ) := hlarge
        _ ≤ (2 : ℚ) ^ (1200 : ℤ) := zpow_le_zpow_right₀ one_le_two (by decide)
        _ < (10 : ℚ) ^ (400 : ℤ) := hpowers
    omega

theorem RoundsTo.digits_pos (hc : Canonical m e)
    (hx : RoundsTo m e (digits * (10 : ℚ) ^ exponent)) : 0 < digits := by
  have hpower : (0 : ℚ) < (10 : ℚ) ^ exponent := zpow_pos (by norm_num) exponent
  have hpositive : (0 : ℚ) < digits * (10 : ℚ) ^ exponent :=
    lt_of_lt_of_le (zpow_pos two_pos _) (hx.bounds hc).1
  exact_mod_cast (mul_pos_iff_of_pos_right hpower).mp hpositive

/-- **Reading rounds to nearest.**  A decimal in the interval of a float is read as that
    float. -/
theorem nearest_eq (hc : Canonical m e) (hx : RoundsTo m e (digits * (10 : ℚ) ^ exponent)) :
    nearest false digits exponent = .ofModel (.pack (.finite .positive m e hc.pos)) := by
  have hdigits := hx.digits_pos hc
  obtain ⟨habove, hbelow⟩ := hx.position hc hdigits
  have hlength : 0 < (Nat.toDigits 10 digits).length := Nat.length_toDigits_pos
  have hlog : (Nat.toDigits 10 digits).length - 1 ≤ digits.log2 := by
    rw [Nat.le_log2 hdigits.ne']
    exact Nat.le_trans (Nat.pow_le_pow_left (by decide) _) (length_toDigits_bounds hdigits).1
  unfold nearest
  dsimp only
  rw [if_neg Bool.false_ne_true, if_neg (by omega), if_neg (by omega)]
  exact ofScientific_eq hdigits (by omega) (by omega) hc hx

end Scientific

/-! ### Signs -/

theorem plus_unpackedOfScientific (digits : ℕ) (exponent : ℤ) :
    Plus (UnpackedFloat.ofScientific .binary64 digits exponent) := by
  unfold UnpackedFloat.ofScientific
  split
  · trivial
  split
  · trivial
  split
  · trivial
  split
  · exact plus_roundWithAccuracy _ _ _
  · exact plus_roundWithAccuracy _ _ _

theorem plus_ofScientific {digits : ℕ} (hdigits : 0 < digits) (negative : Bool) (exponent : ℕ) :
    Plus (Float.ofScientific digits negative exponent).toModel.unpack := by
  unfold Float.ofScientific
  split
  · rename_i hfast
    have hindex : exponent < Float.exactlyRepresentablePowersOfTen.size :=
      Nat.lt_succ_of_le hfast.2
    obtain ⟨m₁, e₁, h₁, hfirst, -, -⟩ := unpack_toFloat hdigits hfast.1
    obtain ⟨m₂, e₂, h₂, hsecond, -, -⟩ := unpack_powerOfTen hindex
    dsimp only
    split
    · show Plus (Float.Model.pack (UnpackedFloat.div _ _ _)).unpack
      rw [hfirst, hsecond]
      exact plus_unpack_pack (plus_roundWithAccuracy _ _ _)
    · show Plus (Float.Model.pack (UnpackedFloat.mul _ _ _)).unpack
      rw [hfirst, hsecond]
      exact plus_unpack_pack (plus_roundWithAccuracy _ _ _)
  · exact plus_unpack_pack (plus_unpackedOfScientific _ _)

/-- What is read without a minus sign is not negative. -/
theorem plus_nearest (digits : ℕ) (exponent : ℤ) :
    Plus (nearest false digits exponent).toModel.unpack := by
  unfold nearest
  dsimp only
  rw [if_neg Bool.false_ne_true]
  split
  · exact True.intro
  · split
    · exact plus_unpack_pack trivial
    · exact plus_ofScientific (by omega) _ _

end RuleEngine.Decimal
