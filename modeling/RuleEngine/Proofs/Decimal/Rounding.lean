/-
  RuleEngine/Proofs/Decimal/Rounding.lean
  =======================================
  **How binary64 rounds.**

  A real that lies between floats is held as a mantissa, an exponent and two more bits:
  whether at least half a unit was cut off, and whether anything else was.  `Holds` says
  which reals such a mantissa stands for, so that shifting it is division
  (`Holds.shiftRight`) and taking its nearest integer is rounding a real
  (`Holds.roundedMantissa_eq`).

  `RoundsTo m e x` is the interval of reals around `m · 2 ^ e` that round to it.  Whatever
  real is handed to the rounding, if it lies in that interval, then the float with mantissa
  `m` and exponent `e` comes out (`roundWithAccuracy_eq`).  The least mantissa of a binade
  needs care, since the reals just below it have a smaller exponent: there the rounded
  mantissa has one bit too many and is shifted once more.
-/
import RuleEngine.Proofs.Decimal.Binary

namespace RuleEngine.Decimal

open Float.Model Float.Model.UnpackedFloat

/-! ### Mantissas with two more bits -/

/-- The reals that a mantissa with its two bits stands for. -/
def Holds (em : ExtendedMantissa) (y : ℚ) : Prop :=
  ∃ rest : ℚ, 0 ≤ rest ∧ rest < 1 / 2 ∧ (em.stickyBit = true ↔ 0 < rest) ∧
    y = em.mantissa + (if em.roundBit then 1 / 2 else 0) + rest

theorem Holds.mantissa_le {em : ExtendedMantissa} {y : ℚ} (h : Holds em y) :
    (em.mantissa : ℚ) ≤ y ∧ y < em.mantissa + 1 := by
  obtain ⟨rest, hlow, hhigh, -, rfl⟩ := h
  split
  · constructor <;> linarith
  · constructor <;> linarith

/-- Halving a mantissa with its two bits halves the real that it stands for. -/
theorem Holds.shiftRightOne {em : ExtendedMantissa} {y : ℚ} (h : Holds em y) :
    Holds em.shiftRightOne (y / 2) := by
  obtain ⟨rest, hlow, hhigh, hsticky, rfl⟩ := h
  refine ⟨((if em.roundBit then 1 / 2 else 0) + rest) / 2, ?_, ?_, ?_, ?_⟩
  · split <;> linarith
  · split <;> linarith
  · cases hround : em.roundBit with
    | true => simp [ExtendedMantissa.shiftRightOne, hround]; linarith
    | false => simpa [ExtendedMantissa.shiftRightOne, hround] using hsticky
  · have hsplit : (em.mantissa : ℚ) = 2 * (em.mantissa / 2 : ℕ) + (em.mantissa % 2 : ℕ) := by
      exact_mod_cast (Nat.div_add_mod em.mantissa 2).symm
    rcases Nat.mod_two_eq_zero_or_one em.mantissa with heven | hodd
    · simp only [ExtendedMantissa.shiftRightOne, heven, bne_self_eq_false, Bool.false_eq_true,
        if_false]
      rw [hsplit, heven]
      push_cast
      ring
    · simp only [ExtendedMantissa.shiftRightOne, hodd]
      rw [hsplit, hodd]
      norm_num
      ring

theorem Holds.shiftRight {em : ExtendedMantissa} {y : ℚ} (h : Holds em y) (k : ℕ) :
    Holds (em >>> k) (y / 2 ^ k) := by
  induction k with
  | zero =>
    rw [pow_zero, div_one]
    exact h
  | succ k ih =>
    have hnext := ih.shiftRightOne
    rwa [div_div, ← pow_succ] at hnext

/-- An integer that is nearest to a real, an even one where there are two. -/
def Nearest (n : ℕ) (y : ℚ) : Prop :=
  |y - n| ≤ 1 / 2 ∧ (n % 2 = 1 → |y - n| < 1 / 2)

theorem le_of_cast_lt {a b : ℕ} (h : (a : ℚ) < b + 1) : a ≤ b := by
  have hlt : a < b + 1 := by exact_mod_cast h
  exact Nat.lt_succ_iff.mp hlt

/-- Rounding the two bits away gives the nearest integer. -/
theorem Holds.roundedMantissa_eq {em : ExtendedMantissa} {y : ℚ} {n : ℕ} (h : Holds em y)
    (hn : Nearest n y) : em.roundedMantissa = n := by
  obtain ⟨m, half, sticky⟩ := em
  obtain ⟨rest, hlow, hhigh, hsticky, rfl⟩ := h
  obtain ⟨hclose, hodd⟩ := hn
  rw [abs_le] at hclose
  rw [abs_lt] at hodd
  cases half with
  | false =>
    -- less than half was cut off
    simp only [Bool.false_eq_true, if_false, add_zero] at hclose hodd hsticky
    have hle : n ≤ m := le_of_cast_lt (by linarith)
    have hge : m ≤ n := le_of_cast_lt (by linarith)
    have hmn : m = n := le_antisymm hge hle
    cases sticky <;> exact hmn
  | true =>
    simp only [if_true] at hclose hodd hsticky
    cases sticky with
    | true =>
      -- more than half was cut off
      have hrest : 0 < rest := hsticky.mp rfl
      have hle : n ≤ m + 1 := le_of_cast_lt (by push_cast; linarith)
      have hge : m + 1 ≤ n := le_of_cast_lt (by push_cast; linarith)
      exact le_antisymm hge hle
    | false =>
      -- exactly half was cut off, and the even neighbour is taken
      have hrest : rest = 0 := by
        by_contra hne
        exact Bool.false_ne_true (hsticky.mpr (lt_of_le_of_ne hlow (Ne.symm hne)))
      subst hrest
      have hle : n ≤ m + 1 := le_of_cast_lt (by push_cast; linarith)
      have hge : m ≤ n := le_of_cast_lt (by linarith)
      have heven : n % 2 = 0 := by
        by_contra hne
        have hinner := hodd (by omega)
        have hnm : n ≤ m := le_of_cast_lt (by linarith)
        have hmn : m + 1 ≤ n := le_of_cast_lt (by push_cast; linarith)
        omega
      show m + m % 2 = n
      omega

/-! ### The interval of a float -/

/-- What lies between the mantissa `m` and the reals that no longer round to it, downwards, in
    quarters of a unit.  Below the least mantissa of a binade floats are half as far apart. -/
def quartersBelow (m : ℕ) (e : ℤ) : ℕ := if m = 2 ^ 52 ∧ -1074 < e then 1 else 2

theorem quartersBelow_pos (m : ℕ) (e : ℤ) : (0 : ℚ) < quartersBelow m e := by
  unfold quartersBelow
  split <;> norm_num

theorem quartersBelow_le (m : ℕ) (e : ℤ) : (quartersBelow m e : ℚ) ≤ 2 := by
  unfold quartersBelow
  split <;> norm_num

/-- The real `x` rounds to `m · 2 ^ e`: it lies in the interval around it, whose ends belong to
    it for even `m`. -/
structure RoundsTo (m : ℕ) (e : ℤ) (x : ℚ) : Prop where
  low : (m - quartersBelow m e / 4) * (2 : ℚ) ^ e ≤ x
  high : x ≤ (m + 1 / 2) * (2 : ℚ) ^ e
  inner : m % 2 = 1 →
    (m - quartersBelow m e / 4) * (2 : ℚ) ^ e < x ∧ x < (m + 1 / 2) * (2 : ℚ) ^ e

theorem roundsTo_self {m : ℕ} {e : ℤ} : RoundsTo m e (m * (2 : ℚ) ^ e) := by
  have hpos : (0 : ℚ) < (2 : ℚ) ^ e := zpow_pos two_pos e
  have hquarters := quartersBelow_pos m e
  refine ⟨?_, ?_, fun _ => ⟨?_, ?_⟩⟩
  · exact mul_le_mul_of_nonneg_right (by linarith) hpos.le
  · exact mul_le_mul_of_nonneg_right (by linarith) hpos.le
  · exact mul_lt_mul_of_pos_right (by linarith) hpos
  · exact mul_lt_mul_of_pos_right (by linarith) hpos

/-- What rounds to a float is neither too small nor too large. -/
theorem RoundsTo.bounds {m : ℕ} {e : ℤ} {x : ℚ} (hc : Canonical m e) (hx : RoundsTo m e x) :
    (2 : ℚ) ^ (-1075 : ℤ) ≤ x ∧ x ≤ (2 : ℚ) ^ (1025 : ℤ) := by
  obtain ⟨hpos, hlt, hleast, hmost, -⟩ := hc
  have hpower : (0 : ℚ) < (2 : ℚ) ^ e := zpow_pos two_pos e
  have hquarters := quartersBelow_le m e
  have hone : (1 : ℚ) ≤ m := by exact_mod_cast hpos
  have hbits : (m : ℚ) + 1 ≤ 2 ^ 53 := by exact_mod_cast hlt
  constructor
  · calc (2 : ℚ) ^ (-1075 : ℤ) = (2 : ℚ) ^ (-1 + -1074 : ℤ) := rfl
      _ = 1 / 2 * (2 : ℚ) ^ (-1074 : ℤ) := by rw [zpow_add₀ two_ne_zero, zpow_neg_one, one_div]
      _ ≤ 1 / 2 * (2 : ℚ) ^ e :=
          mul_le_mul_of_nonneg_left (zpow_le_zpow_right₀ one_le_two hleast) (by norm_num)
      _ ≤ (m - quartersBelow m e / 4) * (2 : ℚ) ^ e :=
          mul_le_mul_of_nonneg_right (by linarith) hpower.le
      _ ≤ x := hx.low
  · calc x ≤ (m + 1 / 2) * (2 : ℚ) ^ e := hx.high
      _ ≤ 2 ^ 53 * (2 : ℚ) ^ e := mul_le_mul_of_nonneg_right (by linarith) hpower.le
      _ ≤ 2 ^ 53 * (2 : ℚ) ^ (971 : ℤ) :=
          mul_le_mul_of_nonneg_left (zpow_le_zpow_right₀ one_le_two hmost) (by norm_num)
      _ = (2 : ℚ) ^ (53 + 971 : ℤ) := by rw [zpow_add₀ two_ne_zero]; rfl
      _ ≤ (2 : ℚ) ^ (1025 : ℤ) := zpow_le_zpow_right₀ one_le_two (by decide)

/-! ### Exponents -/

theorem targetExponent_binary64 (total : ℤ) :
    Format.binary64.targetExponent total = max (total - 53) (-1074) := by
  simp [Format.targetExponent, Format.mantissaBits, Format.minExponent]

theorem log2_le {m : ℕ} (hm : m < 2 ^ 53) : m.log2 ≤ 52 := by
  by_cases h : m = 0
  · simp [h]
  · exact Nat.lt_succ_iff.mp ((Nat.log2_lt h).mpr hm)

theorem shiftToTargetExponent_self {m : ℕ} {e : ℤ} (hm : m < 2 ^ 53) (he : -1074 ≤ e) :
    shiftToTargetExponent .binary64 m e .exact = (⟨m, false, false⟩, e) := by
  have hlog := log2_le hm
  have hshift : (Format.binary64.targetExponent (totalExponent m e) - e).toNat = 0 := by
    rw [targetExponent_binary64, totalExponent]
    omega
  unfold shiftToTargetExponent shiftToExponent
  dsimp only
  rw [hshift]
  exact Prod.ext rfl (add_zero e)

theorem shiftToTargetExponent_carry {e : ℤ} (he : -1074 ≤ e) :
    shiftToTargetExponent .binary64 (2 ^ 53) e .exact = (⟨2 ^ 52, false, false⟩, e + 1) := by
  have hshift : (Format.binary64.targetExponent (totalExponent (2 ^ 53) e) - e).toNat = 1 := by
    rw [targetExponent_binary64, totalExponent, Nat.log2_two_pow]
    omega
  unfold shiftToTargetExponent shiftToExponent
  dsimp only
  rw [hshift]
  rfl

/-! ### The float that a real rounds to -/

section Rounding

variable {s : Sign} {mantissa m : ℕ} {exponent e : ℤ} {accuracy : Accuracy} {y : ℚ}

/-- Shifting a mantissa to the exponent that it can have keeps what is known of the value. -/
theorem holds_shifted (hy : Holds (.ofMantissaAndAccuracy mantissa accuracy) y)
    (hbits : 52 ≤ mantissa.log2 ∨ exponent ≤ -1074) :
    ∃ em target, shiftToTargetExponent .binary64 mantissa exponent accuracy = (em, target) ∧
      target = max (mantissa.log2 + 1 + exponent - 53) (-1074) ∧
      Holds em (y * (2 : ℚ) ^ exponent / (2 : ℚ) ^ target) := by
  obtain ⟨k, hk⟩ := Int.le.dest
    (show exponent ≤ max ((mantissa.log2 : ℤ) + 1 + exponent - 53) (-1074) by omega)
  have hshift : (Format.binary64.targetExponent (totalExponent mantissa exponent) -
      exponent).toNat = k := by
    rw [targetExponent_binary64, totalExponent]
    omega
  refine ⟨ExtendedMantissa.ofMantissaAndAccuracy mantissa accuracy >>> k, exponent + k, ?_, hk, ?_⟩
  · unfold shiftToTargetExponent shiftToExponent
    dsimp only
    rw [hshift]
  · have hpower : y * (2 : ℚ) ^ exponent / (2 : ℚ) ^ (exponent + k) = y / 2 ^ k := by
      rw [zpow_add₀ two_ne_zero, zpow_natCast]
      field_simp
    rw [hpower]
    exact hy.shiftRight k

theorem log2_bounds (hy : Holds (.ofMantissaAndAccuracy mantissa accuracy) y)
    (hbits : 52 ≤ mantissa.log2 ∨ exponent ≤ -1074) :
    y * (2 : ℚ) ^ exponent < (2 : ℚ) ^ ((mantissa.log2 : ℤ) + 1 + exponent) ∧
      ((mantissa.log2 : ℤ) + 1 + exponent ≤ -1073 ∨
        (2 : ℚ) ^ ((mantissa.log2 : ℤ) + exponent) ≤ y * (2 : ℚ) ^ exponent) := by
  have hmantissa : (ExtendedMantissa.ofMantissaAndAccuracy mantissa accuracy).mantissa =
      mantissa := by
    rcases accuracy with _ | _ | _ | _ <;> rfl
  obtain ⟨hlow, hhigh⟩ := hy.mantissa_le
  rw [hmantissa] at hlow hhigh
  have hpos : (0 : ℚ) < (2 : ℚ) ^ exponent := zpow_pos two_pos exponent
  constructor
  · have hlt : y < 2 ^ (mantissa.log2 + 1) := by
      have hlog : mantissa + 1 ≤ 2 ^ (mantissa.log2 + 1) := Nat.lt_log2_self
      calc y < mantissa + 1 := hhigh
        _ ≤ 2 ^ (mantissa.log2 + 1) := by exact_mod_cast hlog
    rw [zpow_add₀ two_ne_zero]
    refine mul_lt_mul_of_pos_right ?_ hpos
    exact_mod_cast hlt
  · by_cases hzero : mantissa = 0
    · subst hzero
      left
      rw [Nat.log2_zero] at hbits ⊢
      omega
    · right
      have hle : ((2 : ℚ) ^ mantissa.log2) ≤ y := by
        have hlog : 2 ^ mantissa.log2 ≤ mantissa := Nat.log2_self_le hzero
        calc (2 : ℚ) ^ mantissa.log2 ≤ mantissa := by exact_mod_cast hlog
          _ ≤ y := hlow
      rw [zpow_add₀ two_ne_zero, zpow_natCast]
      exact mul_le_mul_of_nonneg_right hle hpos.le

theorem RoundsTo.lt_binade {x : ℚ} (hc : Canonical m e) (hx : RoundsTo m e x) :
    x < (2 : ℚ) ^ (53 + e) := by
  have hpos : (0 : ℚ) < (2 : ℚ) ^ e := zpow_pos two_pos e
  rw [zpow_add₀ two_ne_zero]
  by_cases hlast : m = 2 ^ 53 - 1
  · have hinner := (hx.inner (by rw [hlast]; decide)).2
    refine hinner.trans (mul_lt_mul_of_pos_right ?_ hpos)
    rw [hlast]
    norm_num
  · refine hx.high.trans_lt (mul_lt_mul_of_pos_right ?_ hpos)
    have hlt := hc.lt
    have hm : m + 2 ≤ 2 ^ 53 := by omega
    have hm' : (m : ℚ) + 2 ≤ 2 ^ 53 := by exact_mod_cast hm
    norm_num at hm' ⊢
    linarith

/-- What lies below the binade of the float that it rounds to is just below it. -/
theorem RoundsTo.below_binade {x : ℚ} (hc : Canonical m e) (hx : RoundsTo m e x)
    (he : -1074 < e) (hbelow : x < (2 : ℚ) ^ (52 + e)) :
    m = 2 ^ 52 ∧ (2 : ℚ) ^ (51 + e) ≤ x := by
  have hpos : (0 : ℚ) < (2 : ℚ) ^ e := zpow_pos two_pos e
  have hfull : 2 ^ 52 ≤ m := hc.full.resolve_right he.ne'
  have hm : m = 2 ^ 52 := by
    have hlow := hx.low.trans_lt hbelow
    rw [zpow_add₀ two_ne_zero] at hlow
    have hmantissa := lt_of_mul_lt_mul_right hlow hpos.le
    have hquarters := quartersBelow_le m e
    have hlt : (m : ℚ) < 4503599627370497 := by
      norm_num at hmantissa
      linarith
    have hlt' : m < 4503599627370497 := by exact_mod_cast hlt
    omega
  refine ⟨hm, le_trans ?_ hx.low⟩
  have hquarter : quartersBelow m e = 1 := if_pos ⟨hm, he⟩
  rw [zpow_add₀ two_ne_zero, hquarter, hm]
  refine mul_le_mul_of_nonneg_right ?_ hpos.le
  norm_num

/-- The exponent that a real in the interval of a float is shifted to: the one of the float, or
    the one below it. -/
theorem target_of_roundsTo {x : ℚ} {total : ℤ} (hc : Canonical m e) (hx : RoundsTo m e x)
    (hhigh : x < (2 : ℚ) ^ total) (hlow : total ≤ -1073 ∨ (2 : ℚ) ^ (total - 1) ≤ x) :
    max (total - 53) (-1074) = e ∨
      (m = 2 ^ 52 ∧ -1074 < e ∧ x < (2 : ℚ) ^ (52 + e) ∧ max (total - 53) (-1074) = e - 1) := by
  have hleast := hc.least
  -- powers of two that lie around `x` bound its first bit
  have hmost : ∀ {k : ℤ}, (2 : ℚ) ^ k ≤ x → k < total := fun h =>
    (zpow_lt_zpow_iff_right₀ one_lt_two).mp (h.trans_lt hhigh)
  have hfewest : ∀ {k : ℤ}, x < (2 : ℚ) ^ k → total ≤ -1073 ∨ total - 1 < k := fun h =>
    hlow.imp_right fun hle => (zpow_lt_zpow_iff_right₀ one_lt_two).mp (hle.trans_lt h)
  by_cases hcase : (2 : ℚ) ^ (52 + e) ≤ x
  · have hsmall := hmost hcase
    have hlarge := hfewest (hx.lt_binade hc)
    omega
  · rw [not_le] at hcase
    have hlarge := hfewest hcase
    by_cases he : e = -1074
    · omega
    · obtain ⟨hm, hbelow⟩ := hx.below_binade hc (by omega) hcase
      have hsmall := hmost hbelow
      exact .inr ⟨hm, by omega, hcase, by omega⟩

/-- A real in the interval of a float, measured in units of its mantissa. -/
theorem RoundsTo.nearest {x : ℚ} (hx : RoundsTo m e x) : Nearest m (x / (2 : ℚ) ^ e) := by
  have hpos : (0 : ℚ) < (2 : ℚ) ^ e := zpow_pos two_pos e
  have hquarters := quartersBelow_le m e
  constructor
  · have hlow := (le_div_iff₀ hpos).mpr hx.low
    have hhigh := (div_le_iff₀ hpos).mpr hx.high
    rw [abs_le]
    constructor <;> linarith
  · intro hodd
    obtain ⟨hlow, hhigh⟩ := hx.inner hodd
    rw [← lt_div_iff₀ hpos] at hlow
    rw [← div_lt_iff₀ hpos] at hhigh
    rw [abs_lt]
    constructor <;> linarith

/-- Just below the least mantissa of a binade, in the halved units that floats have there. -/
theorem RoundsTo.nearest_below {x : ℚ} (hx : RoundsTo (2 ^ 52) e x) (he : -1074 < e)
    (hbelow : x < (2 : ℚ) ^ (52 + e)) : Nearest (2 ^ 53) (x / (2 : ℚ) ^ (e - 1)) := by
  have hpos : (0 : ℚ) < (2 : ℚ) ^ e := zpow_pos two_pos e
  have hgap : quartersBelow (2 ^ 52) e = 1 := if_pos ⟨rfl, he⟩
  have hhalf : x / (2 : ℚ) ^ (e - 1) = 2 * (x / (2 : ℚ) ^ e) := by
    rw [zpow_sub₀ two_ne_zero, zpow_one]
    field_simp
  have hlow := (le_div_iff₀ hpos).mpr hx.low
  rw [hgap] at hlow
  rw [zpow_add₀ two_ne_zero, ← div_lt_iff₀ hpos] at hbelow
  rw [hhalf]
  refine ⟨?_, fun hodd => absurd hodd (by decide)⟩
  rw [abs_le]
  norm_num at hlow hbelow ⊢
  constructor <;> linarith

/-- **A real that is rounded gives the float in whose interval it lies.** -/
theorem roundWithAccuracy_eq (hy : Holds (.ofMantissaAndAccuracy mantissa accuracy) y)
    (hbits : 52 ≤ mantissa.log2 ∨ exponent ≤ -1074) (hc : Canonical m e)
    (hx : RoundsTo m e (y * (2 : ℚ) ^ exponent)) :
    roundWithAccuracy .binary64 s mantissa exponent accuracy = .finite s m e hc.pos := by
  obtain ⟨em, target, hshifted, htarget, hholds⟩ := holds_shifted hy hbits
  obtain ⟨hhigh, hlow⟩ := log2_bounds hy hbits
  have hlow' : (mantissa.log2 : ℤ) + 1 + exponent ≤ -1073 ∨
      (2 : ℚ) ^ ((mantissa.log2 : ℤ) + 1 + exponent - 1) ≤ y * (2 : ℚ) ^ exponent := by
    rwa [show (mantissa.log2 : ℤ) + 1 + exponent - 1 = mantissa.log2 + exponent by ring]
  unfold roundWithAccuracy
  rw [hshifted]
  dsimp only
  rcases target_of_roundsTo hc hx hhigh hlow' with hexponent | ⟨rfl, he, hbelow, hexponent⟩
  · obtain rfl : target = e := htarget.trans hexponent
    rw [hholds.roundedMantissa_eq hx.nearest, shiftToTargetExponent_self hc.lt hc.least]
    exact dif_neg hc.pos.ne'
  · obtain rfl : target = e - 1 := htarget.trans hexponent
    rw [hholds.roundedMantissa_eq (hx.nearest_below he hbelow),
      shiftToTargetExponent_carry (by omega : -1074 ≤ e - 1), sub_add_cancel]
    exact dif_neg hc.pos.ne'

end Rounding

theorem plus_roundWithAccuracy (m : ℕ) (e : ℤ) (a : Accuracy) :
    Plus (roundWithAccuracy .binary64 .positive m e a) := by
  unfold roundWithAccuracy
  dsimp only
  split <;> trivial

end RuleEngine.Decimal
