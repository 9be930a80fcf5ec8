/-
  RuleEngine/Proofs/Decimal/Shortest.lean
  =======================================
  **The shortest decimal denotes its number.**

  The interval that the search asks about is the one of the reals that round to the number
  (`holds_iff`), so whatever the search picks rounds to it.  It does pick: half a unit of a
  53-bit mantissa is more than half a step of a grid with seventeen digits, and one of the two
  neighbours is no farther than half a step (`pick_isSome`).
-/
import RuleEngine.Decimal.Shortest
import RuleEngine.Proofs.Decimal.Scientific

namespace RuleEngine.Decimal

def Shortest.value (d : Shortest) : ℚ := d.digits * (10 : ℚ) ^ d.exponent

theorem value_stripZeros (fuel : ℕ) (d : Shortest) : (stripZeros fuel d).value = d.value := by
  fun_induction stripZeros fuel d with
  | case1 => rfl
  | case2 fuel d hzero ih =>
    rw [ih]
    have hdigits : (d.digits : ℚ) = (d.digits / 10 : ℕ) * 10 := by
      exact_mod_cast (Nat.div_mul_cancel (Nat.dvd_of_mod_eq_zero hzero.2)).symm
    unfold Shortest.value
    dsimp only
    rw [zpow_add_one₀ (by norm_num), hdigits]
    ring
  | case3 => rfl

/-! ### The interval -/

section Interval

variable {m n d : ℕ} {e : ℤ}

theorem scale_pos (m : ℕ) (e : ℤ) : 0 < (Interval.ofParts m e).scale :=
  Nat.shiftLeft_pos_iff.mpr Nat.one_pos

theorem part_div_scale (k : ℕ) (e : ℤ) :
    ((k * 1 <<< (e - 2).toNat : ℕ) / (1 <<< (2 - e).toNat : ℕ) : ℚ) = k / 4 * (2 : ℚ) ^ e := by
  have hfour : (2 : ℚ) ^ e = (2 : ℚ) ^ (e - 2) * 4 := by
    rw [zpow_sub₀ two_ne_zero]
    norm_num
  have hpower : ((2 ^ (e - 2).toNat : ℕ) / (2 ^ (2 - e).toNat : ℕ) : ℚ) = (2 : ℚ) ^ (e - 2) := by
    rw [Nat.cast_pow, Nat.cast_pow, Nat.cast_ofNat, ← zpow_natCast, ← zpow_natCast,
      ← zpow_sub₀ two_ne_zero]
    congr 1
    omega
  rw [Nat.one_shiftLeft, Nat.one_shiftLeft, hfour, ← hpower]
  push_cast
  ring

theorem low_div_scale (hpos : 0 < m) :
    ((Interval.ofParts m e).low / (Interval.ofParts m e).scale : ℚ) =
      (m - quartersBelow m e / 4) * (2 : ℚ) ^ e := by
  have hquarters : quartersBelow m e ≤ 4 * m := by
    unfold quartersBelow
    split <;> omega
  have hcast : ((4 * m - quartersBelow m e : ℕ) : ℚ) = 4 * m - quartersBelow m e := by
    rw [Nat.cast_sub hquarters]
    push_cast
    ring
  refine (part_div_scale (4 * m - quartersBelow m e) e).trans ?_
  rw [hcast]
  ring

theorem high_div_scale :
    ((Interval.ofParts m e).high / (Interval.ofParts m e).scale : ℚ) =
      (m + 1 / 2) * (2 : ℚ) ^ e := by
  refine (part_div_scale (4 * m + 2) e).trans ?_
  push_cast
  ring

theorem value_div_scale :
    ((Interval.ofParts m e).value / (Interval.ofParts m e).scale : ℚ) = m * (2 : ℚ) ^ e := by
  refine (part_div_scale (4 * m) e).trans ?_
  push_cast
  ring

/-- What the interval of a float holds rounds to it, and nothing else. -/
theorem holds_iff (hpos : 0 < m) (hd : 0 < d) :
    (Interval.ofParts m e).holds n d = true ↔ RoundsTo m e (n / d) := by
  have hd' : (0 : ℚ) < d := by exact_mod_cast hd
  have hscale : (0 : ℚ) < (Interval.ofParts m e).scale := by exact_mod_cast scale_pos m e
  have hlow : (Interval.ofParts m e).low * d ≤ n * (Interval.ofParts m e).scale ↔
      (m - quartersBelow m e / 4) * (2 : ℚ) ^ e ≤ n / d := by
    rw [← low_div_scale hpos, div_le_div_iff₀ hscale hd']
    exact_mod_cast Iff.rfl
  have hhigh : n * (Interval.ofParts m e).scale ≤ (Interval.ofParts m e).high * d ↔
      (n / d : ℚ) ≤ (m + 1 / 2) * (2 : ℚ) ^ e := by
    rw [← high_div_scale, div_le_div_iff₀ hd' hscale]
    exact_mod_cast Iff.rfl
  have hlow' : (Interval.ofParts m e).low * d < n * (Interval.ofParts m e).scale ↔
      (m - quartersBelow m e / 4) * (2 : ℚ) ^ e < n / d := by
    rw [← low_div_scale hpos, div_lt_div_iff₀ hscale hd']
    exact_mod_cast Iff.rfl
  have hhigh' : n * (Interval.ofParts m e).scale < (Interval.ofParts m e).high * d ↔
      (n / d : ℚ) < (m + 1 / 2) * (2 : ℚ) ^ e := by
    rw [← high_div_scale, div_lt_div_iff₀ hd' hscale]
    exact_mod_cast Iff.rfl
  have hclosed : (Interval.ofParts m e).closed = true ↔ m % 2 = 0 := beq_iff_eq
  unfold Interval.holds
  by_cases heven : m % 2 = 0
  · rw [if_pos (hclosed.mpr heven), Bool.and_eq_true, decide_eq_true_eq, decide_eq_true_eq, hlow,
      hhigh]
    constructor
    · rintro ⟨h₁, h₂⟩
      exact ⟨h₁, h₂, fun hodd => by omega⟩
    · exact fun h => ⟨h.low, h.high⟩
  · rw [if_neg (mt hclosed.mp heven), Bool.and_eq_true, decide_eq_true_eq, decide_eq_true_eq,
      hlow', hhigh']
    constructor
    · rintro ⟨h₁, h₂⟩
      exact ⟨h₁.le, h₂.le, fun _ => ⟨h₁, h₂⟩⟩
    · exact fun h => h.inner (by omega)

/-- What is near enough to a float rounds to it. -/
theorem roundsTo_of_near {x : ℚ} (hc : Canonical m e)
    (hx : |x - m * (2 : ℚ) ^ e| < m * (2 : ℚ) ^ e / 2 ^ 54) : RoundsTo m e x := by
  have hpower : (0 : ℚ) < (2 : ℚ) ^ e := zpow_pos two_pos e
  have hbits : (m : ℚ) < 2 ^ 53 := by exact_mod_cast hc.lt
  have habove : m * (2 : ℚ) ^ e / 2 ^ 54 ≤ 1 / 2 * (2 : ℚ) ^ e := by
    rw [div_le_iff₀ (by norm_num)]
    have hunit := mul_le_mul_of_nonneg_right hbits.le hpower.le
    linarith
  have hbelow : m * (2 : ℚ) ^ e / 2 ^ 54 ≤ quartersBelow m e / 4 * (2 : ℚ) ^ e := by
    unfold quartersBelow
    split
    · rename_i hleast
      rw [hleast.1]
      have := hpower.le
      norm_num
      linarith
    · norm_num at habove ⊢
      linarith
  rw [abs_lt] at hx
  have hlow : (m - quartersBelow m e / 4) * (2 : ℚ) ^ e < x := by
    rw [sub_mul]
    linarith [hx.1]
  have hhigh : x < (m + 1 / 2) * (2 : ℚ) ^ e := by
    rw [add_mul]
    linarith [hx.2]
  exact ⟨hlow.le, hhigh.le, fun _ => ⟨hlow, hhigh⟩⟩

theorem grid_eq (g : ℤ) :
    (10 : ℚ) ^ g = (Nat.pow 10 g.toNat : ℕ) / (Nat.pow 10 (-g).toNat : ℕ) := by
  rw [Nat.pow_eq, Nat.pow_eq, Nat.cast_pow, Nat.cast_pow, Nat.cast_ofNat, ← zpow_natCast,
    ← zpow_natCast, ← zpow_sub₀ (by norm_num)]
  congr 1
  omega

/-- A point of a grid lies in the interval of a number exactly if it rounds to the number. -/
theorem holds_grid_iff (hpos : 0 < m) (g : ℤ) :
    (Interval.ofParts m e).holds (n * Nat.pow 10 g.toNat) (Nat.pow 10 (-g).toNat) = true ↔
      RoundsTo m e (Shortest.mk n g).value := by
  have hvalue : ((n * Nat.pow 10 g.toNat : ℕ) / (Nat.pow 10 (-g).toNat : ℕ) : ℚ) =
      (Shortest.mk n g).value := by
    rw [Nat.cast_mul, mul_div_assoc, ← grid_eq]
    rfl
  rw [holds_iff hpos (show 0 < Nat.pow 10 (-g).toNat from Nat.pow_pos (by decide)), hvalue]

/-- A neighbour that is picked rounds to the number. -/
theorem roundsTo_of_pick {tie : Tie} {g : ℤ} {d : Shortest} (hpos : 0 < m)
    (h : (Interval.ofParts m e).pick tie g = some d) : RoundsTo m e d.value := by
  unfold Interval.pick at h
  dsimp only at h
  split at h
  · rename_i hits
    cases h
    refine (holds_grid_iff hpos g).mp ?_
    split_ifs
    · exact hits.2
    · exact hits.1.2
  · split at h
    · rename_i hit
      cases h
      exact (holds_grid_iff hpos g).mp hit.2
    · split at h
      · rename_i hit
        cases h
        exact (holds_grid_iff hpos g).mp hit
      · cases h

/-- A float is between two neighbouring decimals of a position. -/
theorem neighbours_bounds (m : ℕ) (e g : ℤ) {below : ℕ}
    (hbelow : below = (Interval.ofParts m e).value * Nat.pow 10 (-g).toNat /
      ((Interval.ofParts m e).scale * Nat.pow 10 g.toNat)) :
    (below : ℚ) * (10 : ℚ) ^ g ≤ m * (2 : ℚ) ^ e ∧
      m * (2 : ℚ) ^ e < ((below + 1 : ℕ) : ℚ) * (10 : ℚ) ^ g := by
  have hunit : 0 < Nat.pow 10 g.toNat := Nat.pow_pos (by decide)
  have hden : 0 < Nat.pow 10 (-g).toNat := Nat.pow_pos (by decide)
  have hscale := scale_pos m e
  have hfloor := Nat.div_mul_le_self ((Interval.ofParts m e).value * Nat.pow 10 (-g).toNat)
    ((Interval.ofParts m e).scale * Nat.pow 10 g.toNat)
  have hnext := Nat.lt_mul_div_succ ((Interval.ofParts m e).value * Nat.pow 10 (-g).toNat)
    (Nat.mul_pos hscale hunit)
  rw [← hbelow] at hfloor hnext
  rw [← value_div_scale, grid_eq, mul_div_assoc', mul_div_assoc',
    div_le_div_iff₀ (by exact_mod_cast hden) (by exact_mod_cast hscale),
    div_lt_div_iff₀ (by exact_mod_cast hscale) (by exact_mod_cast hden)]
  norm_cast
  constructor
  · refine le_of_eq_of_le ?_ hfloor
    ring
  · refine lt_of_lt_of_eq hnext ?_
    ring

/-- On a grid that is fine enough one of the two neighbours is picked. -/
theorem pick_isSome {g : ℤ} (tie : Tie) (hc : Canonical m e)
    (hfine : (10 : ℚ) ^ g * 10 ^ 16 ≤ m * (2 : ℚ) ^ e) :
    ((Interval.ofParts m e).pick tie g).isSome = true := by
  have hgrid : (0 : ℚ) < (10 : ℚ) ^ g := zpow_pos (by norm_num) g
  let below := (Interval.ofParts m e).value * Nat.pow 10 (-g).toNat /
    ((Interval.ofParts m e).scale * Nat.pow 10 g.toNat)
  obtain ⟨hle, hlt⟩ := neighbours_bounds m e g (rfl : below = _)
  have hneighbour : (below ≠ 0 ∧ RoundsTo m e (Shortest.mk below g).value) ∨
      RoundsTo m e (Shortest.mk (below + 1) g).value := by
    have hclose : (10 : ℚ) ^ g / 2 < m * (2 : ℚ) ^ e / 2 ^ 54 := by
      norm_num at hfine ⊢
      linarith
    by_cases hnearer : m * (2 : ℚ) ^ e - below * (10 : ℚ) ^ g ≤ (10 : ℚ) ^ g / 2
    · left
      constructor
      · intro hzero
        rw [hzero] at hlt
        norm_num at hlt hfine
        linarith
      · refine roundsTo_of_near hc ?_
        rw [abs_lt]
        unfold Shortest.value
        constructor <;> linarith
    · right
      refine roundsTo_of_near hc ?_
      rw [abs_lt]
      unfold Shortest.value
      push_cast at hlt ⊢
      constructor <;> linarith
  unfold Interval.pick
  dsimp only
  split
  · rfl
  · split
    · rfl
    · split
      · rfl
      · rename_i hlow hhigh
        rcases hneighbour with ⟨hne, hround⟩ | hround
        · exact absurd ⟨hne, (holds_grid_iff hc.pos g).mpr hround⟩ hlow
        · exact absurd ((holds_grid_iff hc.pos g).mpr hround) hhigh

end Interval

/-! ### The grids -/

/-- Where the first digit of a fraction stands. -/
theorem leadingPosition_bounds {n d fuel : ℕ} (hd : 0 < d) (hfuel : d ≤ n * 10 ^ fuel) :
    (10 : ℚ) ^ (leadingPosition n d fuel - 1) ≤ n / d ∧
      (n / d : ℚ) < (10 : ℚ) ^ leadingPosition n d fuel := by
  have hd' : (0 : ℚ) < d := by exact_mod_cast hd
  have hwhole : ∀ {n : ℕ}, d ≤ n →
      (10 : ℚ) ^ (((Nat.toDigits 10 (n / d)).length : ℤ) - 1) ≤ n / d ∧
        (n / d : ℚ) < (10 : ℚ) ^ ((Nat.toDigits 10 (n / d)).length : ℤ) := by
    intro n hle
    have hquotient : 0 < n / d := Nat.div_pos hle hd
    obtain ⟨hfewest, hmost⟩ := length_toDigits_bounds hquotient
    have hlength : 0 < (Nat.toDigits 10 (n / d)).length := Nat.length_toDigits_pos
    generalize (Nat.toDigits 10 (n / d)).length = length at hfewest hmost hlength
    have hpred : (length : ℤ) - 1 = (length - 1 : ℕ) := by omega
    rw [hpred, zpow_natCast, zpow_natCast, le_div_iff₀ hd', div_lt_iff₀ hd']
    rw [Nat.le_div_iff_mul_le hd] at hfewest
    rw [Nat.div_lt_iff_lt_mul hd] at hmost
    exact_mod_cast And.intro hfewest hmost
  fun_induction leadingPosition n d fuel with
  | case1 n => exact hwhole (by simpa using hfuel)
  | case2 n fuel hle => exact hwhole hle
  | case3 n fuel hlt ih =>
    have hmore : d ≤ n * 10 * 10 ^ fuel := by
      rw [Nat.mul_assoc, ← Nat.pow_succ']
      exact hfuel
    obtain ⟨hlow, hhigh⟩ := ih hmore
    generalize leadingPosition (n * 10) d fuel = position at hlow hhigh
    have hten : ((n * 10 : ℕ) / d : ℚ) = n / d * 10 := by
      push_cast
      ring
    rw [hten] at hlow hhigh
    rw [zpow_sub_one₀ (by norm_num)] at hlow
    rw [zpow_sub_one₀ (by norm_num), zpow_sub_one₀ (by norm_num)]
    constructor <;> linarith

/-- A search that goes on to a grid with a hit ends with one. -/
theorem search_of_pick {i : Interval} {tie : Tie} {P : Shortest → Prop}
    (hpick : ∀ g d, i.pick tie g = some d → P d) {g : ℤ} {fuel : ℕ}
    (hlast : (i.pick tie (g - fuel)).isSome = true) : P (i.search tie g (fuel + 1)) := by
  induction fuel generalizing g with
  | zero =>
    obtain ⟨d, hd⟩ := Option.isSome_iff_exists.mp hlast
    rw [Nat.cast_zero, sub_zero] at hd
    unfold Interval.search
    rw [hd]
    exact hpick g d hd
  | succ fuel ih =>
    unfold Interval.search
    cases hd : i.pick tie g with
    | some d => exact hpick g d hd
    | none =>
      refine ih ?_
      rwa [show g - 1 - fuel = g - (fuel + 1 : ℕ) by omega]

theorem scale_le {m : ℕ} {e : ℤ} (hc : Canonical m e) {fuel : ℕ} (hfuel : 1076 ≤ 3 * fuel) :
    (Interval.ofParts m e).scale ≤ (Interval.ofParts m e).value * 10 ^ fuel := by
  have hvalue : 0 < (Interval.ofParts m e).value :=
    Nat.mul_pos (Nat.mul_pos (by decide) hc.pos) (Nat.shiftLeft_pos_iff.mpr Nat.one_pos)
  have hleast := hc.least
  calc (Interval.ofParts m e).scale = 2 ^ (2 - e).toNat := Nat.one_shiftLeft _
    _ ≤ 2 ^ (3 * fuel) := Nat.pow_le_pow_right two_pos (by omega)
    _ = (2 ^ 3) ^ fuel := Nat.pow_mul 2 3 fuel
    _ ≤ 10 ^ fuel := Nat.pow_le_pow_left (by decide) fuel
    _ ≤ (Interval.ofParts m e).value * 10 ^ fuel := Nat.le_mul_of_pos_left _ hvalue

/-- **The shortest decimal rounds to its number.**  Seventeen digits are enough for a hit. -/
theorem roundsTo_shortest (tie : Tie) {m : ℕ} {e : ℤ} (hc : Canonical m e) :
    RoundsTo m e (shortest tie m e).value := by
  let i := Interval.ofParts m e
  let position := leadingPosition i.value i.scale 400
  have hfuel : i.scale ≤ i.value * 10 ^ 400 := scale_le hc (by decide)
  obtain ⟨hfirst, -⟩ := leadingPosition_bounds (scale_pos m e) hfuel
  have hpick : ∀ g d, i.pick tie g = some d → RoundsTo m e d.value :=
    fun g d hd => roundsTo_of_pick hc.pos hd
  have hlast : (i.pick tie (position - 1 - (16 : ℕ))).isSome = true := by
    refine pick_isSome tie hc ?_
    rw [← value_div_scale, zpow_sub₀ (by norm_num), zpow_natCast,
      div_mul_cancel₀ _ (by norm_num)]
    exact hfirst
  unfold shortest
  rw [value_stripZeros]
  exact search_of_pick hpick hlast

end RuleEngine.Decimal
