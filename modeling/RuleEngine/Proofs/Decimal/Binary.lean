/-
  RuleEngine/Proofs/Decimal/Binary.lean
  =====================================
  **What a float packs.**

  A float that is not zero is a mantissa and an exponent, packed into 64 bits.  The mantissa
  has 53 bits, or fewer where the exponent is the least one (`Canonical`).  Whatever is
  unpacked is canonical (`canonical_of_unpack`), and what is canonical survives packing
  (`unpack_pack`), so that a float is known from its mantissa, its exponent and its sign.
-/
import Mathlib
import RuleEngine.Decimal.Value

namespace RuleEngine.Decimal

open Float.Model Float.Model.UnpackedFloat

/-! ### Packing -/

/-- A mantissa and an exponent as binary64 has them. -/
structure Canonical (m : ℕ) (e : ℤ) : Prop where
  pos : 0 < m
  lt : m < 2 ^ 53
  least : -1074 ≤ e
  most : e ≤ 971
  full : 2 ^ 52 ≤ m ∨ e = -1074

theorem toNat_one_append (v : BitVec 52) : (1#1 ++ v).toNat = 2 ^ 52 + v.toNat := by
  have h := Nat.two_pow_add_eq_or_of_lt v.isLt 1
  rw [Nat.mul_one] at h
  rw [BitVec.toNat_append, h]
  rfl

theorem canonical_of_unpack {f : Float.Model} {s : Sign} {m : ℕ} {e : ℤ} {hpos : 0 < m}
    (h : f.unpack = .finite s m e hpos) : Canonical m e := by
  let mantissa : BitVec 52 := @unpackMantissa .binary64 f.toBits.toBitVec
  let exponent : BitVec 11 := @unpackExponent .binary64 f.toBits.toBitVec
  have hmantissa : mantissa.toNat < 2 ^ 52 := mantissa.isLt
  have hexponent : exponent.toNat < 2 ^ 11 := exponent.isLt
  unfold Float.Model.unpack UnpackedFloat.unpack at h
  dsimp only at h
  split at h
  · split at h <;> cases h
  · rename_i hnotLast
    split at h
    · split at h
      · cases h
      · -- subnormal
        rename_i hzero _
        cases h
        rw [hzero]
        exact ⟨hpos, Nat.lt_trans hmantissa (by decide), by decide, by decide, .inr (by decide)⟩
    · -- normal
      rename_i hnotZero
      cases h
      have hfirst : exponent.toNat ≠ 0 := fun hz => hnotZero (BitVec.eq_of_toNat_eq hz)
      have hlast : exponent.toNat ≠ 2047 := fun hl => hnotLast (BitVec.eq_of_toNat_eq hl)
      have hleading : (1#1 ++ mantissa).toNat = 2 ^ 52 + mantissa.toNat := toNat_one_append mantissa
      show Canonical (1#1 ++ mantissa).toNat (exponent.toNat - 1075)
      rw [hleading]
      exact ⟨by omega, by omega, by omega, by omega, .inl (by omega)⟩

/-! A float is normal, with a leading bit that is not written, or subnormal. -/

theorem unpack_normal (s : Sign) {exponent : BitVec 11} {mantissa : BitVec 52} {m : ℕ} {e : ℤ}
    (hm : m = 2 ^ 52 + mantissa.toNat) (he : e = exponent.toNat - 1075)
    (hfirst : exponent ≠ 0#11) (hlast : exponent ≠ -1#11) (hpos : 0 < m) :
    unpack .binary64 (packComponents .binary64 s exponent mantissa) = .finite s m e hpos := by
  obtain rfl := hm.trans (toNat_one_append mantissa).symm
  subst he
  unfold UnpackedFloat.unpack
  dsimp only
  rw [unpackExponent_packComponents, if_neg hlast, if_neg hfirst]
  simp only [unpackMantissa_packComponents, unpackSign_packComponents, Sign.ofBitVec_toBitVec]
  rfl

theorem unpack_subnormal (s : Sign) {mantissa : BitVec 52} (hpos : 0 < mantissa.toNat) :
    unpack .binary64 (packComponents .binary64 s 0#11 mantissa) =
      .finite s mantissa.toNat (-1074) hpos := by
  have hne : mantissa ≠ 0#52 := by
    rintro rfl
    exact Nat.lt_irrefl 0 hpos
  unfold UnpackedFloat.unpack
  dsimp only
  rw [unpackExponent_packComponents, if_neg (by decide), if_pos rfl]
  simp only [unpackMantissa_packComponents, unpackSign_packComponents, Sign.ofBitVec_toBitVec]
  rw [dif_neg hne]
  rfl

theorem pack_finite (s : Sign) {m : ℕ} {e : ℤ} (hpos : 0 < m) (hmost : e ≤ 971) :
    UnpackedFloat.pack .binary64 (.finite s m e hpos) =
      packComponents .binary64 s
        (if m.log2 = 52 then BitVec.ofNat 11 (e + 1075).toNat else 0#11) (BitVec.ofNat 52 m) := by
  have hbias : e + 1023 + 52 = e + 1075 := by omega
  have hfits : ¬ 2 ^ 11 ≤ (e + 1075).toNat + 1 := by omega
  unfold UnpackedFloat.pack
  show (if 2 ^ 11 ≤ (e + 1023 + 52).toNat + 1 then _ else if m.log2 + 1 = 53 then
    packComponents .binary64 s (BitVec.ofNat 11 (e + 1023 + 52).toNat) _ else _) = _
  rw [hbias, if_neg hfits]
  by_cases hnormal : m.log2 = 52
  · rw [if_pos hnormal, if_pos (congrArg (· + 1) hnormal)]
  · rw [if_neg hnormal, if_neg (mt Nat.succ.inj hnormal)]

/-- Packing a canonical number loses nothing. -/
theorem unpack_pack {s : Sign} {m : ℕ} {e : ℤ} (hc : Canonical m e) :
    (Float.Model.pack (.finite s m e hc.pos)).unpack = .finite s m e hc.pos := by
  obtain ⟨hpos, hlt, hleast, hmost, hfull⟩ := hc
  show unpack .binary64 (UnpackedFloat.pack .binary64 (.finite s m e hpos)) = _
  have hmantissa : (BitVec.ofNat 52 m).toNat = m % 2 ^ 52 := BitVec.toNat_ofNat m 52
  have hexponent : (BitVec.ofNat 11 (e + 1075).toNat).toNat = (e + 1075).toNat := by
    rw [BitVec.toNat_ofNat]
    omega
  rw [pack_finite s hpos hmost]
  by_cases hnormal : 2 ^ 52 ≤ m
  · rw [if_pos ((Nat.log2_eq_iff hpos.ne').mpr ⟨hnormal, hlt⟩)]
    refine unpack_normal s ?_ ?_ ?_ ?_ hpos
    · omega
    · omega
    · intro hfirst
      rw [hfirst, BitVec.toNat_ofNat] at hexponent
      omega
    · intro hlast
      rw [hlast] at hexponent
      have hall : (-1#11).toNat = 2047 := rfl
      omega
  · obtain rfl : e = -1074 := hfull.resolve_left hnormal
    have hlog : m.log2 ≠ 52 := by
      intro hlog
      exact hnormal ((Nat.log2_eq_iff hpos.ne').mp hlog).1
    have hsmall : (BitVec.ofNat 52 m).toNat = m := by omega
    rw [if_neg hlog]
    simp only [unpack_subnormal s (by omega : 0 < (BitVec.ofNat 52 m).toNat), hsmall]

theorem ofModel_pack_unpack (x : Float) : .ofModel (.pack x.toModel.unpack) = x :=
  Float.ofBits_toBits x

/-! ### Signs -/

def Plus : UnpackedFloat → Prop
  | .infinity .positive | .zero .positive | .finite .positive .. => True
  | _ => False

theorem plus_unpack {exponent : BitVec 11} {mantissa : BitVec 52}
    (hnumber : exponent ≠ -1#11 ∨ mantissa = 0#52) :
    Plus (unpack .binary64 (packComponents .binary64 .positive exponent mantissa)) := by
  unfold UnpackedFloat.unpack
  dsimp only
  rw [unpackExponent_packComponents]
  simp only [unpackMantissa_packComponents, unpackSign_packComponents, Sign.ofBitVec_toBitVec]
  split
  · rename_i hlast
    rw [if_pos (hnumber.resolve_left (not_not_intro hlast))]
    trivial
  · split
    · split <;> trivial
    · trivial

theorem plus_unpack_pack {u : UnpackedFloat} (h : Plus u) : Plus (Float.Model.pack u).unpack := by
  show Plus (unpack .binary64 (UnpackedFloat.pack .binary64 u))
  rcases u with (_ | _) | _ | (_ | _) | ⟨_ | _, m, e, hpos⟩
  · exact h.elim
  · exact plus_unpack (.inr rfl)
  · exact h.elim
  · exact h.elim
  · exact plus_unpack (.inl (by decide))
  · exact h.elim
  · unfold UnpackedFloat.pack
    dsimp only
    split
    · exact plus_unpack (.inr rfl)
    · rename_i hfits
      split
      · refine plus_unpack (.inl ?_)
        intro hlast
        have hnat := congrArg BitVec.toNat hlast
        rw [BitVec.toNat_ofNat,
          Nat.mod_eq_of_lt (Nat.lt_of_succ_lt (Nat.lt_of_not_le hfits))] at hnat
        have hall : (-1#11).toNat = 2047 := rfl
        exact hfits (by omega)
      · exact plus_unpack (.inl (by decide))

theorem exists_finite_of_plus {x : Float} (h : Plus x.toModel.unpack)
    (hfinite : x.isFinite = true) : ∃ m e, Value.ofFloat x = .finite false m e := by
  have hunpacked : x.toModel.unpack.isFinite = true := hfinite
  unfold Value.ofFloat
  rcases hx : x.toModel.unpack with (_ | _) | _ | (_ | _) | ⟨_ | _, m, e, hpos⟩ <;>
    rw [hx] at h hunpacked
  · exact h.elim
  · cases hunpacked
  · exact h.elim
  · exact h.elim
  · exact ⟨0, 0, rfl⟩
  · exact h.elim
  · exact ⟨m, e, rfl⟩

end RuleEngine.Decimal
