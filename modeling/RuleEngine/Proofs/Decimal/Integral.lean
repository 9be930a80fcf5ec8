/-
  RuleEngine/Proofs/Decimal/Integral.lean
  =======================================
  **Integers, as floats and as digits.**

  What a float is worth is said here of its 64 bits (`exactValue?`), as the format lays them out:
  a sign, eleven bits of an exponent and 52 of a fraction.  The integer that is read off a
  float is this number, and none is read off a float that is no integer
  (`toInt?_eq_some_iff`).

  A text spells an integer by decimal digits, which a sign may precede (`Spells`).  Reading
  takes every such text, and no other, for the integer that it spells
  (`readInteger?_eq_some_iff`), and refuses those that are beyond 64 bits
  (`readInt64?_eq_some_iff`).
-/
import RuleEngine.Decimal.Reader
import RuleEngine.Proofs.Decimal.Binary
import RuleEngine.Proofs.Decimal.Plain

namespace RuleEngine.Decimal

open Float.Model Float.Model.UnpackedFloat

/-! ### The exact value of a float -/

/-- The rational number that a float is by its bits; none if it is infinite or no number.  The
    least exponent is that of the subnormal numbers, which have no leading bit. -/
def exactValue? (x : Float) : Option ℚ :=
  let bits := x.toBits.toNat
  let sign : ℚ := if bits / 2 ^ 63 = 0 then 1 else -1
  let exponent : ℕ := bits / 2 ^ 52 % 2 ^ 11
  let fraction : ℕ := bits % 2 ^ 52
  if exponent = 2047 then none
  else if exponent = 0 then some (sign * fraction * 2 ^ (-1074 : ℤ))
  else some (sign * (2 ^ 52 + fraction) * 2 ^ (exponent - 1075 : ℤ))

def Value.rational? : Value → Option ℚ
  | .finite negative m e => some ((if negative then -1 else 1) * m * 2 ^ e)
  | _ => none

section Fields

variable (bits : BitVec 64)

theorem toNat_unpackMantissa :
    (@unpackMantissa .binary64 bits).toNat = bits.toNat % 2 ^ 52 :=
  BitVec.extractLsb_toNat 51 0 bits

theorem toNat_unpackExponent :
    (@unpackExponent .binary64 bits).toNat = bits.toNat / 2 ^ 52 % 2 ^ 11 := by
  rw [← Nat.shiftRight_eq_div_pow]
  exact BitVec.extractLsb_toNat 62 52 bits

theorem toNat_unpackSign :
    (@unpackSign .binary64 bits).toNat = bits.toNat / 2 ^ 63 := by
  have hsign : (@unpackSign .binary64 bits).toNat = bits.toNat >>> 63 % 2 ^ 1 :=
    BitVec.extractLsb_toNat 63 63 bits
  have hlt : bits.toNat < 2 ^ 64 := bits.isLt
  rw [hsign, Nat.shiftRight_eq_div_pow]
  omega

end Fields

section Unpacked

variable {x : Float}

theorem rational?_of_unpack_infinity {s : Sign} (h : x.toModel.unpack = .infinity s) :
    (Value.ofFloat x).rational? = none := by
  unfold Value.ofFloat
  rw [h]
  cases s <;> rfl

theorem rational?_of_unpack_notANumber (h : x.toModel.unpack = .notANumber) :
    (Value.ofFloat x).rational? = none := by
  unfold Value.ofFloat
  rw [h]
  rfl

theorem rational?_of_unpack_zero {s : Sign} (h : x.toModel.unpack = .zero s) :
    (Value.ofFloat x).rational? = some 0 := by
  unfold Value.ofFloat
  rw [h]
  cases s <;> simp [Value.rational?]

theorem rational?_of_unpack_finite {sign : BitVec 1} {m : ℕ} {e : ℤ} {hpos : 0 < m}
    (h : x.toModel.unpack = .finite (Sign.ofBitVec sign) m e hpos) :
    (Value.ofFloat x).rational? =
      some ((if sign.toNat = 0 then 1 else -1 : ℚ) * m * 2 ^ e) := by
  have hzero : sign = 0#1 ↔ sign.toNat = 0 :=
    ⟨fun hsign => congrArg BitVec.toNat hsign, fun hnat => BitVec.eq_of_toNat_eq hnat⟩
  unfold Value.ofFloat
  rw [h, Sign.ofBitVec]
  by_cases hsign : sign.toNat = 0
  · rw [if_pos (hzero.mpr hsign), if_pos hsign]
    rfl
  · rw [if_neg (mt hzero.mp hsign), if_neg hsign]
    rfl

end Unpacked

/-- The value of a float is the number that its bits are. -/
theorem exactValue?_eq_rational? (x : Float) : exactValue? x = (Value.ofFloat x).rational? := by
  let bits : BitVec 64 := x.toBits.toBitVec
  let fraction : BitVec 52 := @unpackMantissa .binary64 bits
  let exponent : BitVec 11 := @unpackExponent .binary64 bits
  let sign : BitVec 1 := @unpackSign .binary64 bits
  have hfraction : fraction.toNat = x.toBits.toNat % 2 ^ 52 := toNat_unpackMantissa bits
  have hexponent : exponent.toNat = x.toBits.toNat / 2 ^ 52 % 2 ^ 11 := toNat_unpackExponent bits
  have hsign : sign.toNat = x.toBits.toNat / 2 ^ 63 := toNat_unpackSign bits
  unfold exactValue?
  dsimp only
  rw [← hfraction, ← hexponent, ← hsign]
  -- both sides are settled by the exponent field: the last one, the first one, or between
  have hu : x.toModel.unpack = UnpackedFloat.unpack .binary64 bits := rfl
  unfold UnpackedFloat.unpack at hu
  dsimp only at hu
  split at hu
  · rename_i hlast
    have hfull : exponent.toNat = 2047 := congrArg BitVec.toNat hlast
    rw [if_pos hfull]
    split at hu
    · exact (rational?_of_unpack_infinity hu).symm
    · exact (rational?_of_unpack_notANumber hu).symm
  · rename_i hnotLast
    have hpart : exponent.toNat ≠ 2047 := fun hfull => hnotLast (BitVec.eq_of_toNat_eq hfull)
    rw [if_neg hpart]
    split at hu
    · rename_i hzero
      have hleast : exponent.toNat = 0 := congrArg BitVec.toNat hzero
      rw [if_pos hleast]
      split at hu
      · rename_i hnone
        have hleastFraction : fraction.toNat = 0 := congrArg BitVec.toNat hnone
        rw [rational?_of_unpack_zero hu, hleastFraction]
        simp
      · -- the exponent of the subnormal numbers is that of the field 1
        rw [rational?_of_unpack_finite hu, hzero]
        rfl
    · rename_i hnotZero
      have hnormal : exponent.toNat ≠ 0 := fun hleast => hnotZero (BitVec.eq_of_toNat_eq hleast)
      have hleading : (1#1 ++ fraction).toNat = 2 ^ 52 + fraction.toNat := toNat_one_append fraction
      rw [if_neg hnormal, rational?_of_unpack_finite hu]
      show _ = some (_ * ((1#1 ++ fraction).toNat : ℚ) * 2 ^ (exponent.toNat - 1075 : ℤ))
      rw [hleading]
      push_cast
      rfl

theorem sign_mul_eq_iff (negative : Bool) (q : ℚ) (i : ℤ) :
    (if negative then -1 else 1) * q = i ↔ q = (if negative then -i else i : ℤ) := by
  cases negative with
  | false => simp
  | true =>
    simp only [if_true, neg_mul, one_mul, Int.cast_neg]
    exact neg_eq_iff_eq_neg

theorem shiftLeft_eq_mul (m k : ℕ) : (m <<< k : ℕ) = (m * 2 ^ Int.ofNat k : ℚ) := by
  rw [Nat.shiftLeft_eq]
  push_cast
  rfl

theorem shiftRight_eq_mul {m k : ℕ} (whole : m % (1 <<< (k + 1)) = 0) :
    (m >>> (k + 1) : ℕ) = (m * 2 ^ Int.negSucc k : ℚ) := by
  rw [Nat.shiftLeft_eq, Nat.one_mul] at whole
  rw [Nat.shiftRight_eq_div_pow, zpow_negSucc, ← div_eq_mul_inv,
    Nat.cast_div (Nat.dvd_of_mod_eq_zero whole) (by positivity)]
  push_cast
  rfl

/-- A number with a fraction is no integer. -/
theorem mul_ne_int {m k : ℕ} (part : m % (1 <<< (k + 1)) ≠ 0) (j : ℤ) :
    (m * 2 ^ Int.negSucc k : ℚ) ≠ j := by
  intro heq
  rw [zpow_negSucc, ← div_eq_mul_inv, div_eq_iff (by positivity)] at heq
  have hint : (m : ℤ) = j * 2 ^ (k + 1) := by exact_mod_cast heq
  have hdvd : 2 ^ (k + 1) ∣ m := by
    rw [← Int.natCast_dvd_natCast, hint]
    push_cast
    exact Dvd.intro_left j rfl
  rw [Nat.shiftLeft_eq, Nat.one_mul] at part
  exact part (Nat.mod_eq_zero_of_dvd hdvd)

/-- **The integer that is read off a float is its exact value.** -/
theorem toInt?_eq_some_iff {x : Float} {i : ℤ} :
    toInt? x = some i ↔ exactValue? x = some (i : ℚ) := by
  rw [exactValue?_eq_rational?, toInt?]
  cases Value.ofFloat x with
  | notNumber => simp [Value.rational?]
  | infinite negative => simp [Value.rational?]
  | finite negative m e =>
    have hsigned : ∀ n : ℕ, (if negative then -(n : ℤ) else n) = i ↔
        (n : ℚ) = (if negative then -i else i : ℤ) := by
      intro n
      rw [show (n : ℚ) = ((n : ℤ) : ℚ) from (Int.cast_natCast n).symm, Int.cast_inj]
      cases negative with
      | false => exact Iff.rfl
      | true => exact neg_eq_iff_eq_neg
    rw [Value.rational?, Option.some_inj, mul_assoc, sign_mul_eq_iff]
    cases e with
    | ofNat k =>
      rw [← shiftLeft_eq_mul, ← hsigned]
      exact Option.some_inj
    | negSucc k =>
      by_cases whole : m % (1 <<< (k + 1)) = 0
      · rw [← shiftRight_eq_mul whole, ← hsigned]
        simp [whole]
      · refine iff_of_false ?_ (mul_ne_int whole _)
        simp [whole]

/-! ### Texts that spell integers -/

/-- A sign, or none, and the factor that it stands for. -/
inductive IsSign : List Char → ℤ → Prop where
  | none : IsSign [] 1
  | plus : IsSign ['+'] 1
  | minus : IsSign ['-'] (-1)

/-- The number of decimal digits, the last one being that of the units. -/
def numeral (digits : List Char) : ℕ :=
  Nat.ofDigits 10 (digits.reverse.map fun c => c.toNat - '0'.toNat)

/-- Characters spell an integer: a sign or none, and at least one digit. -/
inductive Spells : List Char → ℤ → Prop where
  | intro {sign digits : List Char} {factor : ℤ} (isSign : IsSign sign factor)
      (nonempty : digits ≠ []) (digit : ∀ c ∈ digits, c.isDigit = true) :
      Spells (sign ++ digits) (factor * numeral digits)

theorem digitsValue_eq (acc : ℕ) (digits : List Char) :
    digitsValue acc digits = numeral digits + 10 ^ digits.length * acc := by
  induction digits generalizing acc with
  | nil => simp [digitsValue, numeral]
  | cons c digits ih =>
    have hstep : digitsValue acc (c :: digits) =
        digitsValue (10 * acc + (c.toNat - '0'.toNat)) digits := rfl
    have hnumeral : numeral (c :: digits) =
        numeral digits + 10 ^ digits.length * (c.toNat - '0'.toNat) := by
      simp [numeral, Nat.ofDigits_append]
    rw [hstep, ih, hnumeral, List.length_cons, pow_succ]
    ring

theorem readNat?_eq_some_iff {digits : List Char} {n : ℕ} :
    readNat? digits = some n ↔
      digits ≠ [] ∧ (∀ c ∈ digits, c.isDigit = true) ∧ n = numeral digits := by
  have hvalue : digitsValue 0 digits = numeral digits := by
    rw [digitsValue_eq, Nat.mul_zero, Nat.add_zero]
  unfold readNat?
  rw [hvalue]
  split
  · rename_i hbad
    simp only [reduceCtorEq, false_iff]
    rintro ⟨hne, hdigit, -⟩
    have hall : digits.all Char.isDigit = true := List.all_eq_true.mpr hdigit
    simp [hne, hall] at hbad
  · rename_i hgood
    simp only [Bool.or_eq_true, List.isEmpty_iff, Bool.not_eq_true', List.all_eq_false,
      not_or, not_exists, not_and, not_not] at hgood
    rw [Option.some_inj, eq_comm]
    exact ⟨fun h => ⟨hgood.1, hgood.2, h⟩, fun h => h.2.2⟩

theorem splitSign_isSign (cs : List Char) :
    ∃ sign, IsSign sign (if (splitSign cs).1 then -1 else 1) ∧ cs = sign ++ (splitSign cs).2 := by
  unfold splitSign
  split
  · exact ⟨['-'], .minus, rfl⟩
  · exact ⟨['+'], .plus, rfl⟩
  · exact ⟨[], .none, rfl⟩

theorem splitSign_append {sign digits : List Char} {factor : ℤ} (isSign : IsSign sign factor)
    (digit : ∀ c ∈ digits, c.isDigit = true) :
    (splitSign (sign ++ digits)).2 = digits ∧
      (if (splitSign (sign ++ digits)).1 then -1 else 1) = factor := by
  cases isSign with
  | plus => exact ⟨rfl, rfl⟩
  | minus => exact ⟨rfl, rfl⟩
  | none =>
    rw [List.nil_append, splitSign_of_digital fun c hc => .inl (digit c hc)]
    exact ⟨rfl, rfl⟩

/-- **A text is read as the integer that it spells.** -/
theorem readInteger?_eq_some_iff {s : String} {i : ℤ} :
    readInteger? s = some i ↔ Spells s.toList i := by
  generalize htext : s.toList = cs
  have hread : readInteger? s = some i ↔ ∃ n, readNat? (splitSign cs).2 = some n ∧
      (if (splitSign cs).1 then -1 else 1) * (n : ℤ) = i := by
    unfold readInteger?
    rw [htext]
    rcases splitSign cs with ⟨negative, digits⟩
    cases negative <;> simp [Option.bind_eq_some_iff]
  rw [hread]
  constructor
  · rintro ⟨n, hnat, rfl⟩
    obtain ⟨sign, hsign, hcs⟩ := splitSign_isSign cs
    obtain ⟨hne, hdigit, rfl⟩ := readNat?_eq_some_iff.mp hnat
    have hspells := Spells.intro hsign hne hdigit
    rwa [← hcs] at hspells
  · rintro ⟨hsign, hne, hdigit⟩
    obtain ⟨hrest, hfactor⟩ := splitSign_append hsign hdigit
    rw [hrest, hfactor]
    exact ⟨_, readNat?_eq_some_iff.mpr ⟨hne, hdigit, rfl⟩, rfl⟩

/-- **A text is read as an integer of 64 bits only if it spells it.** -/
theorem readInt64?_eq_some_iff {s : String} {i : Int64} :
    readInt64? s = some i ↔ Spells s.toList i.toInt := by
  have hleast : Int64.minValue.toInt = -2 ^ 63 := Int64.toInt_minValue
  have hmost : Int64.maxValue.toInt = 2 ^ 63 - 1 := Int64.toInt_maxValue
  rw [← readInteger?_eq_some_iff, readInt64?]
  constructor
  · intro h
    split at h
    · rename_i n hread
      split at h
      · rename_i hfits
        simp only [fitsInt64, Bool.and_eq_true, decide_eq_true_eq] at hfits
        obtain rfl := Option.some_inj.mp h
        rw [hread, Int64.toInt_ofInt_of_le (by omega) (by omega)]
      · cases h
    · cases h
  · intro hread
    have hge := i.le_toInt
    have hlt := i.toInt_lt
    have hfits : fitsInt64 i.toInt = true := by
      simp only [fitsInt64, Bool.and_eq_true, decide_eq_true_eq]
      omega
    rw [hread]
    dsimp only
    rw [if_pos hfits, Int64.ofInt_toInt]

end RuleEngine.Decimal
