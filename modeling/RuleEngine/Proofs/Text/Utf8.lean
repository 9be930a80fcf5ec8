/-
  RuleEngine/Proofs/Text/Utf8.lean
  ================================
  **Text and its bytes.**

  Decoding undoes encoding, and encoding undoes decoding where the bytes are well
  formed.  Both come from one step: the bytes of a character are decoded to it, and
  whatever decodes to a character are its bytes, since overlong forms, surrogates
  and numbers beyond the last character are faults.
-/
import Mathlib.Tactic.Common
import RuleEngine.Text.Utf8

namespace RuleEngine.Text

/-! ### The bytes of a text -/

/-- The bytes of an array from a place on, as the conversion to a list collects them. -/
theorem loop_eq_drop (bytes : ByteArray) {i left : Nat} (size : i + left = bytes.size)
    (seen : List UInt8) :
    ByteArray.toList.loop bytes i seen = seen.reverse ++ bytes.data.toList.drop i := by
  have length : bytes.data.toList.length = bytes.size := rfl
  rw [ByteArray.toList.loop]
  induction left generalizing i seen with
  | zero =>
    rw [if_neg (by omega), List.drop_eq_nil_of_le (by omega), List.append_nil]
  | succ left ih =>
    have inside : i < bytes.data.toList.length := by omega
    rw [if_pos (by omega), ByteArray.toList.loop, ih (by omega),
      List.drop_eq_getElem_cons inside]
    have here : bytes.get! i = bytes.data.toList[i] := by
      simp only [ByteArray.get!, Array.getElem_toList]
      exact getElem!_pos bytes.data i inside
    simp [here]

theorem encodeUtf8_eq (s : String) :
    encodeUtf8 s = s.toList.flatMap String.utf8EncodeChar := by
  have bytes : s.toUTF8 = s.toList.utf8Encode := by
    rw [String.toUTF8_eq_toByteArray, ← String.toByteArray_ofList, String.ofList_toList]
  rw [encodeUtf8, bytes, ByteArray.toList, loop_eq_drop _ (Nat.zero_add _), List.utf8Encode,
    List.toList_data_toByteArray]
  rfl

/-! ### Bytes as numbers -/

theorem isContinuation_iff {b : UInt8} :
    isContinuation b = true ↔ 128 ≤ b.toNat ∧ b.toNat < 192 := by
  simp only [isContinuation, Bool.and_eq_true, decide_eq_true_eq, UInt8.le_iff_toNat_le]
  simp
  omega

theorem isSecond_iff {lead b : UInt8} :
    isSecond lead b = true ↔
      128 ≤ b.toNat ∧ b.toNat < 192 ∧ (lead.toNat = 224 → 160 ≤ b.toNat) ∧
        (lead.toNat = 237 → b.toNat < 160) ∧ (lead.toNat = 240 → 144 ≤ b.toNat) ∧
        (lead.toNat = 244 → b.toNat < 144) := by
  simp only [isSecond, beq_iff_eq, ← UInt8.toNat_inj]
  split_ifs <;>
    simp_all [isContinuation_iff, UInt8.le_iff_toNat_le] <;> omega

theorem toNat_ofNat_of_valid {n : Nat} (valid : n.isValidChar) : (Char.ofNat n).toNat = n := by
  rw [Char.ofNat, dif_pos valid]
  rfl

/-! ### One character -/

/-- Some bytes are the form of a number: as few bytes as it needs, and none for a
    surrogate or for a number beyond the last character. -/
inductive Form (n : Nat) : List UInt8 → Prop
  | one {a : UInt8} (lead : a.toNat < 128) (number : n = a.toNat) : Form n [a]
  | two {a b : UInt8} (lead : 194 ≤ a.toNat ∧ a.toNat ≤ 223) (second : isContinuation b = true)
    (number : n = a.toNat % 32 * 64 + low6 b) : Form n [a, b]
  | three {a b c : UInt8} (lead : 224 ≤ a.toNat ∧ a.toNat ≤ 239) (second : isSecond a b = true)
    (third : isContinuation c = true)
    (number : n = a.toNat % 16 * 4096 + low6 b * 64 + low6 c) : Form n [a, b, c]
  | four {a b c d : UInt8} (lead : 240 ≤ a.toNat ∧ a.toNat ≤ 244) (second : isSecond a b = true)
    (third : isContinuation c = true) (fourth : isContinuation d = true)
    (number : n = a.toNat % 8 * 262144 + low6 b * 4096 + low6 c * 64 + low6 d) :
    Form n [a, b, c, d]

theorem decodeStep_of_form {bytes : List UInt8} {n : Nat} (form : Form n bytes)
    (rest : List UInt8) :
    ∃ lead more, bytes = lead :: more ∧
      decodeStep lead (more ++ rest) = (some (Char.ofNat n), more.length) := by
  cases form with
  | one lead number =>
    refine ⟨_, _, rfl, ?_⟩
    subst number
    rw [decodeStep.eq_def, if_pos (by simpa [UInt8.lt_iff_toNat_lt] using lead)]
    rfl
  | two lead second number =>
    refine ⟨_, _, rfl, ?_⟩
    subst number
    rw [decodeStep.eq_def, if_neg (by simp [UInt8.lt_iff_toNat_lt]; omega),
      if_pos (by simpa [UInt8.le_iff_toNat_le] using lead)]
    simp [second]
  | three lead second third number =>
    refine ⟨_, _, rfl, ?_⟩
    subst number
    rw [decodeStep.eq_def, if_neg (by simp [UInt8.lt_iff_toNat_lt]; omega),
      if_neg (by simp [UInt8.le_iff_toNat_le]; omega),
      if_pos (by simpa [UInt8.le_iff_toNat_le] using lead)]
    simp [second, third]
  | four lead second third fourth number =>
    refine ⟨_, _, rfl, ?_⟩
    subst number
    rw [decodeStep.eq_def, if_neg (by simp [UInt8.lt_iff_toNat_lt]; omega),
      if_neg (by simp [UInt8.le_iff_toNat_le]; omega),
      if_neg (by simp [UInt8.le_iff_toNat_le]; omega),
      if_pos (by simpa [UInt8.le_iff_toNat_le] using lead)]
    simp [second, third, fourth]

theorem form_of_decodeStep {lead : UInt8} {rest : List UInt8} {c : Char} {k : Nat}
    (step : decodeStep lead rest = (some c, k)) :
    ∃ n more, rest = more ++ rest.drop k ∧ Form n (lead :: more) ∧ c = Char.ofNat n := by
  -- A branch that gives a character has checked what the form of its length asks for; all
  -- others give a fault.
  unfold decodeStep at step
  split_ifs at step with one two three four
  · cases step
    exact ⟨_, [], rfl, .one (by simpa [UInt8.lt_iff_toNat_lt] using one) rfl, rfl⟩
  · split at step
    · split at step
      · rename_i second
        cases step
        exact ⟨_, [_], rfl, .two (by simpa [UInt8.le_iff_toNat_le] using two) second rfl, rfl⟩
      · cases step
    · cases step
  · split at step
    · split at step
      · cases step
      · split at step
        · split at step
          · rename_i second _ _ _ third
            cases step
            exact ⟨_, [_, _], rfl, .three (by simpa [UInt8.le_iff_toNat_le] using three)
              (by simpa using second) third rfl, rfl⟩
          · cases step
        · cases step
    · cases step
  · split at step
    · split at step
      · cases step
      · split at step
        · split at step
          · cases step
          · split at step
            · split at step
              · rename_i second _ _ third _ _ _ fourth
                cases step
                exact ⟨_, [_, _, _], rfl, .four (by simpa [UInt8.le_iff_toNat_le] using four)
                  (by simpa using second) (by simpa using third) fourth rfl, rfl⟩
              · cases step
            · cases step
        · cases step
    · cases step
  · cases step

theorem Form.valid {n : Nat} {bytes : List UInt8} (form : Form n bytes) : n.isValidChar := by
  unfold Nat.isValidChar
  cases form with
  | one lead number => omega
  | two lead second number =>
    rw [isContinuation_iff] at second
    unfold low6 at number
    omega
  | three lead second third number =>
    rw [isSecond_iff] at second
    rw [isContinuation_iff] at third
    unfold low6 at number
    omega
  | four lead second third fourth number =>
    rw [isSecond_iff] at second
    rw [isContinuation_iff] at third fourth
    unfold low6 at number
    omega

theorem byte_eq {n : Nat} {b : UInt8} (same : n = b.toNat) : UInt8.ofNat n = b := by
  rw [same, UInt8.ofNat_toNat]

/-- The bytes of a form are those that its number is written with. -/
theorem Form.bytes_eq {n : Nat} {bytes : List UInt8} (form : Form n bytes) :
    String.utf8EncodeChar (Char.ofNat n) = bytes := by
  have number : (Char.ofNat n).val.toNat = n := toNat_ofNat_of_valid form.valid
  unfold String.utf8EncodeChar
  rw [number]
  cases form with
  | one lead number =>
    rw [if_pos (by omega), byte_eq number]
  | two lead second number =>
    rw [isContinuation_iff] at second
    unfold low6 at number
    rw [if_neg (by omega), if_pos (by omega)]
    simp only [List.cons.injEq, and_true]
    exact ⟨byte_eq (by omega), byte_eq (by omega)⟩
  | three lead second third number =>
    rw [isSecond_iff] at second
    rw [isContinuation_iff] at third
    unfold low6 at number
    rw [if_neg (by omega), if_neg (by omega), if_pos (by omega)]
    simp only [List.cons.injEq, and_true]
    exact ⟨byte_eq (by omega), byte_eq (by omega), byte_eq (by omega)⟩
  | four lead second third fourth number =>
    rw [isSecond_iff] at second
    rw [isContinuation_iff] at third fourth
    unfold low6 at number
    rw [if_neg (by omega), if_neg (by omega), if_neg (by omega)]
    simp only [List.cons.injEq, and_true]
    exact ⟨byte_eq (by omega), byte_eq (by omega), byte_eq (by omega), byte_eq (by omega)⟩

theorem form_of_char (c : Char) : Form c.toNat (String.utf8EncodeChar c) := by
  have valid : c.toNat.isValidChar := c.valid
  have number : c.val.toNat = c.toNat := rfl
  unfold String.utf8EncodeChar
  rw [number]
  generalize c.toNat = n at valid
  unfold Nat.isValidChar at valid
  dsimp only
  split_ifs with one two three
  · apply Form.one
    all_goals simp only [UInt8.toNat_ofNat']; omega
  · apply Form.two
    · simp only [UInt8.toNat_ofNat']; omega
    · rw [isContinuation_iff]
      simp only [UInt8.toNat_ofNat']; omega
    · simp only [low6, UInt8.toNat_ofNat']; omega
  · apply Form.three
    · simp only [UInt8.toNat_ofNat']; omega
    · rw [isSecond_iff]
      simp only [UInt8.toNat_ofNat']; omega
    · rw [isContinuation_iff]
      simp only [UInt8.toNat_ofNat']; omega
    · simp only [low6, UInt8.toNat_ofNat']; omega
  · apply Form.four
    · simp only [UInt8.toNat_ofNat']; omega
    · rw [isSecond_iff]
      simp only [UInt8.toNat_ofNat']; omega
    · rw [isContinuation_iff]
      simp only [UInt8.toNat_ofNat']; omega
    · rw [isContinuation_iff]
      simp only [UInt8.toNat_ofNat']; omega
    · simp only [low6, UInt8.toNat_ofNat']; omega

/-! ### A whole text -/

theorem decodeAll_of_chars (cs : List Char) :
    decodeAll (cs.flatMap String.utf8EncodeChar) = cs.map some := by
  induction cs with
  | nil => rw [List.flatMap_nil, decodeAll, List.map_nil]
  | cons c cs ih =>
    obtain ⟨lead, more, bytes, step⟩ :=
      decodeStep_of_form (form_of_char c) (cs.flatMap String.utf8EncodeChar)
    rw [List.flatMap_cons, bytes, List.cons_append, decodeAll, step, Char.ofNat_toNat]
    simp only [List.drop_left, ih, List.map_cons]

theorem chars_of_decodeAll {bytes : List UInt8} {cs : List Char}
    (decoded : decodeAll bytes = cs.map some) : cs.flatMap String.utf8EncodeChar = bytes := by
  induction cs generalizing bytes with
  | nil =>
    cases bytes with
    | nil => rfl
    | cons lead rest =>
      rw [decodeAll] at decoded
      cases decoded
  | cons c cs ih =>
    cases bytes with
    | nil =>
      rw [decodeAll] at decoded
      cases decoded
    | cons lead rest =>
      rw [decodeAll] at decoded
      generalize step : decodeStep lead rest = first at decoded
      obtain ⟨d, k⟩ := first
      obtain ⟨rfl, others⟩ := List.cons.inj decoded
      obtain ⟨n, more, split, form, rfl⟩ := form_of_decodeStep step
      rw [List.flatMap_cons, form.bytes_eq, ih others, List.cons_append, ← split]

/-- Bytes spell a text exactly if none of them is a fault. -/
theorem decodeUtf8?_eq_some_iff {bytes : List UInt8} {s : String} :
    decodeUtf8? bytes = some s ↔ decodeAll bytes = s.toList.map some := by
  unfold decodeUtf8?
  dsimp only
  constructor
  · intro decoded
    split_ifs at decoded with all
    obtain rfl := Option.some.inj decoded
    rw [String.toList_ofList]
    generalize decodeAll bytes = cs at all
    induction cs with
    | nil => rfl
    | cons c cs ih =>
      rw [List.all_cons, Bool.and_eq_true] at all
      obtain ⟨c, rfl⟩ := Option.isSome_iff_exists.1 all.1
      have rest := ih all.2
      rw [List.filterMap_cons, id, List.map_cons, ← rest]
  · intro all
    simp [all, Function.comp_def]

/-- A text is decoded from its bytes. -/
theorem decodeUtf8?_encodeUtf8 (s : String) : decodeUtf8? (encodeUtf8 s) = some s := by
  rw [decodeUtf8?_eq_some_iff, encodeUtf8_eq, decodeAll_of_chars]

/-- Bytes that spell a text are its bytes. -/
theorem encodeUtf8_of_decodeUtf8? {bytes : List UInt8} {s : String}
    (decoded : decodeUtf8? bytes = some s) : encodeUtf8 s = bytes := by
  rw [encodeUtf8_eq]
  exact chars_of_decodeAll (decodeUtf8?_eq_some_iff.1 decoded)

end RuleEngine.Text
