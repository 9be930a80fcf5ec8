/-
  RuleEngine/Proofs/Template/References.lean
  ==========================================
  **Where a reference starts and ends.**

  The two readers of references look ahead for a closing character.  Here each is told by
  the form of the text that it takes: a placeholder is a name between percent signs, a
  property a key between braces that may have blanks around it.  Neither depends on what
  comes after the closing character.
-/
import Mathlib
import RuleEngine.Template.Reference

namespace RuleEngine

/-- A scan that ended in something made of a result went well itself. -/
theorem exists_ok_of_map {α β : Type} {f : α → β} {x : Except TemplateError α} {b : β}
    (h : x.map f = .ok b) : ∃ a, x = .ok a ∧ b = f a := by
  cases x with
  | error e => cases h
  | ok a =>
    cases h
    exact ⟨a, rfl, rfl⟩

/-- Characters are split at the first stop. -/
theorem splitAtChar_append {stop : Char} {before : List Char} (h : stop ∉ before)
    (after : List Char) : splitAtChar stop (before ++ stop :: after) = some (before, after) := by
  induction before with
  | nil => simp [splitAtChar]
  | cons c cs ih =>
    rw [List.mem_cons, not_or] at h
    obtain ⟨hc, hcs⟩ := h
    rw [List.cons_append, splitAtChar, if_neg (Ne.symm hc), ih hcs]
    rfl

theorem not_mem_of_splitAtChar_eq_none {stop : Char} {cs : List Char}
    (h : splitAtChar stop cs = none) : stop ∉ cs := by
  intro hmem
  obtain ⟨before, after, rfl, hbefore⟩ := List.eq_append_cons_of_mem hmem
  rw [splitAtChar_append hbefore] at h
  cases h

/-- The first occurrence of a character splits a text in one way. -/
theorem eq_of_append_stop {stop : Char} {before after before' after' : List Char}
    (h : stop ∉ before) (h' : stop ∉ before')
    (heq : before ++ stop :: after = before' ++ stop :: after') :
    before = before' ∧ after = after' := by
  have hsplit := splitAtChar_append h after
  rw [heq, splitAtChar_append h'] at hsplit
  cases hsplit
  exact ⟨rfl, rfl⟩

theorem isReferenceChar_percent : isReferenceChar '%' = false := by decide

theorem isReferenceChar_closeBrace : isReferenceChar '\x7d' = false := by decide

/-- Trimming takes characters away and changes none. -/
theorem Text.trimChars_sublist (cs : List Char) : (Text.trimChars cs).Sublist cs := by
  unfold Text.trimChars Text.dropBlankEnd
  refine List.Sublist.trans ?_ (List.dropWhile_sublist Text.isBlank)
  rw [← List.reverse_sublist, List.reverse_reverse]
  exact List.dropWhile_sublist Text.isBlank

theorem Text.isBlank_of_range {c : Char} (low : 33 ≤ c.toNat) (high : c.toNat ≤ 126) :
    Text.isBlank c = false := by
  simp only [Text.isBlank, Bool.or_eq_false_iff, Bool.and_eq_false_iff, decide_eq_false_iff_not,
    beq_eq_false_iff_ne]
  omega

/-- A text without blanks stays as it is when it is trimmed. -/
theorem Text.trimChars_eq_self {cs : List Char} (h : ∀ c ∈ cs, Text.isBlank c = false) :
    Text.trimChars cs = cs := by
  have hkeeps : ∀ xs : List Char, (∀ c ∈ xs, Text.isBlank c = false) →
      xs.dropWhile Text.isBlank = xs := by
    intro xs hxs
    cases xs with
    | nil => rfl
    | cons c rest =>
      rw [List.dropWhile_cons_of_neg]
      rw [hxs c List.mem_cons_self]
      exact Bool.false_ne_true
  rw [Text.trimChars, Text.dropBlankEnd, hkeeps cs h, hkeeps cs.reverse, List.reverse_reverse]
  intro c hc
  exact h c (List.mem_reverse.mp hc)

theorem isBlank_of_isReferenceChar {c : Char} (h : isReferenceChar c = true) :
    Text.isBlank c = false := by
  simp only [isReferenceChar, Char.isAlphanum, Char.isAlpha, Char.isUpper, Char.isLower,
    Char.isDigit, Bool.or_eq_true, Bool.and_eq_true, decide_eq_true_eq, beq_iff_eq,
    UInt32.le_iff_toNat_le, ge_iff_le] at h
  rcases h with (((((h | h) | h) | rfl) | rfl) | rfl) | rfl
  · exact Text.isBlank_of_range (Nat.le_trans (by decide) h.1) (Nat.le_trans h.2 (by decide))
  · exact Text.isBlank_of_range (Nat.le_trans (by decide) h.1) (Nat.le_trans h.2 (by decide))
  · exact Text.isBlank_of_range (Nat.le_trans (by decide) h.1) (Nat.le_trans h.2 (by decide))
  all_goals decide

/-- No character that closes a reference is part of one. -/
theorem not_mem_of_isReferenceChar {stop : Char} {name : List Char}
    (hstop : isReferenceChar stop = false) (hname : ∀ c ∈ name, isReferenceChar c = true) :
    stop ∉ name := by
  intro hmem
  rw [hname stop hmem] at hstop
  cases hstop

/-- A placeholder is a name between two percent signs. -/
theorem placeholderAt_eq_some_iff {cs name after : List Char} :
    placeholderAt cs = some (name, after) ↔
      cs = name ++ '%' :: after ∧ name ≠ [] ∧ ∀ c ∈ name, isReferenceChar c = true := by
  unfold placeholderAt
  constructor
  · intro h
    split at h
    · rename_i word rest hsplit
      split at h
      · rename_i hword
        cases h
        rw [Bool.and_eq_true, List.all_eq_true, Bool.not_eq_true', List.isEmpty_eq_false_iff]
          at hword
        exact ⟨(splitAtChar_eq_some hsplit).1, hword⟩
      · cases h
    · cases h
  · rintro ⟨rfl, hname, hchars⟩
    have hpercent := not_mem_of_isReferenceChar isReferenceChar_percent hchars
    have hword : (!name.isEmpty && name.all isReferenceChar) = true := by
      rw [Bool.and_eq_true, List.all_eq_true, Bool.not_eq_true', List.isEmpty_eq_false_iff]
      exact ⟨hname, hchars⟩
    rw [splitAtChar_append hpercent]
    exact if_pos hword

/-- A property is a key between braces, with blanks around it that do not count. -/
theorem propertyAt_eq_ok_iff {offset : Nat} {cs key after : List Char} :
    propertyAt offset cs = .ok (key, after) ↔
      ∃ inside, cs = inside ++ '\x7d' :: after ∧ '\x7d' ∉ inside ∧ Text.trimChars inside = key ∧
        key ≠ [] ∧ ∀ c ∈ key, isReferenceChar c = true := by
  unfold propertyAt
  constructor
  · intro h
    split at h
    · cases h
    · rename_i inside rest hsplit
      obtain ⟨rfl, hclosed⟩ := splitAtChar_eq_some hsplit
      dsimp only at h
      split at h
      · cases h
      · rename_i hkey
        split at h
        · cases h
        · rename_i hchars
          cases h
          refine ⟨inside, rfl, hclosed, rfl, ?_, ?_⟩
          · exact fun hnil => hkey (List.isEmpty_iff.mpr hnil)
          · simpa using hchars
  · rintro ⟨inside, rfl, hclosed, rfl, hkey, hchars⟩
    rw [splitAtChar_append hclosed]
    have hempty : (Text.trimChars inside).isEmpty = false := List.isEmpty_eq_false_iff.mpr hkey
    have hfind : (Text.trimChars inside).find? (fun c => !isReferenceChar c) = none := by
      simpa using hchars
    simp only [hempty, hfind, Bool.false_eq_true, if_false]

theorem propertyAt_key {key : List Char} (hkey : key ≠ [])
    (hchars : ∀ c ∈ key, isReferenceChar c = true) (offset : Nat) (after : List Char) :
    propertyAt offset (key ++ '\x7d' :: after) = .ok (key, after) := by
  refine propertyAt_eq_ok_iff.mpr ⟨key, rfl, ?_, ?_, hkey, hchars⟩
  · exact not_mem_of_isReferenceChar isReferenceChar_closeBrace hchars
  · exact Text.trimChars_eq_self fun c hc => isBlank_of_isReferenceChar (hchars c hc)

end RuleEngine
