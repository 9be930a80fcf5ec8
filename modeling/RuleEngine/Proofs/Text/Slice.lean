/-
  RuleEngine/Proofs/Text/Slice.lean
  =================================
  **Texts cut at a byte.**

  Offsets count bytes, so a text can be cut at an offset only if a character starts there or
  the text ends there.  Cutting at the length of what stands before gives what stands before
  and what stands after (`cutAt?_append`), and the offsets where a text can be cut are those
  that are positions of the string (`isValid_iff`).
-/
import Mathlib.Data.String.Basic
import Mathlib.Tactic.Common
import RuleEngine.Text.Blank

namespace RuleEngine.Text

/-! ### Cutting -/

/-- The characters before a byte and those from it on.  There are none when the byte is within a
    character or beyond the end. -/
def cutAt? : List Char → Nat → Option (List Char × List Char)
  | cs, 0 => some ([], cs)
  | [], _ + 1 => none
  | c :: cs, n + 1 =>
    if c.utf8Size ≤ n + 1 then
      (cutAt? cs (n + 1 - c.utf8Size)).map fun (before, after) => (c :: before, after)
    else none

def sliceFrom? (cs : List Char) (start : Nat) : Option (List Char) :=
  (cutAt? cs start).map Prod.snd

def sliceTo? (cs : List Char) (stop : Nat) : Option (List Char) :=
  (cutAt? cs stop).map Prod.fst

def slice? (cs : List Char) (start stop : Nat) : Option (List Char) :=
  if start ≤ stop then (sliceFrom? cs start).bind fun rest => sliceTo? rest (stop - start)
  else none

@[simp] theorem cutAt?_append (before after : List Char) :
    cutAt? (before ++ after) (utf8Length before) = some (before, after) := by
  induction before with
  | nil => cases after <;> rfl
  | cons c cs ih =>
    obtain ⟨n, hn⟩ := Nat.exists_eq_succ_of_ne_zero (Nat.ne_of_gt c.utf8Size_pos)
    have hlength : utf8Length (c :: cs) = n + utf8Length cs + 1 := by
      rw [utf8Length_cons, hn]
      omega
    rw [hlength, List.cons_append, cutAt?, if_pos (by omega), hn]
    have hrest : n + utf8Length cs + 1 - n.succ = utf8Length cs := by omega
    rw [hrest, ih]
    rfl

theorem eq_of_cutAt? {cs before after : List Char} {n : Nat}
    (h : cutAt? cs n = some (before, after)) : cs = before ++ after ∧ n = utf8Length before := by
  induction cs generalizing n before with
  | nil =>
    cases n with
    | zero =>
      cases h
      exact ⟨rfl, rfl⟩
    | succ n => cases h
  | cons c cs ih =>
    cases n with
    | zero =>
      cases h
      exact ⟨rfl, rfl⟩
    | succ n =>
      rw [cutAt?] at h
      split at h
      · rename_i hsize
        obtain ⟨⟨front, rest⟩, hcut, heq⟩ := Option.map_eq_some_iff.mp h
        cases heq
        obtain ⟨rfl, hn⟩ := ih hcut
        refine ⟨rfl, ?_⟩
        rw [utf8Length_cons]
        omega
      · cases h

@[simp] theorem sliceTo?_append (before after : List Char) :
    sliceTo? (before ++ after) (utf8Length before) = some before := by
  rw [sliceTo?, cutAt?_append]
  rfl

/-- A slice from a byte exists exactly where a character starts, or at the end. -/
theorem sliceFrom?_eq_some_iff {cs rest : List Char} {n : Nat} :
    sliceFrom? cs n = some rest ↔ ∃ before, cs = before ++ rest ∧ n = utf8Length before := by
  rw [sliceFrom?, Option.map_eq_some_iff]
  constructor
  · rintro ⟨⟨before, _⟩, hcut, rfl⟩
    exact ⟨before, eq_of_cutAt? hcut⟩
  · rintro ⟨before, rfl, rfl⟩
    exact ⟨(before, rest), cutAt?_append before rest, rfl⟩

theorem sliceFrom?_zero (cs : List Char) : sliceFrom? cs 0 = some cs :=
  sliceFrom?_eq_some_iff.mpr ⟨[], rfl, rfl⟩

section From

variable {cs used rest : List Char} {n : Nat}

theorem sliceFrom?_skip (h : sliceFrom? cs n = some (used ++ rest)) :
    sliceFrom? cs (n + utf8Length used) = some rest := by
  obtain ⟨before, rfl, rfl⟩ := sliceFrom?_eq_some_iff.mp h
  refine sliceFrom?_eq_some_iff.mpr ⟨before ++ used, ?_, ?_⟩
  · rw [List.append_assoc]
  · rw [utf8Length_append]

theorem sliceFrom?_next {c : Char} (h : sliceFrom? cs n = some (c :: rest)) :
    sliceFrom? cs (n + c.utf8Size) = some rest :=
  sliceFrom?_skip (show sliceFrom? cs n = some ([c] ++ rest) from h)

theorem slice?_of_sliceFrom? (h : sliceFrom? cs n = some (used ++ rest)) :
    slice? cs n (n + utf8Length used) = some used := by
  rw [slice?, if_pos (Nat.le_add_right _ _), h, Option.bind_some, Nat.add_sub_cancel_left,
    sliceTo?_append]

theorem utf8Length_of_sliceFrom? (h : sliceFrom? cs n = some rest) :
    utf8Length cs = n + utf8Length rest := by
  obtain ⟨before, rfl, rfl⟩ := sliceFrom?_eq_some_iff.mp h
  rw [utf8Length_append]

end From

/-! ### Positions of a string -/

theorem utf8Length_eq_utf8Len (cs : List Char) : utf8Length cs = String.utf8Len cs := by
  induction cs with
  | nil => rfl
  | cons c cs ih => rw [utf8Length_cons, String.utf8Len, ih, Nat.add_comm]

theorem utf8Length_toList (s : String) : utf8Length s.toList = s.utf8ByteSize := by
  rw [utf8Length_eq_utf8Len, ← String.utf8ByteSize_ofList, String.ofList_toList]

/-- A text can be cut at the positions of the string and nowhere else. -/
theorem isValid_iff {s : String} {n : Nat} :
    (⟨n⟩ : String.Pos.Raw).IsValid s ↔ ∃ rest, sliceFrom? s.toList n = some rest := by
  rw [String.Pos.Raw.isValid_iff_exists_append]
  constructor
  · rintro ⟨before, after, rfl, hn⟩
    refine ⟨after.toList, sliceFrom?_eq_some_iff.mpr ⟨before.toList, String.toList_append, ?_⟩⟩
    rw [utf8Length_toList]
    exact congrArg String.Pos.Raw.byteIdx hn
  · rintro ⟨after, h⟩
    obtain ⟨before, hs, rfl⟩ := sliceFrom?_eq_some_iff.mp h
    refine ⟨String.ofList before, String.ofList after, ?_, ?_⟩
    · rw [← String.ofList_append, ← hs, String.ofList_toList]
    · rw [utf8Length_eq_utf8Len, ← String.utf8ByteSize_ofList]
      rfl

/-- The character at a position is the first one from it on. -/
theorem get?_of_sliceFrom? {s : String} {n : Nat} {rest : List Char}
    (h : sliceFrom? s.toList n = some rest) : String.Pos.Raw.get? s ⟨n⟩ = rest.head? := by
  obtain ⟨before, hs, rfl⟩ := sliceFrom?_eq_some_iff.mp h
  rw [utf8Length_eq_utf8Len, ← String.get?_of_valid before rest, ← hs, String.ofList_toList]

/-! ### Finding a character -/

/-- The byte at which the first character with a property starts. -/
def findByte? (p : Char → Bool) : List Char → Option Nat
  | [] => none
  | c :: cs => if p c then some 0 else (findByte? p cs).map (c.utf8Size + ·)

/-- A run of characters ends where the first other character starts, or where the text ends. -/
theorem getD_findByte? (p : Char → Bool) (cs : List Char) :
    (findByte? (fun c => !p c) cs).getD (utf8Length cs) = utf8Length (cs.takeWhile p) := by
  induction cs with
  | nil => rfl
  | cons c cs ih =>
    rw [findByte?, List.takeWhile_cons]
    cases hc : p c with
    | false => rfl
    | true =>
      simp only [Bool.not_true, Bool.false_eq_true, if_false, if_true, utf8Length_cons]
      rw [← ih]
      cases findByte? (fun c => !p c) cs <;> rfl

end RuleEngine.Text
