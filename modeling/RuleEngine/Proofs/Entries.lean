/-
  RuleEngine/Proofs/Entries.lean
  ==============================
  **Lists of entries as maps.**

  Registries, hosts and snapshots keep their data as lists of entries, which are read
  by `lookupEntry`.  As long as every key occurs once, such a list is the map that
  `lookupEntry` makes of it: an entry is in the list if and only if it is what its key
  looks up.
-/
import Mathlib.Data.List.Nodup
import Mathlib.Data.List.Forall2
import Mathlib.Data.List.Induction
import Mathlib.Data.List.Perm.Subperm
import Mathlib.Data.String.Basic
import RuleEngine.Node.Basic

namespace RuleEngine

variable {α β : Type}

/-! ### Entries and keys -/

/-- What is found under a key stands there. -/
theorem mem_of_lookupEntry {key : String} {value : α} {entries : List (String × α)}
    (h : lookupEntry key entries = some value) : (key, value) ∈ entries := by
  induction entries with
  | nil => cases h
  | cons e rest ih =>
    by_cases hk : e.1 = key
    · simp only [lookupEntry, hk, if_true, Option.some.injEq] at h
      rw [← hk, ← h]
      exact List.mem_cons_self
    · simp only [lookupEntry, hk, if_false] at h
      exact List.mem_cons_of_mem _ (ih h)

theorem lookupEntry_eq_none_iff {key : String} {entries : List (String × α)} :
    lookupEntry key entries = none ↔ key ∉ entries.map Prod.fst := by
  induction entries with
  | nil => simp [lookupEntry]
  | cons e rest ih =>
    by_cases hk : e.1 = key
    · simp [lookupEntry, hk]
    · simp [lookupEntry, hk, Ne.symm hk, ih]

/-- Where keys are distinct, every entry is found under its key. -/
theorem lookupEntry_of_mem {key : String} {value : α} {entries : List (String × α)}
    (hnodup : (entries.map Prod.fst).Nodup) (h : (key, value) ∈ entries) :
    lookupEntry key entries = some value := by
  induction entries with
  | nil => cases h
  | cons e rest ih =>
    obtain ⟨hnew, hrest⟩ := List.nodup_cons.mp hnodup
    rcases List.mem_cons.mp h with rfl | h
    · simp [lookupEntry]
    · have hk : e.1 ≠ key := by
        rintro rfl
        exact hnew (List.mem_map.mpr ⟨_, h, rfl⟩)
      simp only [lookupEntry, hk, if_false]
      exact ih hrest h

theorem lookupEntry_eq_some_iff {key : String} {value : α} {entries : List (String × α)}
    (hnodup : (entries.map Prod.fst).Nodup) :
    lookupEntry key entries = some value ↔ (key, value) ∈ entries :=
  ⟨mem_of_lookupEntry, lookupEntry_of_mem hnodup⟩

theorem lookupEntry_append (key : String) (entries more : List (String × α)) :
    lookupEntry key (entries ++ more) = (lookupEntry key entries).or (lookupEntry key more) := by
  induction entries with
  | nil => simp [lookupEntry]
  | cons e entries ih =>
    by_cases same : e.1 = key
    · simp [lookupEntry, same]
    · simp [lookupEntry, same, ih]

/-- An insertion adds its key, if it was not there. -/
theorem mem_keys_insertEntry {key other : String} {value : α} {entries : List (String × α)} :
    other ∈ (insertEntry key value entries).map Prod.fst ↔
      other = key ∨ other ∈ entries.map Prod.fst := by
  induction entries with
  | nil => simp [insertEntry]
  | cons e rest ih =>
    by_cases hk : e.1 = key
    · simp [insertEntry, hk]
    · simp only [insertEntry, hk, if_false, List.map_cons, List.mem_cons, ih]
      tauto

theorem nodup_insertEntry {key : String} {value : α} {entries : List (String × α)}
    (h : (entries.map Prod.fst).Nodup) : ((insertEntry key value entries).map Prod.fst).Nodup := by
  induction entries with
  | nil => simp [insertEntry]
  | cons e rest ih =>
    obtain ⟨hnew, hrest⟩ := List.nodup_cons.mp h
    by_cases hk : e.1 = key
    · simpa [insertEntry, hk] using h
    · simp only [insertEntry, hk, if_false, List.map_cons, List.nodup_cons]
      refine ⟨fun hmem => ?_, ih hrest⟩
      rcases mem_keys_insertEntry.mp hmem with heq | hmem
      · exact hk heq
      · exact hnew hmem

/-- Inserting a key sets what it looks up, and nothing else. -/
theorem lookupEntry_insertEntry (key other : String) (value : α) (entries : List (String × α)) :
    lookupEntry other (insertEntry key value entries) =
      if other = key then some value else lookupEntry other entries := by
  by_cases h : other = key
  · rw [h, if_pos rfl, lookupEntry_insertEntry_same]
  · rw [if_neg h, lookupEntry_insertEntry_other value entries h]

theorem lookupEntry_eraseEntry (key other : String) (entries : List (String × α)) :
    lookupEntry other (eraseEntry key entries) =
      if other = key then none else lookupEntry other entries := by
  by_cases h : other = key
  · rw [h, if_pos rfl, lookupEntry_eraseEntry_same]
  · rw [if_neg h, lookupEntry_eraseEntry_other entries h]

/-- A new key goes to the end. -/
theorem insertEntry_of_not_mem {key : String} {value : α} {entries : List (String × α)}
    (h : key ∉ entries.map Prod.fst) :
    insertEntry key value entries = entries ++ [(key, value)] := by
  induction entries with
  | nil => rfl
  | cons e rest ih =>
    rw [List.map_cons, List.mem_cons, not_or] at h
    obtain ⟨hkey, hrest⟩ := h
    simp [insertEntry, Ne.symm hkey, ih hrest]

/-- A known key keeps its place. -/
theorem keys_insertEntry_of_mem {key : String} {value : α} {entries : List (String × α)}
    (h : key ∈ entries.map Prod.fst) :
    (insertEntry key value entries).map Prod.fst = entries.map Prod.fst := by
  induction entries with
  | nil => cases h
  | cons e rest ih =>
    by_cases hk : e.1 = key
    · simp [insertEntry, hk]
    · have hrest : key ∈ rest.map Prod.fst := by simpa [Ne.symm hk] using h
      simp only [insertEntry, hk, if_false, List.map_cons, ih hrest]

/-- A change is seen in what the values are turned into. -/
theorem map_insertEntry (f : α → β) (key : String) (value : α) (entries : List (String × α)) :
    (insertEntry key value entries).map (fun e => (e.1, f e.2)) =
      insertEntry key (f value) (entries.map fun e => (e.1, f e.2)) := by
  induction entries with
  | nil => rfl
  | cons e rest ih =>
    by_cases hk : e.1 = key
    · simp [insertEntry, hk]
    · simp [insertEntry, hk, ih]

/-! ### Entries in the order of their keys -/

/-- The entries in the order of their keys. -/
theorem pairwise_mergeSort_keys (entries : List (String × α)) :
    (entries.mergeSort fun a b => a.1 ≤ b.1).Pairwise fun a b => a.1 ≤ b.1 := by
  refine (List.pairwise_mergeSort (fun a b c hab hbc => ?_) (fun a b => ?_) entries).imp
    (fun {a b} hab => by simpa using hab)
  · simp only [decide_eq_true_eq] at hab hbc ⊢
    exact le_trans hab hbc
  · simpa using le_total a.1 b.1

/-- Every key comes strictly before the next one when none occurs twice. -/
theorem pairwise_lt_mergeSort_keys {entries : List (String × α)}
    (h : (entries.map Prod.fst).Nodup) :
    (entries.mergeSort fun a b => a.1 ≤ b.1).Pairwise fun a b => a.1 < b.1 := by
  have hperm := (List.mergeSort_perm entries fun a b => decide (a.1 ≤ b.1)).map Prod.fst
  have hnodup := List.pairwise_map.mp (hperm.nodup_iff.mpr h)
  exact (pairwise_mergeSort_keys entries).imp₂ (fun a b hle hne => lt_of_le_of_ne hle hne) hnodup

/-! ### The last element that satisfies a condition -/

def lastWhere (p : α → Bool) (l : List α) : Option α := l.reverse.find? p

/-- The last element of a longer list comes from the rest, if there is one. -/
theorem lastWhere_cons (p : α → Bool) (a : α) (l : List α) :
    lastWhere p (a :: l) = (lastWhere p l).or (if p a then some a else none) := by
  rw [lastWhere, List.reverse_cons, List.find?_append, lastWhere]
  cases h : p a <;> simp [h]

theorem mem_of_lastWhere {p : α → Bool} {l : List α} {a : α} (h : lastWhere p l = some a) :
    a ∈ l ∧ p a = true :=
  ⟨List.mem_reverse.mp (List.mem_of_find?_eq_some h), List.find?_some h⟩

theorem lastWhere_eq_none {p : α → Bool} {l : List α} :
    lastWhere p l = none ↔ ∀ a ∈ l, ¬ p a = true := by
  simp [lastWhere]

/-- Elements that correspond to each other are last at the same time. -/
theorem lastWhere_rel {R : α → β → Prop} {p : α → Bool} {q : β → Bool} {l : List α} {l' : List β}
    (h : List.Forall₂ R l l') (hpq : ∀ a b, R a b → p a = q b) :
    Option.Rel R (lastWhere p l) (lastWhere q l') := by
  induction h with
  | nil => exact .none
  | @cons a b l l' hab _ ih =>
    rw [lastWhere_cons, lastWhere_cons, ← hpq a b hab]
    generalize lastWhere p l = last, lastWhere q l' = last' at ih ⊢
    cases ih with
    | some hlast => exact .some hlast
    | none =>
      cases hp : p a with
      | true => exact .some hab
      | false => exact .none

/-! ### Many changes -/

/-- The entries after changes, one after another. -/
def insertAll (entries changes : List (String × α)) : List (String × α) :=
  changes.foldl (fun entries e => insertEntry e.1 e.2 entries) entries

/-- The last change of a key is the one that counts. -/
theorem lookupEntry_insertAll (key : String) (entries changes : List (String × α)) :
    lookupEntry key (insertAll entries changes) =
      ((lastWhere (fun e => e.1 == key) changes).map Prod.snd).or (lookupEntry key entries) := by
  induction changes generalizing entries with
  | nil => rfl
  | cons e rest ih =>
    have hrest := ih (insertEntry e.1 e.2 entries)
    rw [lookupEntry_insertEntry] at hrest
    rw [insertAll, List.foldl_cons, lastWhere_cons]
    refine hrest.trans ?_
    cases lastWhere (fun e => e.1 == key) rest with
    | some last => rfl
    | none =>
      by_cases hkey : key = e.1
      · simp [hkey]
      · simp [hkey, Ne.symm hkey]

theorem insertEntry_insertEntry_same (key : String) (value former : α)
    (entries : List (String × α)) :
    insertEntry key value (insertEntry key former entries) = insertEntry key value entries := by
  induction entries with
  | nil => simp [insertEntry]
  | cons e rest ih =>
    by_cases hk : e.1 = key
    · simp [insertEntry, hk]
    · simp [insertEntry, hk, ih]

/-- Changes of two keys commute when one of them is there already. -/
theorem insertEntry_comm {key other : String} (h : key ≠ other) (value value' : α)
    {entries : List (String × α)} (hmem : other ∈ entries.map Prod.fst) :
    insertEntry key value (insertEntry other value' entries) =
      insertEntry other value' (insertEntry key value entries) := by
  induction entries with
  | nil => cases hmem
  | cons e rest ih =>
    by_cases hother : e.1 = other
    · subst hother
      simp [insertEntry, Ne.symm h]
    · have hrest : other ∈ rest.map Prod.fst := by
        simpa [Ne.symm hother] using hmem
      by_cases hkey : e.1 = key
      · subst hkey
        simp [insertEntry, h]
      · simp [insertEntry, hkey, hother, ih hrest]

theorem mem_keys_insertAll {key : String} {entries changes : List (String × α)} :
    key ∈ (insertAll entries changes).map Prod.fst ↔
      key ∈ changes.map Prod.fst ∨ key ∈ entries.map Prod.fst := by
  induction changes generalizing entries with
  | nil => simp [insertAll]
  | cons e rest ih =>
    rw [List.map_cons, List.mem_cons]
    refine ih.trans ?_
    rw [mem_keys_insertEntry]
    tauto

/-- A change that is made again at the end could have been left out at the beginning. -/
theorem insertEntry_insertAll_insertEntry (key : String) (value : α)
    {entries changes : List (String × α)}
    (h : ∀ e ∈ changes, e.1 ∈ entries.map Prod.fst) :
    insertEntry key value (insertAll (insertEntry key value entries) changes) =
      insertEntry key value (insertAll entries changes) := by
  induction changes generalizing entries with
  | nil => exact insertEntry_insertEntry_same key value value entries
  | cons e rest ih =>
    obtain ⟨hmem, hrest⟩ := List.forall_mem_cons.mp h
    by_cases hkey : key = e.1
    · subst hkey
      simp only [insertAll, List.foldl_cons, insertEntry_insertEntry_same]
    · simp only [insertAll, List.foldl_cons]
      rw [← insertEntry_comm hkey value e.2 hmem]
      exact ih fun e' he' => mem_keys_insertEntry.mpr (.inr (hrest e' he'))

/-- Changes that are made twice are made once. -/
theorem insertAll_insertAll (entries changes : List (String × α)) :
    insertAll (insertAll entries changes) changes = insertAll entries changes := by
  induction changes using List.reverseRecOn with
  | nil => rfl
  | append_singleton changes e ih =>
    have hkeys : ∀ e ∈ changes, e.1 ∈ (insertAll entries changes).map Prod.fst := fun e he =>
      mem_keys_insertAll.mpr (.inl (List.mem_map_of_mem he))
    have hlast (entries : List (String × α)) :
        insertAll entries (changes ++ [e]) = insertEntry e.1 e.2 (insertAll entries changes) :=
      List.foldl_concat ..
    rw [hlast, hlast, insertEntry_insertAll_insertEntry _ _ hkeys, ih]

/-! ### Declared entries -/

section Declared

variable {entries declared : List (String × α)}

theorem nodup_insertAll (h : (entries.map Prod.fst).Nodup) (changes : List (String × α)) :
    ((insertAll entries changes).map Prod.fst).Nodup := by
  induction changes generalizing entries with
  | nil => exact h
  | cons e rest ih => exact ih (nodup_insertEntry h)

theorem mem_keys_ofDeclared {key : String} :
    key ∈ (ofDeclared declared).map Prod.fst ↔ key ∈ declared.map Prod.fst :=
  mem_keys_insertAll.trans (or_iff_left List.not_mem_nil)

theorem ofDeclared_concat (declared : List (String × α)) (e : String × α) :
    ofDeclared (declared ++ [e]) = insertEntry e.1 e.2 (ofDeclared declared) :=
  List.foldl_concat ..

/-- Entries with different keys are what they are declared as. -/
theorem ofDeclared_eq_self (h : (declared.map Prod.fst).Nodup) :
    ofDeclared declared = declared := by
  induction declared using List.reverseRecOn with
  | nil => rfl
  | append_singleton declared e ih =>
    rw [List.map_append] at h
    have hnew : e.1 ∉ declared.map Prod.fst := fun hmem =>
      List.disjoint_of_nodup_append h hmem List.mem_cons_self
    have hbefore := ih h.of_append_left
    rw [ofDeclared_concat, hbefore, insertEntry_of_not_mem hnew]

/-- No entry is lost exactly if the declared keys are different. -/
theorem length_ofDeclared_eq_iff :
    (ofDeclared declared).length = declared.length ↔ (declared.map Prod.fst).Nodup := by
  constructor
  · intro hlength
    have hempty : (([] : List (String × α)).map Prod.fst).Nodup := List.nodup_nil
    have hnodup : ((ofDeclared declared).map Prod.fst).Nodup := nodup_insertAll hempty declared
    -- as many keys that are different, and all of them declared, are the declared ones
    have hsubperm := hnodup.subperm fun key hkey => mem_keys_ofDeclared.mp hkey
    have hperm := hsubperm.perm_of_length_le (by simp [hlength])
    exact hperm.nodup_iff.mp hnodup
  · exact fun hnodup => congrArg List.length (ofDeclared_eq_self hnodup)

/-- The keys stand in the order in which they are first declared. -/
theorem keys_ofDeclared (declared : List (String × α)) :
    (ofDeclared declared).map Prod.fst = (declared.map Prod.fst).eraseDups := by
  induction declared using List.reverseRecOn with
  | nil => rfl
  | append_singleton declared e ih =>
    rw [ofDeclared_concat, List.map_append, List.eraseDups_append, ← ih]
    by_cases hmem : e.1 ∈ declared.map Prod.fst
    · rw [keys_insertEntry_of_mem (mem_keys_ofDeclared.mpr hmem)]
      simp [List.removeAll, hmem]
    · rw [insertEntry_of_not_mem (mt mem_keys_ofDeclared.mp hmem), List.map_append]
      simp [List.removeAll, hmem, List.eraseDups_cons]

/-- Of the entries with one key, the last is the one that counts. -/
theorem lookupEntry_ofDeclared (key : String) (declared : List (String × α)) :
    lookupEntry key (ofDeclared declared) =
      (lastWhere (fun e => e.1 == key) declared).map Prod.snd :=
  (lookupEntry_insertAll key [] declared).trans (Option.or_none ..)

end Declared

end RuleEngine
