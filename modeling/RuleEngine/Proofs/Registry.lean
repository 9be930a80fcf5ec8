/-
  RuleEngine/Proofs/Registry.lean
  ===============================
  **Registering is all or nothing.**

  A factory is registered under all of its keys or under none.  The check goes through the
  keys with those that it has seen, and passes exactly if they are distinct and none of them
  is taken (`Registry.conflict?_eq_none_iff`).  Only then are they inserted, and as each of
  them is new, the entries of the registry stay as they are and the new ones follow them
  (`Registry.Adds`).

  Makers that come each with a key of its own are registered one after another, so a key
  that is taken costs its own maker only.  What is added are the makers whose keys were
  missing (`Registry.registerEach_adds`), and after that nothing is missing any more.
-/
import RuleEngine.Registry
import RuleEngine.Proofs.Entries

namespace RuleEngine

theorem insertEntry_of_new {α : Type} {key : String} {entries : List (String × α)}
    (h : lookupEntry key entries = none) (value : α) :
    insertEntry key value entries = entries ++ [(key, value)] := by
  induction entries with
  | nil => rfl
  | cons e rest ih =>
    by_cases hk : e.1 = key
    · simp [lookupEntry, hk] at h
    · simp only [lookupEntry, hk, if_false] at h
      simp [insertEntry, hk, ih h]

namespace Registry

variable {r r' r'' : Registry} {factory : Factory}

/-! ### The check -/

/-- The keys are distinct, and none of them is taken. -/
def Free (r : Registry) (keys : List String) : Prop :=
  keys.Nodup ∧ ∀ key ∈ keys, r.lookup? key = none

theorem contains_eq_false {key : String} : r.contains key = false ↔ r.lookup? key = none := by
  rw [contains, Option.isSome_eq_false_iff, Option.isNone_iff_eq_none]

/-- No key is in conflict exactly if all are distinct and free. -/
theorem conflict?_eq_none_iff {seen keys : List String} :
    r.conflict? seen keys = none ↔ r.Free keys ∧ ∀ key ∈ keys, key ∉ seen := by
  induction keys generalizing seen with
  | nil => simp [conflict?, Free]
  | cons key rest ih =>
    unfold conflict?
    split
    · rename_i clash
      refine iff_of_false nofun ?_
      rintro ⟨⟨-, free⟩, unseen⟩
      rcases Bool.or_eq_true .. ▸ clash with taken | again
      · rw [contains_eq_false.mpr (free key List.mem_cons_self)] at taken
        cases taken
      · exact unseen key List.mem_cons_self (List.contains_iff_mem.mp again)
    · rename_i clear
      obtain ⟨untaken, unseen⟩ : r.lookup? key = none ∧ key ∉ seen := by
        simpa [contains_eq_false] using clear
      rw [ih]
      simp only [Free, List.nodup_cons, List.mem_cons, forall_eq_or_imp, not_or]
      constructor
      · rintro ⟨⟨distinct, free⟩, apart⟩
        refine ⟨⟨⟨?_, distinct⟩, untaken, free⟩, unseen, fun other hother => (apart other hother).2⟩
        intro hkey
        exact (apart key hkey).1 rfl
      · rintro ⟨⟨⟨hnew, distinct⟩, -, free⟩, -, apart⟩
        refine ⟨⟨distinct, free⟩, fun other hother => ⟨?_, apart other hother⟩⟩
        rintro rfl
        exact hnew hother

/-! ### What is added -/

/-- The other registry has the same entries, followed by some more with distinct keys of
    which none was taken. -/
structure Adds (r : Registry) (added : List (String × Factory)) (r' : Registry) : Prop where
  factories : r'.factories = r.factories ++ added
  free : r.Free (added.map Prod.fst)

theorem adds_nil (h : r'.factories = r.factories) : r.Adds [] r' :=
  ⟨by simpa using h, List.nodup_nil, nofun⟩

/-- What was added is found, behind what was there before. -/
theorem Adds.lookup? {added : List (String × Factory)} (h : r.Adds added r') (key : String) :
    r'.lookup? key = (r.lookup? key).or (lookupEntry key added) := by
  simp only [Registry.lookup?, h.factories, lookupEntry_append]

theorem Adds.cons {key : String} {added : List (String × Factory)}
    (hkey : r.lookup? key = none) (h : (r.insert key factory).Adds added r') :
    r.Adds ((key, factory) :: added) r' := by
  have hinsert : (r.insert key factory).factories = r.factories ++ [(key, factory)] :=
    insertEntry_of_new hkey factory
  have hlookup : ∀ other, (r.insert key factory).lookup? other =
      if other = key then some factory else r.lookup? other :=
    fun other => lookupEntry_insertEntry key other factory r.factories
  constructor
  · rw [h.factories, hinsert, List.append_assoc]
    rfl
  · obtain ⟨distinct, free⟩ := h.free
    rw [List.map_cons]
    refine ⟨List.nodup_cons.mpr ⟨fun hmem => ?_, distinct⟩, ?_⟩
    · have hnone := free key hmem
      rw [hlookup, if_pos rfl] at hnone
      cases hnone
    · intro other hother
      rcases List.mem_cons.mp hother with rfl | hother
      · exact hkey
      · have hnone := free other hother
        rw [hlookup] at hnone
        split at hnone
        · cases hnone
        · exact hnone

/-- Inserting free keys adds them. -/
theorem Free.adds {keys : List String} (h : r.Free keys) :
    r.Adds (keys.map fun key => (key, factory))
      (keys.foldl (fun r key => r.insert key factory) r) := by
  induction keys generalizing r with
  | nil => exact adds_nil rfl
  | cons key rest ih =>
    obtain ⟨distinct, free⟩ := h
    obtain ⟨hnew, distinct⟩ := List.nodup_cons.mp distinct
    refine Adds.cons (free key List.mem_cons_self) (ih ⟨distinct, fun other hother => ?_⟩)
    have hne : other ≠ key := by
      rintro rfl
      exact hnew hother
    rw [Registry.lookup?, insert, lookupEntry_insertEntry_other _ _ hne]
    exact free other (List.mem_cons_of_mem _ hother)

theorem lookupEntry_map_const (key : String) (keys : List String) :
    lookupEntry key (keys.map fun key => (key, factory)) =
      if key ∈ keys then some factory else none := by
  induction keys with
  | nil => rfl
  | cons other rest ih =>
    by_cases h : other = key
    · simp [lookupEntry, h]
    · simp [lookupEntry, h, ih, Ne.symm h]

/-! ### Registering one factory -/

/-- Keys that are free are all taken by the factory. -/
theorem register_of_free {keys : List String} (h : r.Free keys) :
    r.register factory keys = (true, .registered factory.kind keys,
      keys.foldl (fun r key => r.insert key factory) r) := by
  unfold register
  rw [conflict?_eq_none_iff.mpr ⟨h, fun _ _ => List.not_mem_nil⟩]

/-- If some key is not free, nothing is registered. -/
theorem register_of_not_free (factory : Factory) {keys : List String} (h : ¬ r.Free keys) :
    ∃ key, r.register factory keys = (false, .keyTaken key, r) := by
  unfold register
  cases hclash : r.conflict? [] keys with
  | none => exact absurd (conflict?_eq_none_iff.mp hclash).1 h
  | some key => exact ⟨key, rfl⟩

theorem register_eq_true_iff {keys : List String} :
    (r.register factory keys).1 = true ↔ r.Free keys := by
  by_cases h : r.Free keys
  · rw [register_of_free h]
    simp [h]
  · obtain ⟨key, hrefused⟩ := register_of_not_free factory h
    rw [hrefused]
    simp [h]

theorem Free.lookup?_register {keys : List String} (h : r.Free keys) (key : String) :
    (r.register factory keys).2.2.lookup? key =
      if key ∈ keys then some factory else r.lookup? key := by
  rw [register_of_free h, h.adds.lookup?, lookupEntry_map_const]
  by_cases hkey : key ∈ keys
  · simp [hkey, h.2 key hkey]
  · simp [hkey]

/-! ### Registering makers one after another -/

/-- The makers whose keys are not taken. -/
def missing (r : Registry) (makers : List (String × Maker)) : List (String × Maker) :=
  makers.filter fun m => !r.contains m.1

theorem missing_congr {makers : List (String × Maker)}
    (h : ∀ m ∈ makers, r'.contains m.1 = r.contains m.1) :
    r'.missing makers = r.missing makers := by
  apply List.filter_congr
  intro m hm
  rw [h m hm]

theorem free_singleton {key : String} : r.Free [key] ↔ r.lookup? key = none := by
  simp [Free]

/-- Makers with distinct keys add those that are missing, each as a new factory. -/
theorem registerEach_adds {makers : List (String × Maker)}
    (distinct : (makers.map Prod.fst).Nodup) :
    ∃ added, r.Adds added (r.registerEach makers).2.2 ∧
      added.map (fun e => (e.1, e.2.maker)) = r.missing makers ∧
      (∀ e ∈ added, r.nextId ≤ e.2.id) ∧ (r.registerEach makers).1 = added.length := by
  induction makers generalizing r with
  | nil => exact ⟨[], adds_nil rfl, rfl, nofun, rfl⟩
  | cons m rest ih =>
    obtain ⟨key, maker⟩ := m
    obtain ⟨hnew, distinct⟩ := List.nodup_cons.mp distinct
    let own : Factory := ⟨r.nextId, maker⟩
    let minted : Registry := { r with nextId := r.nextId + 1 }
    rw [registerEach]
    by_cases hfree : minted.Free [key]
    · have hkey : r.lookup? key = none := free_singleton.mp hfree
      obtain ⟨added, hadds, hmakers, hids, hcount⟩ := ih (r := minted.insert key own) distinct
      have hregister : (r.mint maker).2.register (r.mint maker).1 [key] =
          (true, .registered maker.kind [key], minted.insert key own) := register_of_free hfree
      simp only [hregister, Bool.toNat_true]
      refine ⟨(key, own) :: added, ?_, ?_, ?_, by rw [hcount, List.length_cons]⟩
      · exact Adds.cons (r := r) hkey ⟨hadds.factories, hadds.free⟩
      · rw [List.map_cons, hmakers, missing, missing,
          List.filter_cons_of_pos (by simp [contains_eq_false.mpr hkey])]
        congr 1
        -- the key that was just taken is none of the others
        apply missing_congr
        intro other hother
        have hne : other.1 ≠ key := by
          intro heq
          have hmem : other.1 ∈ rest.map Prod.fst := List.mem_map_of_mem hother
          exact hnew (heq ▸ hmem)
        rw [contains, contains, Registry.lookup?, insert, lookupEntry_insertEntry_other _ _ hne]
        rfl
      · intro e he
        rcases List.mem_cons.mp he with rfl | he
        · exact Nat.le_refl _
        · exact Nat.le_of_succ_le (hids e he)
    · obtain ⟨added, hadds, hmakers, hids, hcount⟩ := ih (r := minted) distinct
      obtain ⟨taken, hregister⟩ : ∃ taken, (r.mint maker).2.register (r.mint maker).1 [key] =
          (false, .keyTaken taken, minted) := register_of_not_free _ hfree
      simp only [hregister, Bool.toNat_false, Nat.add_zero]
      refine ⟨added, ⟨hadds.factories, hadds.free⟩, ?_, ?_, hcount⟩
      · have htaken : ¬ r.contains key = false := by
          rw [contains_eq_false]
          exact fun hkey => hfree (free_singleton.mpr hkey)
        rw [hmakers, missing, missing, List.filter_cons_of_neg (by simpa using htaken)]
        rfl
      · intro e he
        exact Nat.le_of_succ_le (hids e he)

theorem Adds.contains {added : List (String × Factory)} (h : r.Adds added r') {key : String} :
    r'.contains key = true ↔ r.contains key = true ∨ key ∈ added.map Prod.fst := by
  rw [Registry.contains, Registry.contains, h.lookup?, Option.isSome_or, Bool.or_eq_true]
  refine or_congr_right ?_
  rw [← not_iff_not, ← lookupEntry_eq_none_iff, Bool.not_eq_true, Option.isSome_eq_false_iff,
    Option.isNone_iff_eq_none]

/-- Makers that were registered are not missing any more. -/
theorem Adds.missing_eq_nil {added : List (String × Factory)} {makers : List (String × Maker)}
    (h : r.Adds added r') (hmakers : added.map (fun e => (e.1, e.2.maker)) = r.missing makers) :
    r'.missing makers = [] := by
  apply List.filter_eq_nil_iff.mpr
  intro m hm
  suffices r'.contains m.1 = true by simp [this]
  apply h.contains.mpr
  by_cases hkey : r.contains m.1 = true
  · exact .inl hkey
  · have hmissing : m ∈ r.missing makers := List.mem_filter.mpr ⟨hm, by simpa using hkey⟩
    rw [← hmakers] at hmissing
    obtain ⟨e, he, rfl⟩ := List.mem_map.mp hmissing
    exact .inr (List.mem_map_of_mem he)

theorem nodup_builtins : (builtins.map Prod.fst).Nodup := by decide

/-- **Registering is all or nothing.**  It succeeds exactly if the keys are distinct and free;
    then the registry is the old one and these keys for the factory, and otherwise it is the
    old one.  Registering the built-in types therefore leaves every key with its owner, adds
    the types whose keys were missing, each as a new factory, and says how many these were;
    doing so again adds none. -/
theorem registering_is_all_or_nothing (r : Registry) :
    (∀ (factory : Factory) (keys : List String),
      ((r.register factory keys).1 = true ↔
        keys.Nodup ∧ ∀ key ∈ keys, r.lookup? key = none) ∧
      ((r.register factory keys).1 = true →
        r.Adds (keys.map fun key => (key, factory)) (r.register factory keys).2.2 ∧
        ∀ key, (r.register factory keys).2.2.lookup? key =
          if key ∈ keys then some factory else r.lookup? key) ∧
      ((r.register factory keys).1 = false → (r.register factory keys).2.2 = r)) ∧
    ∃ added, r.Adds added r.registerBuiltins.2.2 ∧
      added.map (fun e => (e.1, e.2.maker)) = r.missing builtins ∧
      (∀ e ∈ added, r.nextId ≤ e.2.id) ∧
      (∀ key owner, r.lookup? key = some owner →
        r.registerBuiltins.2.2.lookup? key = some owner) ∧
      r.registerBuiltins.1 = added.length ∧
      r.registerBuiltins.2.2.registerBuiltins.1 = 0 ∧
      r.registerBuiltins.2.2.registerBuiltins.2.2.factories =
        r.registerBuiltins.2.2.factories := by
  constructor
  · intro factory keys
    refine ⟨register_eq_true_iff, fun hdone => ?_, fun hrefused => ?_⟩
    · have free := register_eq_true_iff.mp hdone
      refine ⟨?_, free.lookup?_register⟩
      rw [register_of_free free]
      exact free.adds
    · have taken : ¬ r.Free keys := fun free => by
        rw [register_eq_true_iff.mpr free] at hrefused
        cases hrefused
      obtain ⟨key, hregister⟩ := register_of_not_free factory taken
      rw [hregister]
  · unfold registerBuiltins
    obtain ⟨added, hadds, hmakers, hids, hcount⟩ := registerEach_adds (r := r) nodup_builtins
    refine ⟨added, hadds, hmakers, hids, ?_, hcount, ?_⟩
    · intro key owner howner
      exact (hadds.lookup? key).trans (by rw [howner]; rfl)
    · obtain ⟨again, hagain, hnone, -, hzero⟩ :=
        registerEach_adds (r := (r.registerEach builtins).2.2) nodup_builtins
      rw [hadds.missing_eq_nil hmakers, List.map_eq_nil_iff] at hnone
      subst hnone
      exact ⟨hzero, by simpa using hagain.factories⟩

-- A key that comes twice is refused although both are free.
example : (({} : Registry).register ⟨0, .action .chain⟩ ["a", "b", "a"]).1 = false := by decide

end Registry

end RuleEngine
