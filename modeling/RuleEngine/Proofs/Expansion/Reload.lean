/-
  RuleEngine/Proofs/Expansion/Reload.lean
  =======================================
  **What a host leaves in the registry.**

  A host takes keys for the artifacts of its directory and gives them back when the
  artifacts are gone.  The main statement, `Reloading.reload_installs`, says that this
  leaves no traces: after a reload every key that an artifact claims has the factory
  that this reload loaded from the last such artifact, and every other key has what
  it had before the host was created, whatever the directory held in between.

  The invariant (`Keeps`) is about what the host remembers of former owners.  It has
  them for the keys that it owns and for no others, and what it remembers is what the
  key had in the beginning.  Within one reload several artifacts may claim a key;
  only the first of them can displace a former owner, and the host takes note of what
  that one displaced.
-/
import RuleEngine.Expansion.Host
import RuleEngine.Proofs.Expansion.Install

namespace RuleEngine

namespace ExpansionHost

/-! ### Taking note of installed expansions -/

theorem claim_owned (before owned : List (String × String)) (formers : List (String × Factory))
    (i : Installed) (key : String) :
    lookupEntry key (claim before (owned, formers) i).1 =
      if key = i.typeKey then some i.path else lookupEntry key owned :=
  lookupEntry_insertEntry i.typeKey key i.path owned

/-- A former owner is noted only if no expansion had the key, and nothing is noted of
    the key yet. -/
theorem claim_formers (before owned : List (String × String)) (formers : List (String × Factory))
    (i : Installed) (key : String) :
    lookupEntry key (claim before (owned, formers) i).2 =
      if key = i.typeKey ∧ lookupEntry key before = none ∧ lookupEntry key owned = none ∧
        lookupEntry key formers = none
      then i.displaced? else lookupEntry key formers := by
  unfold claim
  by_cases hkey : key = i.typeKey
  · subst hkey
    cases hd : i.displaced? with
    | none => cases hformers : lookupEntry i.typeKey formers <;> simp
    | some displaced =>
      cases hbefore : lookupEntry i.typeKey before <;>
        cases howned : lookupEntry i.typeKey owned <;>
        cases hformers : lookupEntry i.typeKey formers <;>
        simp [howned, hformers, lookupEntry_insertEntry]
  · simp only [hkey, false_and, if_false]
    cases i.displaced? with
    | none => rfl
    | some displaced =>
      dsimp only
      split
      · exact lookupEntry_insertEntry_other displaced formers hkey
      · rfl

/-- A key is owned by the last path that was installed under it, and by its old owner if there is
    none. -/
theorem foldl_claim_owned (before : List (String × String)) (installed : List Installed)
    (owned : List (String × String)) (formers : List (String × Factory)) (key : String) :
    lookupEntry key (installed.foldl (claim before) (owned, formers)).1 =
      ((lastWhere (Installed.under key) installed).map Installed.path).or
        (lookupEntry key owned) := by
  induction installed generalizing owned formers with
  | nil => rfl
  | cons i rest ih =>
    have hi := claim_owned before owned formers i key
    rw [List.foldl_cons, ih, lastWhere_cons, hi]
    generalize lastWhere (Installed.under key) rest = last
    cases last with
    | some j => rfl
    | none =>
      by_cases hkey : key = i.typeKey
      · simp [Installed.under, hkey]
      · simp [Installed.under, hkey, Ne.symm hkey]

/-- The former factory of a key is what the first one under it displaced, if nobody owned the key
    before; one that is known stays. -/
theorem foldl_claim_formers (before : List (String × String)) (installed : List Installed)
    (owned : List (String × String)) (formers : List (String × Factory)) (key : String) :
    lookupEntry key (installed.foldl (claim before) (owned, formers)).2 =
      if lookupEntry key before = none ∧ lookupEntry key owned = none ∧
        lookupEntry key formers = none
      then (installed.find? (Installed.under key)).bind Installed.displaced?
      else lookupEntry key formers := by
  induction installed generalizing owned formers with
  | nil =>
    split
    · rename_i hfree
      exact hfree.2.2
    · rfl
  | cons i rest ih =>
    have howned := claim_owned before owned formers i key
    have hformers := claim_formers before owned formers i key
    rw [List.foldl_cons, ih, howned, hformers, List.find?_cons]
    by_cases hkey : key = i.typeKey
    · -- from now on the key is owned, so that nothing else is noted of it
      subst hkey
      simp [Installed.under]
    · have hne : Installed.under key i = false := beq_eq_false_iff_ne.mpr (Ne.symm hkey)
      simp only [hkey, false_and, if_false, hne]

theorem nodup_foldl_claim (before : List (String × String)) (installed : List Installed)
    {owned : List (String × String)} (formers : List (String × Factory))
    (h : (owned.map Prod.fst).Nodup) :
    ((installed.foldl (claim before) (owned, formers)).1.map Prod.fst).Nodup := by
  induction installed generalizing owned formers with
  | nil => exact h
  | cons i rest ih => exact ih _ (nodup_insertEntry h)

/-! ### Giving keys back -/

/-- The registry with a key given back to its former owner, if it had one. -/
def givenBack (r : Registry) (key : String) : Option Factory → Registry
  | some former => r.insert key former
  | none => r.erase key

theorem lookup?_givenBack (r : Registry) (key other : String) (former? : Option Factory) :
    (givenBack r key former?).lookup? other = if other = key then former? else r.lookup? other := by
  cases former? with
  | some former => simp [givenBack]
  | none => simp [givenBack]

/-- Retiring gives a key back to its former owner, or frees it, and forgets who that
    was. -/
theorem retire_spec (r : Registry) (formers : List (String × Factory))
    {gone : List (String × String)} (hnodup : (gone.map Prod.fst).Nodup) (key : String) :
    (retire r formers gone).2.2.lookup? key =
        (if key ∈ gone.map Prod.fst then lookupEntry key formers else r.lookup? key) ∧
      lookupEntry key (retire r formers gone).2.1 =
        if key ∈ gone.map Prod.fst then none else lookupEntry key formers := by
  induction gone generalizing r formers with
  | nil => exact ⟨rfl, rfl⟩
  | cons o rest ih =>
    obtain ⟨hnew, hrest⟩ := List.nodup_cons.mp hnodup
    obtain ⟨hlookup, hformers⟩ := ih (givenBack r o.1 (lookupEntry o.1 formers))
      (eraseEntry o.1 formers) hrest
    rw [lookup?_givenBack, lookupEntry_eraseEntry] at hlookup
    rw [lookupEntry_eraseEntry] at hformers
    have hmem : key ∈ (o :: rest).map Prod.fst ↔ key = o.1 ∨ key ∈ rest.map Prod.fst := by
      rw [List.map_cons, List.mem_cons]
    simp only [hmem]
    refine ⟨hlookup.trans ?_, hformers.trans ?_⟩
    · by_cases hkey : key = o.1
      · subst hkey
        simp only [hnew, if_true, if_false, or_false]
      · simp only [hkey, if_false, false_or]
    · by_cases hkey : key = o.1 <;> simp only [hkey, if_true, if_false, true_or, false_or, ite_self]

/-! ### A reload -/

section Reload

variable (h : ExpansionHost) (e : Engine) (tree : FileTree)

def installation : InstallReport × List Notice × Registry :=
  e.registry.install (e.discover tree h.directory h.fuel).1

/-- What the host owns after a reload, and the former owners before it retires keys. -/
def claimed : List (String × String) × List (String × Factory) :=
  (h.installation e tree).1.installed.foldl (claim h.owned) ([], h.formers)

def gone : List (String × String) :=
  h.ownedByKey.filter fun o => (lookupEntry o.1 (h.claimed e tree).1).isNone

/-- Installing a directory is installing what was found in it. -/
theorem installDirectory_eq (directory : String) (fuel : Nat) :
    (e.installDirectory tree directory fuel).1 =
        (e.registry.install (e.discover tree directory fuel).1).1 ∧
      (e.installDirectory tree directory fuel).2.registry =
        (e.registry.install (e.discover tree directory fuel).1).2.2 ∧
      (e.installDirectory tree directory fuel).2.state.world.guests =
        (e.discover tree directory fuel).2.state.world.guests := by
  have hregistry := (e.discover_spec tree directory fuel).1
  unfold Engine.installDirectory Engine.install
  dsimp only
  rw [hregistry]
  exact ⟨rfl, rfl, Engine.reportAll_guests _ _⟩

theorem reload_report : (h.reload e tree).1 = (h.installation e tree).1 :=
  (installDirectory_eq e tree h.directory h.fuel).1

theorem reload_owned : (h.reload e tree).2.1.owned = (h.claimed e tree).1 := by
  change ((h.reload e tree).1.installed.foldl (claim h.owned) ([], h.formers)).1 = _
  rw [reload_report]
  rfl

/-- After the claims of a reload, the keys that are gone are given back. -/
theorem reload_retire :
    (h.reload e tree).2.1.formers =
        (retire (h.installation e tree).2.2 (h.claimed e tree).2 (h.gone e tree)).2.1 ∧
      (h.reload e tree).2.2.registry =
        (retire (h.installation e tree).2.2 (h.claimed e tree).2 (h.gone e tree)).2.2 := by
  obtain ⟨hreport, hregistry, -⟩ := installDirectory_eq e tree h.directory h.fuel
  unfold reload
  dsimp only
  rw [hreport, hregistry]
  exact ⟨rfl, rfl⟩

theorem reload_of :
    List.Forall₂ (fun l i => Installed.Of (h.reload e tree).2.2.state.world l i)
      (loadables h.fuel (tree.artifacts h.directory)) (h.reload e tree).1.installed := by
  obtain ⟨-, -, hfiles⟩ := e.discover_spec tree h.directory h.fuel
  have hguests : (h.reload e tree).2.2.state.world.guests =
      (e.discover tree h.directory h.fuel).2.state.world.guests :=
    (Engine.reportAll_guests _ _).trans (installDirectory_eq e tree h.directory h.fuel).2.2
  rw [reload_report]
  refine (Registry.install_of hfiles e.registry).imp fun l i hof => ?_
  obtain ⟨id, hmaker, hguest⟩ := hof.uses
  exact { hof with uses := ⟨id, hmaker, hguests ▸ hguest⟩ }

theorem mem_gone {key : String} :
    key ∈ (h.gone e tree).map Prod.fst ↔
      lookupEntry key h.owned ≠ none ∧ lookupEntry key (h.claimed e tree).1 = none := by
  have hperm := List.mergeSort_perm h.owned fun a b => decide (a.1 ≤ b.1)
  simp only [gone, ownedByKey, List.mem_map, List.mem_filter, hperm.mem_iff,
    Option.isNone_iff_eq_none]
  constructor
  · rintro ⟨o, ⟨ho, hfree⟩, rfl⟩
    refine ⟨fun hnone => ?_, hfree⟩
    exact lookupEntry_eq_none_iff.mp hnone (List.mem_map_of_mem ho)
  · rintro ⟨hsome, hfree⟩
    obtain ⟨path, hpath⟩ := Option.ne_none_iff_exists'.mp hsome
    exact ⟨(key, path), ⟨mem_of_lookupEntry hpath, hfree⟩, rfl⟩

theorem nodup_gone (hnodup : (h.owned.map Prod.fst).Nodup) :
    ((h.gone e tree).map Prod.fst).Nodup := by
  have hperm := (List.mergeSort_perm h.owned fun a b => decide (a.1 ≤ b.1)).map Prod.fst
  exact (hperm.nodup_iff.mpr hnodup).sublist (List.filter_sublist.map _)

end Reload

/-! ### The invariant -/

/-- A host remembers what every key had in the beginning: it has the former owners of
    the keys that it owns, and the registry has those of all others. -/
structure Keeps (original : String → Option Factory) (h : ExpansionHost) (r : Registry) :
    Prop where
  nodup : (h.owned.map Prod.fst).Nodup
  taken : ∀ key, lookupEntry key h.owned ≠ none → lookupEntry key h.formers = original key
  free : ∀ key, lookupEntry key h.owned = none →
    lookupEntry key h.formers = none ∧ r.lookup? key = original key

section Keep

variable {original : String → Option Factory} {h : ExpansionHost} {e : Engine}

/-- What is noted of a key before keys are retired is what it had in the beginning, if it
    was owned or is claimed now. -/
theorem Keeps.noted (hk : Keeps original h e.registry) (tree : FileTree) (key : String) :
    lookupEntry key (h.claimed e tree).2 =
      if lookupEntry key h.owned = none ∧
        lastWhere (Installed.under key) (h.installation e tree).1.installed = none
      then none else original key := by
  have hnoted := foldl_claim_formers h.owned (h.installation e tree).1.installed [] h.formers key
  refine hnoted.trans ?_
  by_cases htaken : lookupEntry key h.owned = none
  · obtain ⟨hnone, hsame⟩ := hk.free key htaken
    rw [if_pos ⟨htaken, rfl, hnone⟩]
    cases hfirst : (h.installation e tree).1.installed.find? (Installed.under key) with
    | none =>
      have hlast := lastWhere_eq_none.mpr (List.find?_eq_none.mp hfirst)
      rw [if_pos ⟨htaken, hlast⟩]
      rfl
    | some first =>
      have hlast : lastWhere (Installed.under key) (h.installation e tree).1.installed ≠ none := by
        intro hlast
        exact lastWhere_eq_none.mp hlast first (List.mem_of_find?_eq_some hfirst)
          (List.find?_some hfirst)
      rw [if_neg fun hall => hlast hall.2, ← hsame]
      exact Registry.install_displaced? _ _ hfirst
  · rw [if_neg fun hall => htaken hall.1, if_neg fun hall => htaken hall.1]
    exact hk.taken key htaken

/-- What the registry has for a key after a reload, as long as the host remembers. -/
theorem Keeps.reload_lookup? (hk : Keeps original h e.registry) (tree : FileTree) (key : String) :
    (h.reload e tree).2.2.registry.lookup? key =
        ((lastWhere (Installed.under key) (h.reload e tree).1.installed).map
          Installed.factory).or (original key) ∧
      lookupEntry key (h.reload e tree).2.1.owned =
        (lastWhere (Installed.under key) (h.reload e tree).1.installed).map Installed.path ∧
      lookupEntry key (h.reload e tree).2.1.formers =
        if lookupEntry key (h.reload e tree).2.1.owned = none then none else original key := by
  have hgone := nodup_gone h e tree hk.nodup
  obtain ⟨hformers, hregistry⟩ := reload_retire h e tree
  obtain ⟨hlookup, hleft⟩ := retire_spec (h.installation e tree).2.2 (h.claimed e tree).2 hgone key
  have howned : lookupEntry key (h.claimed e tree).1 =
      (lastWhere (Installed.under key) (h.installation e tree).1.installed).map Installed.path := by
    rw [claimed, foldl_claim_owned]
    exact Option.or_none
  have hinstalled : (h.installation e tree).2.2.lookup? key =
      ((lastWhere (Installed.under key) (h.installation e tree).1.installed).map
        Installed.factory).or (e.registry.lookup? key) := Registry.install_lookup? _ _ _
  have hnoted := hk.noted tree key
  rw [hformers, hregistry, hlookup, hleft, reload_owned, reload_report]
  simp only [mem_gone, howned]
  cases hlast : lastWhere (Installed.under key) (h.installation e tree).1.installed with
  | some i =>
    rw [hlast] at hinstalled hnoted
    simp [hinstalled, hnoted]
  | none =>
    rw [hlast] at hinstalled hnoted
    by_cases htaken : lookupEntry key h.owned = none
    · -- the key was and stays free
      obtain ⟨-, hsame⟩ := hk.free key htaken
      simp [htaken, hinstalled, hsame, hnoted]
    · -- the key is given back
      simp [htaken, hnoted]

/-- **A reload keeps what the host remembers.** -/
theorem Keeps.reload (hk : Keeps original h e.registry) (tree : FileTree) :
    Keeps original (h.reload e tree).2.1 (h.reload e tree).2.2.registry where
  nodup := by
    rw [reload_owned]
    exact nodup_foldl_claim _ _ _ List.nodup_nil
  taken key htaken := by
    obtain ⟨-, -, hformers⟩ := hk.reload_lookup? tree key
    rw [hformers, if_neg htaken]
  free key hfree := by
    obtain ⟨hlookup, howned, hformers⟩ := hk.reload_lookup? tree key
    refine ⟨by rw [hformers, if_pos hfree], ?_⟩
    rw [hfree] at howned
    rw [hlookup, Option.map_eq_none_iff.mp howned.symm]
    rfl

/-- After a reload a key has the factory that was loaded from its winner. -/
theorem Keeps.reload_winner (hk : Keeps original h e.registry) (tree : FileTree) {key : String}
    {l : Loadable} (hl : winner? h.fuel (tree.artifacts h.directory) key = some l) :
    ∃ i ∈ (h.reload e tree).1.installed, i.Of (h.reload e tree).2.2.state.world l ∧
      e.registry.nextId ≤ i.factory.id ∧
      (h.reload e tree).2.2.registry.lookup? key = some i.factory ∧
      lookupEntry key (h.reload e tree).2.1.owned = some l.path := by
  have hrel := lastWhere_rel (reload_of h e tree) fun l i hof => hof.claims_eq key
  change Option.Rel _ (winner? h.fuel (tree.artifacts h.directory) key) _ at hrel
  obtain ⟨hlookup, howned, -⟩ := hk.reload_lookup? tree key
  rw [hl] at hrel
  generalize hlast : lastWhere (Installed.under key) (h.reload e tree).1.installed = last
    at hrel hlookup howned
  cases hrel with
  | @some _ i hof =>
    obtain ⟨hmem, -⟩ := mem_of_lastWhere hlast
    refine ⟨i, hmem, hof, ?_, hlookup, howned.trans (congrArg some hof.path_eq)⟩
    rw [reload_report] at hmem
    exact ((Registry.install_fresh _ e.registry).2.1 i hmem).1

/-- After a reload a key that nobody claims has its original factory, and is not owned. -/
theorem Keeps.reload_unclaimed (hk : Keeps original h e.registry) (tree : FileTree) {key : String}
    (hl : winner? h.fuel (tree.artifacts h.directory) key = none) :
    (h.reload e tree).2.2.registry.lookup? key = original key ∧
      lookupEntry key (h.reload e tree).2.1.owned = none := by
  have hrel := lastWhere_rel (reload_of h e tree) fun l i hof => hof.claims_eq key
  change Option.Rel _ (winner? h.fuel (tree.artifacts h.directory) key) _ at hrel
  obtain ⟨hlookup, howned, -⟩ := hk.reload_lookup? tree key
  rw [hl] at hrel
  generalize lastWhere (Installed.under key) (h.reload e tree).1.installed = last
    at hrel hlookup howned
  cases hrel with
  | none => exact ⟨hlookup, howned⟩

end Keep

/-- The keys of a host come in order, each with the artifact that it looks up. -/
theorem ownedByKey_spec {h : ExpansionHost} (hnodup : (h.owned.map Prod.fst).Nodup) :
    h.ownedByKey.Pairwise (fun a b => a.1 < b.1) ∧
      ∀ key path, (key, path) ∈ h.ownedByKey ↔ lookupEntry key h.owned = some path := by
  refine ⟨pairwise_lt_mergeSort_keys hnodup, fun key path => ?_⟩
  have hperm := List.mergeSort_perm h.owned fun a b => decide (a.1 ≤ b.1)
  exact hperm.mem_iff.trans (lookupEntry_eq_some_iff hnodup).symm

/-! ### Any number of reloads -/

/-- The states that a new host for a directory comes to by reloading, while nothing else
    changes what the registry has under its keys. -/
inductive Reloading (directory : String) (fuel : Nat) (e₀ : Engine) :
    ExpansionHost → Engine → Prop where
  | created (scanner? : Option Scanner) :
      Reloading directory fuel e₀ { directory, fuel, scanner? } e₀
  | reload {h : ExpansionHost} {e : Engine} (run : Reloading directory fuel e₀ h e)
      (tree : FileTree) :
      Reloading directory fuel e₀ (h.reload e tree).2.1 (h.reload e tree).2.2
  | meanwhile {h : ExpansionHost} {e e' : Engine} (run : Reloading directory fuel e₀ h e)
      (same : ∀ key, e'.registry.lookup? key = e.registry.lookup? key) :
      Reloading directory fuel e₀ h e'

/-- Whatever was reloaded before, a host keeps to its directory and remembers the original types. -/
theorem Reloading.keeps {directory : String} {fuel : Nat} {e₀ e : Engine} {h : ExpansionHost}
    (run : Reloading directory fuel e₀ h e) :
    Keeps e₀.registry.lookup? h e.registry ∧ h.directory = directory ∧ h.fuel = fuel := by
  induction run with
  | created scanner? =>
    exact ⟨⟨List.nodup_nil, fun key htaken => absurd rfl htaken, fun key _ => ⟨rfl, rfl⟩⟩, rfl, rfl⟩
  | reload run tree ih => exact ⟨ih.1.reload tree, ih.2⟩
  | meanwhile run same ih =>
    obtain ⟨hk, hsettings⟩ := ih
    refine ⟨⟨hk.nodup, hk.taken, fun key hfree => ?_⟩, hsettings⟩
    obtain ⟨hnone, hsame⟩ := hk.free key hfree
    exact ⟨hnone, (same key).trans hsame⟩

/-- **A reload leaves what the directory offers, and nothing else.**  Whatever was
    reloaded before, after a reload a key that some artifact claims has the factory that
    this reload made of the last such artifact; any other key has what it had when the
    host was created; and the host owns the claimed keys, each with its winner. -/
theorem Reloading.reload_installs {directory : String} {fuel : Nat} {e₀ e : Engine}
    {h : ExpansionHost} (run : Reloading directory fuel e₀ h e) (tree : FileTree) :
    (∀ key l, winner? fuel (tree.artifacts directory) key = some l →
        ∃ i ∈ (h.reload e tree).1.installed, i.Of (h.reload e tree).2.2.state.world l ∧
          e.registry.nextId ≤ i.factory.id ∧
          (h.reload e tree).2.2.registry.lookup? key = some i.factory) ∧
      (∀ key, winner? fuel (tree.artifacts directory) key = none →
        (h.reload e tree).2.2.registry.lookup? key = e₀.registry.lookup? key) ∧
      (h.reload e tree).2.1.ownedByKey.Pairwise (fun a b => a.1 < b.1) ∧
      ∀ key path, (key, path) ∈ (h.reload e tree).2.1.ownedByKey ↔
        ∃ l, winner? fuel (tree.artifacts directory) key = some l ∧ l.path = path := by
  obtain ⟨hk, rfl, rfl⟩ := run.keeps
  obtain ⟨hsorted, howned⟩ := ownedByKey_spec (hk.reload tree).nodup
  refine ⟨fun key l hl => ?_, fun key hl => (hk.reload_unclaimed tree hl).1, hsorted,
    fun key path => (howned key path).trans ?_⟩
  · obtain ⟨i, hi, hof, hnew, hlookup, -⟩ := hk.reload_winner tree hl
    exact ⟨i, hi, hof, hnew, hlookup⟩
  · cases hl : winner? h.fuel (tree.artifacts h.directory) key with
    | none =>
      rw [(hk.reload_unclaimed tree hl).2]
      simp
    | some l =>
      obtain ⟨-, -, -, -, -, hpath⟩ := hk.reload_winner tree hl
      rw [hpath]
      simp

/-- An engine in which the key `v` has a type of its own. -/
def letterEngine : Engine :=
  { registry := { factories := [("v", ⟨0, .action .set⟩)], nextId := 1 }, state := { world := {} } }

/-- A host takes this key for the file, and gives it back when the file is gone. -/
theorem reload_installs_letter :
    ∃ h e h' e', Reloading "x" 0 letterEngine h e ∧ Reloading "x" 0 letterEngine h' e' ∧
      (∃ f, e'.registry.lookup? "v" = some f ∧ letterEngine.registry.nextId ≤ f.id) ∧
      ("v", "x/v.wat") ∈ h'.ownedByKey ∧
      (h'.reload e' bareTree).2.2.registry.lookup? "v" = some ⟨0, .action .set⟩ := by
  have run : Reloading "x" 0 letterEngine _ _ := .created none
  obtain ⟨htaken, -, -, howned⟩ := run.reload_installs letterTree
  obtain ⟨-, hback, -, -⟩ := (run.reload letterTree).reload_installs bareTree
  obtain ⟨l, hl, hpath⟩ := winner?_letterTree 0
  obtain ⟨i, -, -, hnew, hlookup⟩ := htaken "v" l hl
  exact ⟨_, _, _, _, run, run.reload letterTree, ⟨i.factory, hlookup, hnew⟩,
    (howned "v" "x/v.wat").mpr ⟨l, hl, hpath⟩, hback "v" (winner?_bareTree 0 "v")⟩

end ExpansionHost

end RuleEngine
