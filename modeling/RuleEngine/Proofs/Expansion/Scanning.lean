/-
  RuleEngine/Proofs/Expansion/Scanning.lean
  =========================================
  **What scans report.**

  A scan compares two snapshots, the one that the scanner knows and the one of the directory
  as it is now.  Both list their paths in strict order, so each is a map from paths to
  modification times, and what the scan reports is the exact difference of the two maps
  (`changesBetween_tells`).

  Over any number of scans the scanner knows what the directory held at the last of them
  (`Scanner.Watching.known_eq`).  So every scan tells what happened since the one before, and
  nothing that happened between two scans is lost: the additions and removals that were
  reported lead from the paths that were there in the beginning to those of the last scan
  (`Scanner.Watching.scan_tells`).
-/
import Mathlib.Data.Finset.Basic
import RuleEngine.Proofs.Expansion.Directory

namespace RuleEngine

/-! ### The difference of two snapshots -/

def Snapshot.Sorted (s : Snapshot) : Prop := s.Pairwise fun a b => a.1 < b.1

def Snapshot.paths (s : Snapshot) : Finset String := (s.map Prod.fst).toFinset

/-- Changes are the exact difference of two snapshots. -/
structure ArtifactChanges.Tells (changes : ArtifactChanges) (known current : Snapshot) :
    Prop where
  added_sorted : changes.added.Pairwise (· < ·)
  modified_sorted : changes.modified.Pairwise (· < ·)
  removed_sorted : changes.removed.Pairwise (· < ·)
  added_modified : changes.added.Disjoint changes.modified
  added_removed : changes.added.Disjoint changes.removed
  modified_removed : changes.modified.Disjoint changes.removed
  mem_added : ∀ path, path ∈ changes.added ↔
    lookupEntry path known = none ∧ lookupEntry path current ≠ none
  mem_modified : ∀ path, path ∈ changes.modified ↔
    ∃ before after, lookupEntry path known = some before ∧
      lookupEntry path current = some after ∧ before ≠ after
  mem_removed : ∀ path, path ∈ changes.removed ↔
    lookupEntry path known ≠ none ∧ lookupEntry path current = none
  any_eq_false : changes.any = false ↔
    ∀ path, lookupEntry path known = lookupEntry path current

section Difference

variable {known current : Snapshot}

theorem Snapshot.Sorted.nodup (h : Snapshot.Sorted known) : (known.map Prod.fst).Nodup :=
  List.pairwise_map.mpr (h.imp ne_of_lt)

theorem Snapshot.Sorted.filter_paths (h : Snapshot.Sorted known) (p : String × Nat → Bool) :
    ((known.filter p).map Prod.fst).Pairwise (· < ·) :=
  List.pairwise_map.mpr (List.Pairwise.sublist List.filter_sublist h)

theorem Snapshot.mem_paths {path : String} :
    path ∈ Snapshot.paths known ↔ lookupEntry path known ≠ none := by
  rw [Snapshot.paths, List.mem_toFinset, ne_eq, lookupEntry_eq_none_iff, not_not]

theorem mem_added_changesBetween (known current : Snapshot) (path : String) :
    path ∈ (changesBetween known current).added ↔
      lookupEntry path known = none ∧ lookupEntry path current ≠ none := by
  rw [← Snapshot.mem_paths, Snapshot.paths, List.mem_toFinset]
  simp only [changesBetween, List.mem_map, List.mem_filter, Option.isNone_iff_eq_none]
  constructor
  · rintro ⟨e, ⟨he, hnew⟩, rfl⟩
    exact ⟨hnew, e, he, rfl⟩
  · rintro ⟨hnew, e, he, rfl⟩
    exact ⟨e, ⟨he, hnew⟩, rfl⟩

/-- What is removed on the way from one snapshot to another is added on the way back. -/
theorem mem_removed_changesBetween (known current : Snapshot) (path : String) :
    path ∈ (changesBetween known current).removed ↔
      lookupEntry path known ≠ none ∧ lookupEntry path current = none :=
  (mem_added_changesBetween current known path).trans and_comm

/-- A path is modified if both scans have it with different stamps. -/
theorem mem_modified_changesBetween (known : Snapshot) (hcurrent : Snapshot.Sorted current)
    (path : String) :
    path ∈ (changesBetween known current).modified ↔
      ∃ before after, lookupEntry path known = some before ∧
        lookupEntry path current = some after ∧ before ≠ after := by
  simp only [changesBetween, List.mem_map, List.mem_filter]
  constructor
  · rintro ⟨⟨path, after⟩, ⟨he, hmodified⟩, rfl⟩
    cases hbefore : lookupEntry path known with
    | none =>
      rw [hbefore] at hmodified
      cases hmodified
    | some before =>
      rw [hbefore, bne_iff_ne] at hmodified
      exact ⟨before, after, rfl, lookupEntry_of_mem hcurrent.nodup he, hmodified⟩
  · rintro ⟨before, after, hbefore, hafter, hne⟩
    refine ⟨(path, after), ⟨mem_of_lookupEntry hafter, ?_⟩, rfl⟩
    dsimp only
    rw [hbefore, bne_iff_ne]
    exact hne

/-- Two values of a key are the same unless the key is only on one side, or has different
    values. -/
theorem option_eq_iff {α : Type} (a b : Option α) :
    a = b ↔ ¬ (a = none ∧ b ≠ none) ∧ ¬ (∃ x y, a = some x ∧ b = some y ∧ x ≠ y) ∧
      ¬ (a ≠ none ∧ b = none) := by
  cases a <;> cases b <;> simp

/-- **The changes between two snapshots are their exact difference.** -/
theorem changesBetween_tells (hknown : Snapshot.Sorted known) (hcurrent : Snapshot.Sorted current) :
    (changesBetween known current).Tells known current := by
  have hadded := mem_added_changesBetween known current
  have hmodified := mem_modified_changesBetween known hcurrent
  have hremoved := mem_removed_changesBetween known current
  constructor
  · exact hcurrent.filter_paths _
  · exact hcurrent.filter_paths _
  · exact hknown.filter_paths _
  · intro path ha hm
    obtain ⟨before, -, hbefore, -⟩ := (hmodified path).mp hm
    rw [((hadded path).mp ha).1] at hbefore
    cases hbefore
  · intro path ha hr
    exact ((hremoved path).mp hr).1 ((hadded path).mp ha).1
  · intro path hm hr
    obtain ⟨-, after, -, hafter, -⟩ := (hmodified path).mp hm
    rw [((hremoved path).mp hr).2] at hafter
    cases hafter
  · exact hadded
  · exact hmodified
  · exact hremoved
  · simp only [ArtifactChanges.any, Bool.not_eq_false', Bool.and_eq_true, List.isEmpty_iff,
      List.eq_nil_iff_forall_not_mem, hadded, hmodified, hremoved, and_assoc, ← forall_and,
      ← option_eq_iff]

end Difference

/-! ### Scans one after another -/

def ArtifactChanges.applyTo (paths : Finset String) (changes : ArtifactChanges) : Finset String :=
  (paths ∪ changes.added.toFinset) \ changes.removed.toFinset

theorem ArtifactChanges.Tells.applyTo_paths {changes : ArtifactChanges} {known current : Snapshot}
    (h : changes.Tells known current) :
    changes.applyTo (Snapshot.paths known) = Snapshot.paths current := by
  ext path
  simp only [applyTo, Finset.mem_sdiff, Finset.mem_union, List.mem_toFinset, Snapshot.mem_paths,
    h.mem_added, h.mem_removed]
  tauto

theorem FileTree.Orderly.snapshot_sorted {tree : FileTree} {directory : String}
    (ho : tree.Orderly directory) : Snapshot.Sorted (snapshot tree directory) := by
  rw [snapshot_eq]
  exact List.pairwise_map.mpr ho.stamped_lt

/-- A scanner that was created on a directory, what its scans have reported since, in order,
    and what the directory was at the last of them, or in the beginning if there was none. -/
inductive Scanner.Watching (directory : String) (interval : Nat) (first : FileTree) :
    List ArtifactChanges → FileTree → Scanner → Prop where
  | created (orderly : first.Orderly directory) :
      Watching directory interval first [] first (.create first directory interval)
  | scan {reports : List ArtifactChanges} {last : FileTree} {s : Scanner}
      (run : Watching directory interval first reports last s) (tree : FileTree) (now : Nat)
      (orderly : tree.Orderly directory) :
      Watching directory interval first (reports ++ [(s.scan tree now).1]) tree
        (s.scan tree now).2

section Watching

variable {directory : String} {interval : Nat} {first last : FileTree}
  {reports : List ArtifactChanges} {s : Scanner}

/-- **A scanner knows its directory as it was at the last scan.** -/
theorem Scanner.Watching.known_eq (run : Watching directory interval first reports last s) :
    last.Orderly directory ∧ s.directory = directory ∧ s.known = snapshot last directory := by
  induction run with
  | created orderly => exact ⟨orderly, rfl, rfl⟩
  | @scan reports last s run tree now orderly ih =>
    obtain ⟨-, rfl, -⟩ := ih
    exact ⟨orderly, rfl, rfl⟩

theorem Scanner.Watching.next_tells (run : Watching directory interval first reports last s)
    {tree : FileTree} (now : Nat) (orderly : tree.Orderly directory) :
    (s.scan tree now).1.Tells (snapshot last directory) (snapshot tree directory) := by
  obtain ⟨hlast, hdirectory, hknown⟩ := run.known_eq
  have htells := changesBetween_tells hlast.snapshot_sorted orderly.snapshot_sorted
  unfold Scanner.scan
  rw [hdirectory, hknown]
  exact htells

/-- **Scans report exactly what happened.**  However often a directory was scanned before, the
    next scan reports the exact difference between what it held at the last scan and what it
    holds now.  The additions and removals that were reported until then lead from the paths
    that were there when the scanner was created to those of the last scan. -/
theorem Scanner.Watching.scan_tells (run : Watching directory interval first reports last s) :
    (∀ tree now, tree.Orderly directory →
      (s.scan tree now).1.Tells (snapshot last directory) (snapshot tree directory) ∧
        (s.scan tree now).2.known = snapshot tree directory) ∧
      reports.foldl ArtifactChanges.applyTo (Snapshot.paths (snapshot first directory)) =
        Snapshot.paths s.known := by
  refine ⟨fun tree now orderly => ⟨run.next_tells now orderly, ?_⟩, ?_⟩
  · obtain ⟨-, rfl, -⟩ := run.known_eq
    rfl
  · -- each report leads from the paths known before it to those known after it
    induction run with
    | created => rfl
    | @scan reports last s run tree now orderly ih =>
      obtain ⟨-, rfl, hknown⟩ := run.known_eq
      rw [List.foldl_concat, ih, hknown]
      exact (run.next_tells now orderly).applyTo_paths

/-- A file comes and goes: its removal is reported by the next scan, and the reports until then
    account for it. -/
theorem scan_tells_letterTree :
    ∃ reports s, Scanner.Watching "x" 0 bareTree reports letterTree s ∧
      "x/v.wat" ∈ (s.scan bareTree 2).1.removed ∧
      reports.foldl ArtifactChanges.applyTo (Snapshot.paths (snapshot bareTree "x")) =
        {"x/v.wat"} := by
  have created : Scanner.Watching "x" 0 bareTree [] bareTree (.create bareTree "x" 0) :=
    .created plain_bareTree.orderly
  have watched := created.scan letterTree 1 plain_letterTree.orderly
  obtain ⟨hnext, hreports⟩ := watched.scan_tells
  obtain ⟨htells, -⟩ := hnext bareTree 2 plain_bareTree.orderly
  refine ⟨_, _, watched, (htells.mem_removed "x/v.wat").mpr ?_, ?_⟩
  · rw [snapshot_letterTree, snapshot_bareTree]
    simp [lookupEntry]
  · rw [hreports, watched.known_eq.2.2, snapshot_letterTree]
    rfl

end Watching

end RuleEngine
