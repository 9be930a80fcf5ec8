/-
  RuleEngine/Proofs/Expansion/Directory.lean
  ==========================================
  **Two views of one directory.**

  A scanner looks at the names and the modification times of a directory's artifacts,
  a reload at their names and contents.  When the artifacts are files, and not links
  to files elsewhere, both look at the same list (`FileTree.stamped`), which
  `snapshot_eq` and `artifacts_eq` say.  Its paths come in strict order, so that the
  winner of a key is the claimant with the greatest path (`winner?_eq_some_iff`), and
  a directory that lost some files has the same winners as long as it did not lose
  one of these.
-/
import Mathlib.Data.List.Sort
import RuleEngine.Expansion.Scanner
import RuleEngine.Proofs.Expansion.Install
import RuleEngine.Proofs.FileTree

namespace RuleEngine

/-- Content and modification time of an entry that is a file itself. -/
def FileEntry.stamp? : FileEntry → Option (FileContent × Nat)
  | .file content modified => some (content, modified)
  | _ => none

/-- The files among the entries of a directory that are artifacts, by name. -/
def stampedFiles (inside : List (String × FileEntry)) : List (String × FileContent × Nat) :=
  inside.filterMap fun e =>
    if isArtifact e.1 then e.2.stamp?.map fun stamp => (e.1, stamp) else none

/-- The artifacts of a directory that are files, in the order of their names, with
    what they hold and when they were modified. -/
def FileTree.stamped (tree : FileTree) (directory : String) : List (String × FileContent × Nat) :=
  match tree.directory directory with
  | .listing inside =>
    ((stampedFiles inside).mergeSort fun a b => a.1 ≤ b.1).map fun e =>
      (joinPath directory e.1, e.2)
  | _ => []

/-- A directory with distinct names, none of which leads elsewhere. -/
structure FileTree.Orderly (tree : FileTree) (directory : String) : Prop where
  distinct : ∀ inside, tree.directory directory = .listing inside → (inside.map Prod.fst).Nodup
  inner : ∀ inside, tree.directory directory = .listing inside →
    ∀ e ∈ inside, isAbsolute e.1 = false

/-- The name of an entry directly inside a place is the last part of its own place. -/
theorem FileTree.place_of_nameInside? {place : List String} {entry : List String × FileEntry}
    {e : String × FileEntry} (h : nameInside? place entry = some e) :
    entry.1 = place ++ [e.1] := by
  unfold nameInside? at h
  split at h
  · rename_i name hname
    split_ifs at h with hplace
    cases h
    rw [← beq_iff_eq.mp hplace]
    exact (List.dropLast_append_getLast? name hname).symm
  · cases h

/-- Whatever was written into a tree, its directories are orderly. -/
theorem FileTree.Sound.orderly {tree : FileTree} (h : tree.Sound) (directory : String) :
    tree.Orderly directory := by
  -- a listing has the last parts of the places that are directly inside one place
  have hlisting : ∀ inside, tree.directory directory = .listing inside →
      ∃ place, inside = tree.entries.filterMap (nameInside? place) := by
    intro inside hinside
    unfold FileTree.directory at hinside
    split at hinside
    · cases hinside
    · split_ifs at hinside
      cases hinside
      exact ⟨_, rfl⟩
  constructor <;> intro inside hinside <;> obtain ⟨place, rfl⟩ := hlisting inside hinside
  · refine List.pairwise_map.mpr (List.pairwise_filterMap.mpr ?_)
    refine (List.pairwise_map.mp h.distinct).imp fun hne e he e' he' hname => hne ?_
    rw [place_of_nameInside? he, place_of_nameInside? he', hname]
  · intro e he
    obtain ⟨entry, hentry, hname⟩ := List.mem_filterMap.mp he
    refine (h.parts entry hentry e.1 ?_).not_isAbsolute
    rw [place_of_nameInside? hname]
    exact List.mem_append_right _ (List.mem_singleton_self _)

/-- A directory with distinct names, none of which leads elsewhere, and in which no
    artifact is a link to a file. -/
structure FileTree.Plain (tree : FileTree) (directory : String) : Prop where
  distinct : ∀ inside, tree.directory directory = .listing inside → (inside.map Prod.fst).Nodup
  inner : ∀ inside, tree.directory directory = .listing inside →
    ∀ e ∈ inside, isAbsolute e.1 = false
  files : ∀ inside, tree.directory directory = .listing inside →
    ∀ e ∈ inside, isArtifact e.1 = true → ∀ content, e.2.content? = some content →
      ∃ modified, e.2 = .file content modified

theorem FileTree.Plain.orderly {tree : FileTree} {directory : String}
    (hp : tree.Plain directory) : tree.Orderly directory := ⟨hp.distinct, hp.inner⟩

/-! ### The two views -/

theorem map_mergeSort_names {α β : Type} (f : α → β) (entries : List (String × α)) :
    (entries.mergeSort fun a b => a.1 ≤ b.1).map (fun e => (e.1, f e.2)) =
      (entries.map fun e => (e.1, f e.2)).mergeSort fun a b => a.1 ≤ b.1 :=
  List.map_mergeSort fun _ _ _ _ => rfl

/-- A snapshot is what the directory shows, without the contents. -/
theorem snapshot_eq (tree : FileTree) (directory : String) :
    snapshot tree directory = (tree.stamped directory).map fun e => (e.1, e.2.2) := by
  unfold snapshot FileTree.stamped
  cases tree.directory directory with
  | missing => rfl
  | notDirectory => rfl
  | listing inside =>
    have hfiles : (inside.filterMap fun e =>
        if isArtifact e.1 then e.2.modified?.map fun modified => (e.1, modified) else none) =
          (stampedFiles inside).map fun e => (e.1, e.2.2) := by
      rw [stampedFiles, List.map_filterMap]
      refine List.filterMap_congr fun e _ => ?_
      rcases e with ⟨name, entry⟩
      dsimp only
      cases isArtifact name <;> cases entry <;> rfl
    dsimp only
    rw [hfiles, ← map_mergeSort_names Prod.snd, List.map_map, List.map_map]
    rfl

/-- What a reload reads through an entry, if it takes it for an artifact. -/
def readArtifact? (e : String × FileEntry) : Option (String × FileContent) :=
  if isArtifact e.1 then e.2.content?.map fun content => (e.1, content) else none

theorem artifactFiles_eq (directory : String) (inside : List (String × FileEntry)) :
    artifactFiles directory inside =
      ((inside.filterMap readArtifact?).mergeSort fun a b => a.1 ≤ b.1).map fun e =>
        (joinPath directory e.1, e.2) := by
  unfold artifactFiles
  dsimp only
  rw [List.filterMap_congr (g := readArtifact?)]
  intro e _
  dsimp only [readArtifact?]
  cases e.2.content? with
  | none => simp
  | some content => rfl

/-- The artifacts of a plain directory are its stamped files, without the times. -/
theorem FileTree.Plain.artifacts_eq {tree : FileTree} {directory : String}
    (hp : tree.Plain directory) :
    tree.artifacts directory = (tree.stamped directory).map fun e => (e.1, e.2.1) := by
  unfold FileTree.artifacts FileTree.stamped
  cases hd : tree.directory directory with
  | missing => rfl
  | notDirectory => rfl
  | listing inside =>
    have hfiles : inside.filterMap readArtifact? =
        (stampedFiles inside).map fun e => (e.1, e.2.1) := by
      rw [stampedFiles, List.map_filterMap]
      refine List.filterMap_congr fun e he => ?_
      have hfile := hp.files inside hd e he
      rcases e with ⟨name, entry⟩
      dsimp only [readArtifact?] at hfile ⊢
      cases hartifact : isArtifact name with
      | false => rfl
      | true =>
        cases hcontent : entry.content? with
        | none =>
          cases entry with
          | file content modified => cases hcontent
          | directory => rfl
          | link target? => rfl
        | some content =>
          obtain ⟨modified, rfl⟩ := hfile hartifact content hcontent
          rfl
    dsimp only
    rw [artifactFiles_eq, hfiles, ← map_mergeSort_names Prod.fst, List.map_map, List.map_map]
    rfl

/-! ### Paths in order -/

/-- Names inside a directory and their paths are ordered alike. -/
theorem joinPath_lt {directory a b : String} (ha : isAbsolute a = false) (hb : isAbsolute b = false)
    (hab : a < b) : joinPath directory a < joinPath directory b := by
  have happend : ∀ s : String, s ++ a < s ++ b := by
    intro s
    rw [String.lt_iff_toList_lt, String.toList_append, String.toList_append]
    exact List.append_left_lt (String.lt_iff_toList_lt.mp hab)
  simp only [joinPath, ha, hb, Bool.false_eq_true, if_false]
  split
  · exact happend directory
  · exact happend (directory ++ "/")

theorem FileTree.Orderly.stamped_lt {tree : FileTree} {directory : String}
    (ho : tree.Orderly directory) : (tree.stamped directory).Pairwise fun a b => a.1 < b.1 := by
  unfold FileTree.stamped
  cases hd : tree.directory directory with
  | missing => exact List.Pairwise.nil
  | notDirectory => exact List.Pairwise.nil
  | listing inside =>
    have hperm := List.mergeSort_perm (stampedFiles inside) fun a b => decide (a.1 ≤ b.1)
    have hmem : ∀ e ∈ stampedFiles inside, ∃ entry, (e.1, entry) ∈ inside := by
      intro e he
      obtain ⟨f, hf, hstamp⟩ := List.mem_filterMap.mp he
      split at hstamp
      · obtain ⟨stamp, -, rfl⟩ := Option.map_eq_some_iff.mp hstamp
        exact ⟨f.2, hf⟩
      · cases hstamp
    have hnames : (stampedFiles inside).map Prod.fst =
        (inside.filter fun e => isArtifact e.1 && e.2.stamp?.isSome).map Prod.fst := by
      rw [stampedFiles, List.map_filterMap, ← List.filterMap_eq_filter, List.map_filterMap]
      refine List.filterMap_congr fun e _ => ?_
      rcases e with ⟨name, entry⟩
      cases hartifact : isArtifact name <;> cases hstamp : entry.stamp? <;>
        simp [Option.guard, hartifact, hstamp]
    have hnodup : ((stampedFiles inside).map Prod.fst).Nodup := by
      rw [hnames]
      exact (ho.distinct inside hd).sublist (List.filter_sublist.map _)
    have hinner : ∀ e ∈ (stampedFiles inside).mergeSort fun a b => a.1 ≤ b.1,
        isAbsolute e.1 = false := by
      intro e he
      obtain ⟨entry, hentry⟩ := hmem e (hperm.mem_iff.mp he)
      exact ho.inner inside hd _ hentry
    rw [List.pairwise_map]
    refine (pairwise_lt_mergeSort_keys hnodup).imp_of_mem fun {a b} ha hb hab => ?_
    exact joinPath_lt (hinner a ha) (hinner b hb) hab

theorem FileTree.Plain.artifacts_lt {tree : FileTree} {directory : String}
    (hp : tree.Plain directory) : (tree.artifacts directory).Pairwise fun a b => a.1 < b.1 := by
  rw [hp.artifacts_eq, List.pairwise_map]
  exact hp.orderly.stamped_lt

theorem eq_of_path_eq {α : Type} {entries : List (String × α)}
    (h : entries.Pairwise fun a b => a.1 < b.1) {path : String} {a b : α} (ha : (path, a) ∈ entries)
    (hb : (path, b) ∈ entries) : a = b := by
  have hnodup : (entries.map Prod.fst).Nodup :=
    List.pairwise_map.mpr (h.imp fun {a b} hab => ne_of_lt hab)
  have hsame := (lookupEntry_of_mem hnodup ha).symm.trans (lookupEntry_of_mem hnodup hb)
  exact Option.some.inj hsame

/-! ### Winners by path -/

/-- In a list in strict order the last element is the greatest. -/
theorem lastWhere_eq_some_iff {α : Type} {p : α → Bool} {f : α → String} {l : List α}
    (h : l.Pairwise fun a b => f a < f b) {a : α} :
    lastWhere p l = some a ↔ a ∈ l ∧ p a = true ∧ ∀ b ∈ l, p b = true → f b ≤ f a := by
  induction l with
  | nil => simp [lastWhere]
  | cons c rest ih =>
    obtain ⟨hc, hrest⟩ := List.pairwise_cons.mp h
    have ih := ih hrest
    rw [lastWhere_cons]
    cases hlast : lastWhere p rest with
    | some d =>
      rw [hlast] at ih
      obtain ⟨hd, hpd⟩ := mem_of_lastWhere hlast
      rw [Option.some_or, ih]
      constructor
      · rintro ⟨ha, hpa, hmax⟩
        refine ⟨List.mem_cons_of_mem _ ha, hpa, fun b hb hpb => ?_⟩
        rcases List.mem_cons.mp hb with rfl | hb
        · exact le_of_lt (hc a ha)
        · exact hmax b hb hpb
      · rintro ⟨ha, hpa, hmax⟩
        rcases List.mem_cons.mp ha with rfl | ha
        · exact absurd (hmax d (List.mem_cons_of_mem _ hd) hpd) (not_le_of_gt (hc d hd))
        · exact ⟨ha, hpa, fun b hb => hmax b (List.mem_cons_of_mem _ hb)⟩
    | none =>
      have hnone := lastWhere_eq_none.mp hlast
      rw [Option.none_or]
      constructor
      · intro hsome
        split at hsome
        · rename_i hpc
          obtain rfl := Option.some.inj hsome
          refine ⟨List.mem_cons_self, hpc, fun b hb hpb => ?_⟩
          rcases List.mem_cons.mp hb with rfl | hb
          · exact le_refl _
          · exact absurd hpb (hnone b hb)
        · cases hsome
      · rintro ⟨ha, hpa, -⟩
        rcases List.mem_cons.mp ha with rfl | ha
        · rw [if_pos hpa]
        · exact absurd hpa (hnone a ha)

theorem loadables_lt {fuel : Nat} {files : List (String × FileContent)}
    (h : files.Pairwise fun a b => a.1 < b.1) :
    (loadables fuel files).Pairwise fun a b => a.path < b.path := by
  refine List.Pairwise.filterMap _ (fun file file' hlt l hl l' hl' => ?_) h
  have hpath : ∀ {file l}, loadable? fuel file = some l → l.path = file.1 := by
    intro file l hl
    unfold loadable? at hl
    split at hl
    · exact (congrArg Loadable.path (Option.some.inj hl)).symm
    · cases hl
  rw [hpath hl, hpath hl']
  exact hlt

/-- The winner of a key is the claimant with the greatest path. -/
theorem winner?_eq_some_iff {fuel : Nat} {files : List (String × FileContent)}
    (h : files.Pairwise fun a b => a.1 < b.1) {key : String} {l : Loadable} :
    winner? fuel files key = some l ↔
      l ∈ loadables fuel files ∧ l.guest.typeKey = key ∧
        ∀ l' ∈ loadables fuel files, l'.guest.typeKey = key → l'.path ≤ l.path := by
  rw [winner?, lastWhere_eq_some_iff (loadables_lt h)]
  simp only [Loadable.claims, beq_iff_eq]

theorem loadables_subset {fuel : Nat} {files files' : List (String × FileContent)}
    (h : ∀ file ∈ files', file ∈ files) :
    ∀ l ∈ loadables fuel files', l ∈ loadables fuel files := by
  intro l hl
  obtain ⟨hfile, hload⟩ := mem_loadables.mp hl
  exact mem_loadables.mpr ⟨h _ hfile, hload⟩

/-- **Losing files that win nothing changes no winner.** -/
theorem winner?_of_subset {fuel : Nat} {files files' : List (String × FileContent)}
    (h : files.Pairwise fun a b => a.1 < b.1) (h' : files'.Pairwise fun a b => a.1 < b.1)
    (hsub : ∀ file ∈ files', file ∈ files) {key : String}
    (hkept : ∀ l, winner? fuel files key = some l → l.path ∈ files'.map Prod.fst) :
    winner? fuel files' key = winner? fuel files key := by
  cases hl : winner? fuel files key with
  | some l =>
    obtain ⟨hmem, hkey, hmax⟩ := (winner?_eq_some_iff h).mp hl
    obtain ⟨hfile, hload⟩ := mem_loadables.mp hmem
    obtain ⟨file, hfile', hpath⟩ := List.mem_map.mp (hkept l hl)
    -- the file that is left under the path is the one that won
    have hcontent : file.2 = l.content := by
      refine eq_of_path_eq h ?_ hfile
      rw [← hpath]
      exact hsub file hfile'
    have hleft : (l.path, l.content) ∈ files' := by
      rw [← hpath, ← hcontent]
      exact hfile'
    refine (winner?_eq_some_iff h').mpr ⟨mem_loadables.mpr ⟨hleft, hload⟩, hkey, fun l' hl' => ?_⟩
    exact hmax l' (loadables_subset hsub l' hl')
  | none =>
    have hnone := lastWhere_eq_none.mp hl
    exact lastWhere_eq_none.mpr fun l' hl' => hnone l' (loadables_subset hsub l' hl')

/-! ### A directory with one artifact -/

theorem plain_letterTree : letterTree.Plain "x" := by
  have hinner : isAbsolute "v.wat" = false := by decide +kernel
  constructor <;> intro inside hinside <;> rw [listing_letterTree] at hinside <;>
    cases hinside
  · exact List.nodup_singleton _
  · intro e he
    rw [List.mem_singleton.mp he]
    exact hinner
  · intro e he _ content hcontent
    rw [List.mem_singleton.mp he] at hcontent ⊢
    cases hcontent
    exact ⟨1, rfl⟩

theorem plain_bareTree : bareTree.Plain "x" := by
  constructor <;> intro inside hinside <;> rw [listing_bareTree] at hinside <;>
    cases hinside <;> simp

theorem stamped_bareTree : bareTree.stamped "x" = [] := by
  unfold FileTree.stamped
  rw [listing_bareTree]
  simp [stampedFiles]

theorem snapshot_letterTree : snapshot letterTree "x" = [("x/v.wat", 1)] := by
  unfold snapshot
  rw [listing_letterTree]
  simp [FileEntry.modified?, isArtifact_letter, joinPath_letter]

theorem snapshot_bareTree : snapshot bareTree "x" = [] := by
  rw [snapshot_eq, stamped_bareTree]
  rfl

end RuleEngine
