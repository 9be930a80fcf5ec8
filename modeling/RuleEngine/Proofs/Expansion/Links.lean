/-
  RuleEngine/Proofs/Expansion/Links.lean
  ======================================
  **Artifacts behind links.**

  A scan asks what an entry of a directory is itself, a reload what is reached through it.  So
  the two do not agree on what an artifact is: a link to a file, under the name of an artifact,
  is loaded but never recorded.  The main statement (`Scanner.recorded_iff_tried`) says that this is
  the only difference, and that the two agree exactly on the directories without such links.
-/
import RuleEngine.Proofs.Expansion.Directory

namespace RuleEngine

def FileEntry.linksToFile : FileEntry → Bool
  | .link target? => (FileEntry.link target?).content?.isSome
  | _ => false

/-- What is reached through an entry is a file if the entry is one itself or links to one. -/
theorem FileEntry.content?_isSome (entry : FileEntry) :
    entry.content?.isSome = (entry.modified?.isSome || entry.linksToFile) := by
  cases entry with
  | file content modified => rfl
  | directory => rfl
  | link target? => rfl

theorem FileEntry.not_linksToFile_of_modified? {entry : FileEntry}
    (h : entry.modified?.isSome = true) : entry.linksToFile = false := by
  cases entry with
  | file content modified => rfl
  | directory => rfl
  | link target? => cases h

namespace FileTree

variable {tree : FileTree} {directory : String}

/-- The paths under which the entries of a directory are found that have the name of an artifact
    and satisfy a condition. -/
def namedPaths (tree : FileTree) (directory : String) (p : FileEntry → Bool) : List String :=
  match tree.directory directory with
  | .listing inside =>
    (inside.filter fun e => isArtifact e.1 && p e.2).map fun e => joinPath directory e.1
  | _ => []

/-- The paths of the artifacts that are links to files. -/
def linked (tree : FileTree) (directory : String) : List String :=
  tree.namedPaths directory FileEntry.linksToFile

/-- Which paths of a directory are those of artifacts of a certain sort. -/
theorem mem_namedPaths {p : FileEntry → Bool} {path : String} :
    path ∈ tree.namedPaths directory p ↔
      ∃ inside, tree.directory directory = .listing inside ∧
        ∃ e ∈ inside, isArtifact e.1 = true ∧ p e.2 = true ∧ joinPath directory e.1 = path := by
  unfold namedPaths
  cases tree.directory directory with
  | missing => simp
  | notDirectory => simp
  | listing inside => simp [and_assoc]

/-- The paths of entries that are told by what they hold, whichever order they come in. -/
theorem mem_namedPaths_of_view {α : Type} {view : FileEntry → Option α}
    {inside : List (String × FileEntry)} (hinside : tree.directory directory = .listing inside)
    {files : List (String × α)} {path : String}
    (hfiles : files.Perm (inside.filterMap fun e =>
      if isArtifact e.1 then (view e.2).map fun a => (e.1, a) else none)) :
    path ∈ files.map (fun e => joinPath directory e.1) ↔
      path ∈ tree.namedPaths directory fun entry => (view entry).isSome := by
  simp only [mem_namedPaths, hinside, List.mem_map, hfiles.mem_iff, List.mem_filterMap,
    DirectoryView.listing.injEq, exists_eq_left']
  constructor
  · rintro ⟨file, ⟨e, he, hfile⟩, rfl⟩
    split at hfile
    · rename_i hartifact
      obtain ⟨a, ha, rfl⟩ := Option.map_eq_some_iff.mp hfile
      exact ⟨e, he, hartifact, Option.isSome_of_eq_some ha, rfl⟩
    · cases hfile
  · rintro ⟨e, he, hartifact, hview, rfl⟩
    obtain ⟨a, ha⟩ := Option.isSome_iff_exists.mp hview
    refine ⟨(e.1, a), ⟨e, he, ?_⟩, rfl⟩
    rw [if_pos hartifact, ha]
    rfl

/-- A scan records what is a file itself. -/
theorem mem_paths_snapshot (tree : FileTree) (directory path : String) :
    path ∈ (snapshot tree directory).map Prod.fst ↔
      path ∈ tree.namedPaths directory fun entry => entry.modified?.isSome := by
  unfold snapshot
  cases hinside : tree.directory directory with
  | missing => simp [namedPaths, hinside]
  | notDirectory => simp [namedPaths, hinside]
  | listing inside =>
    dsimp only
    rw [List.map_map]
    exact mem_namedPaths_of_view hinside (List.mergeSort_perm _ _)

/-- A reload loads what leads to a file. -/
theorem mem_paths_artifacts (tree : FileTree) (directory path : String) :
    path ∈ (tree.artifacts directory).map Prod.fst ↔
      path ∈ tree.namedPaths directory fun entry => entry.content?.isSome := by
  unfold artifacts
  cases hinside : tree.directory directory with
  | missing => simp [namedPaths, hinside]
  | notDirectory => simp [namedPaths, hinside]
  | listing inside =>
    dsimp only
    rw [artifactFiles_eq, List.map_map]
    exact mem_namedPaths_of_view hinside (List.mergeSort_perm _ _)

theorem mem_namedPaths_or (p q : FileEntry → Bool) (path : String) :
    path ∈ tree.namedPaths directory (fun entry => p entry || q entry) ↔
      path ∈ tree.namedPaths directory p ∨ path ∈ tree.namedPaths directory q := by
  simp only [mem_namedPaths, Bool.or_eq_true]
  constructor
  · rintro ⟨inside, hinside, e, he, hartifact, hp | hq, rfl⟩
    · exact .inl ⟨inside, hinside, e, he, hartifact, hp, rfl⟩
    · exact .inr ⟨inside, hinside, e, he, hartifact, hq, rfl⟩
  · intro h
    rcases h with ⟨inside, hinside, e, he, hartifact, hp, rfl⟩ |
      ⟨inside, hinside, e, he, hartifact, hq, rfl⟩
    · exact ⟨inside, hinside, e, he, hartifact, .inl hp, rfl⟩
    · exact ⟨inside, hinside, e, he, hartifact, .inr hq, rfl⟩

theorem joinPath_injective {directory a b : String} (ha : isAbsolute a = false)
    (hb : isAbsolute b = false) (h : joinPath directory a = joinPath directory b) : a = b := by
  rcases lt_trichotomy a b with hlt | heq | hlt
  · exact absurd h (ne_of_lt (joinPath_lt ha hb hlt))
  · exact heq
  · exact absurd h.symm (ne_of_lt (joinPath_lt hb ha hlt))

/-- In a directory with distinct names a path belongs to one entry. -/
theorem Orderly.exists_entry (ho : tree.Orderly directory) {p q : FileEntry → Bool} {path : String}
    (hp : path ∈ tree.namedPaths directory p) (hq : path ∈ tree.namedPaths directory q) :
    ∃ entry, p entry = true ∧ q entry = true := by
  obtain ⟨inside, hinside, e, he, -, hpe, hpath⟩ := mem_namedPaths.mp hp
  obtain ⟨inside', hinside', e', he', -, hqe, hpath'⟩ := mem_namedPaths.mp hq
  obtain rfl : inside = inside' := by
    rw [hinside] at hinside'
    exact DirectoryView.listing.inj hinside'
  have hname : e.1 = e'.1 := joinPath_injective (ho.inner inside hinside e he)
    (ho.inner inside hinside e' he') (hpath.trans hpath'.symm)
  have hsame : e = e' := List.inj_on_of_nodup_map (ho.distinct inside hinside) he he' hname
  exact ⟨e.2, hpe, hsame ▸ hqe⟩

end FileTree

section Agreement

variable (s : Scanner) (e : Engine) (tree : FileTree) (now fuel : Nat)

def Scanner.recorded : List String := (s.scan tree now).2.known.map Prod.fst

/-- The paths that an engine tries to load from a directory. -/
def Engine.tried (directory : String) : List String :=
  (e.discover tree directory fuel).1.map Artifact.path

theorem Artifact.Of.path_eq {w : World} {file : String × FileContent} {a : Artifact}
    (h : Artifact.Of fuel w file a) : a.path = file.1 := by
  cases h <;> rfl

theorem Engine.tried_eq (directory : String) :
    e.tried tree fuel directory = (tree.artifacts directory).map Prod.fst := by
  obtain ⟨-, -, hfiles⟩ := e.discover_spec tree directory fuel
  unfold Engine.tried
  generalize tree.artifacts directory = files at hfiles ⊢
  generalize (e.discover tree directory fuel).1 = artifacts at hfiles ⊢
  induction hfiles with
  | nil => rfl
  | cons hof _ ih => rw [List.map_cons, List.map_cons, ih, hof.path_eq]

/-- **A scan overlooks the links to files among the artifacts, and nothing else.**  In a directory
    with distinct names it records the paths that an engine tries to load, apart from those under
    which a link to a file is found; so they agree if and only if there are no such links. -/
theorem Scanner.recorded_iff_tried (ho : tree.Orderly s.directory) :
    (∀ path, path ∈ s.recorded tree now ↔
      path ∈ e.tried tree fuel s.directory ∧ path ∉ tree.linked s.directory) ∧
    ((∀ path, path ∈ s.recorded tree now ↔ path ∈ e.tried tree fuel s.directory) ↔
      tree.linked s.directory = []) := by
  have hrecorded : ∀ path, path ∈ s.recorded tree now ↔
      path ∈ tree.namedPaths s.directory fun entry => entry.modified?.isSome :=
    tree.mem_paths_snapshot s.directory
  have htried : ∀ path, path ∈ e.tried tree fuel s.directory ↔
      path ∈ s.recorded tree now ∨ path ∈ tree.linked s.directory := by
    intro path
    rw [e.tried_eq, tree.mem_paths_artifacts, hrecorded]
    simp only [FileEntry.content?_isSome]
    exact FileTree.mem_namedPaths_or _ _ path
  have hnever : ∀ path, path ∈ s.recorded tree now → path ∉ tree.linked s.directory := by
    intro path hpath hlinked
    obtain ⟨entry, hfile, hlink⟩ := ho.exists_entry ((hrecorded path).mp hpath) hlinked
    rw [FileEntry.not_linksToFile_of_modified? hfile] at hlink
    cases hlink
  constructor
  · intro path
    have := hnever path
    rw [htried]
    tauto
  · rw [List.eq_nil_iff_forall_not_mem]
    refine forall_congr' fun path => ?_
    have := hnever path
    rw [htried]
    tauto

end Agreement

/-! ### A link to a module -/

/-- The module in a file elsewhere, with a link to it in the directory. -/
def linkTree : FileTree :=
  { entries := [(["x"], .directory), (["m"], .file (.module letterModule) 1),
      (["x", "v.wat"], .link (some (.file (.module letterModule) 1)))] }

theorem listing_linkTree :
    linkTree.directory "x" =
      .listing [("v.wat", .link (some (.file (.module letterModule) 1)))] := by
  have hplace : linkTree.locate? "x" = some ["x"] := by decide +kernel
  unfold FileTree.directory
  rw [hplace]
  rfl

theorem sound_linkTree : linkTree.Sound where
  distinct := by decide
  parts := by simp [linkTree, IsPart]
  start := nofun

/-- The engine loads the module, and no scan records it. -/
theorem recorded_iff_tried_linkTree (e : Engine) (now fuel : Nat) :
    let s := Scanner.create linkTree "x" 0
    "x/v.wat" ∈ e.tried linkTree fuel "x" ∧ "x/v.wat" ∉ s.recorded linkTree now := by
  have hnamed : ∀ p : FileEntry → Bool, p (.link (some (.file (.module letterModule) 1))) = true →
      "x/v.wat" ∈ linkTree.namedPaths "x" p := fun p hp => FileTree.mem_namedPaths.mpr
    ⟨_, listing_linkTree, _, List.mem_singleton_self _, isArtifact_letter, hp, joinPath_letter⟩
  have hlinked : "x/v.wat" ∈ linkTree.linked "x" := hnamed _ rfl
  have hloaded : "x/v.wat" ∈ e.tried linkTree fuel "x" := by
    rw [e.tried_eq, linkTree.mem_paths_artifacts]
    exact hnamed _ rfl
  obtain ⟨hrecorded, -⟩ := Scanner.recorded_iff_tried (.create linkTree "x" 0) e linkTree now fuel
    (sound_linkTree.orderly "x")
  exact ⟨hloaded, fun hmem => ((hrecorded _).mp hmem).2 hlinked⟩

end RuleEngine
