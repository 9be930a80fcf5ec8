/-
  RuleEngine/Proofs/Expansion/Install.lean
  ========================================
  **What an installation does to the registry.**

  Which artifacts a directory holds, and what is loaded from them, depends on the
  files alone: `loadables` lists what loads, in the order of the names, and `winner?`
  is the last that claims a key.  Loading only adds guests to the world
  (`Engine.loadArtifacts_spec`), and installing puts a new factory under the key of
  every artifact that loads, one after another (`Registry.install_lookup?`).  So
  afterwards a key has the factory of its winner, or the one it had before.
-/
import RuleEngine.Expansion.Install
import RuleEngine.Proofs.Entries
import RuleEngine.Proofs.Guest.Detached

namespace RuleEngine

/-! ### What a directory offers -/

def FileTree.artifacts (tree : FileTree) (directory : String) : List (String × FileContent) :=
  match tree.directory directory with
  | .listing inside => artifactFiles directory inside
  | _ => []

structure Loadable where
  path : String
  content : FileContent
  guest : Guest.Instance

def loadable? (fuel : Nat) (file : String × FileContent) : Option Loadable :=
  match Guest.load fuel file.1 file.2 with
  | .ok guest => some ⟨file.1, file.2, guest⟩
  | .error _ => none

def loadables (fuel : Nat) (files : List (String × FileContent)) : List Loadable :=
  files.filterMap (loadable? fuel)

def Loadable.claims (key : String) (l : Loadable) : Bool := l.guest.typeKey == key

/-- The artifact that a key belongs to: the last that claims it. -/
def winner? (fuel : Nat) (files : List (String × FileContent)) (key : String) : Option Loadable :=
  lastWhere (Loadable.claims key) (loadables fuel files)

/-- What loads is among the files, and it is what its file is loaded as. -/
theorem mem_loadables {fuel : Nat} {files : List (String × FileContent)} {l : Loadable} :
    l ∈ loadables fuel files ↔
      (l.path, l.content) ∈ files ∧ Guest.load fuel l.path l.content = .ok l.guest := by
  simp only [loadables, List.mem_filterMap, loadable?]
  constructor
  · rintro ⟨file, hfile, hload⟩
    cases hguest : Guest.load fuel file.1 file.2 with
    | error cause => simp [hguest] at hload
    | ok guest =>
      simp only [hguest, Option.some.injEq] at hload
      subst hload
      exact ⟨hfile, hguest⟩
  · rintro ⟨hfile, hload⟩
    exact ⟨_, hfile, by simp [hload]⟩

theorem winner?_eq_some {fuel : Nat} {files : List (String × FileContent)} {key : String}
    {l : Loadable} (h : winner? fuel files key = some l) :
    l ∈ loadables fuel files ∧ l.guest.typeKey = key := by
  obtain ⟨hmem, hclaims⟩ := mem_of_lastWhere h
  exact ⟨hmem, beq_iff_eq.mp hclaims⟩

theorem winner?_singleton {fuel : Nat} {path : String} {content : FileContent}
    {guest : Guest.Instance} (h : Guest.load fuel path content = .ok guest) :
    winner? fuel [(path, content)] guest.typeKey = some ⟨path, content, guest⟩ := by
  simp [winner?, loadables, loadable?, h, lastWhere, Loadable.claims]

/-! ### Loading -/

def Maker.ofGuest : RuleKind → GuestId → Maker
  | .action, id => .guestAction id
  | .requirement, id => .guestRequirement id

def Maker.Uses (w : World) (guest : Guest.Instance) (maker : Maker) : Prop :=
  ∃ id, maker = .ofGuest guest.kind id ∧ w.guests[id]? = some guest

inductive Artifact.Of (fuel : Nat) (w : World) : String × FileContent → Artifact → Prop where
  | failed {path : String} {content : FileContent} {cause : ExpansionError}
      (refused : Guest.load fuel path content = .error cause) :
      Artifact.Of fuel w (path, content) ⟨path, .error cause⟩
  | loaded {path : String} {content : FileContent} {guest : Guest.Instance} {maker : Maker}
      (loads : Guest.load fuel path content = .ok guest) (uses : maker.Uses w guest) :
      Artifact.Of fuel w (path, content)
        ⟨path, .ok ⟨guest.typeKey, guest.version, guest.author, maker⟩⟩

/-- All guests of a world are in another one. -/
def World.Keeps (w w' : World) : Prop :=
  ∀ (id : GuestId) (guest : Guest.Instance),
    w.guests[id]? = some guest → w'.guests[id]? = some guest

theorem World.Keeps.trans {w w' w'' : World} (h : w.Keeps w') (h' : w'.Keeps w'') :
    w.Keeps w'' := fun id guest hg => h' id guest (h id guest hg)

/-- Loading more leads an artifact to the same. -/
theorem Artifact.Of.mono {fuel : Nat} {w w' : World} {file : String × FileContent} {a : Artifact}
    (h : Artifact.Of fuel w file a) (hw : w.Keeps w') : Artifact.Of fuel w' file a := by
  cases h with
  | failed refused => exact .failed refused
  | loaded loads uses =>
    obtain ⟨id, hmaker, hguest⟩ := uses
    exact .loaded loads ⟨id, hmaker, hw id _ hguest⟩

namespace Engine

theorem reportAll_guests (e : Engine) (notices : List Notice) :
    (e.reportAll notices).state.world.guests = e.state.world.guests :=
  World.foldl_report_guests notices _

/-- Loading an artifact leaves the registry and what was in the world alone, and tells what became
    of the artifact. -/
theorem loadArtifact_spec (e : Engine) (fuel : Nat) (path : String) (content : FileContent) :
    (e.loadArtifact fuel path content).2.registry = e.registry ∧
      e.state.world.Keeps (e.loadArtifact fuel path content).2.state.world ∧
      Artifact.Of fuel (e.loadArtifact fuel path content).2.state.world (path, content)
        (e.loadArtifact fuel path content).1 := by
  obtain ⟨ns, -, -, hin⟩ := Guest.loadIn_spec fuel path content
  have hguests : (ns.foldl World.report e.state.world).guests = e.state.world.guests :=
    World.foldl_report_guests ns _
  unfold loadArtifact
  rw [hin]
  cases hload : Guest.load fuel path content with
  | error cause =>
    refine ⟨rfl, fun id g hid => ?_, .failed hload⟩
    rw [← hguests] at hid
    exact hid
  | ok guest =>
    refine ⟨rfl, fun id g hid => ?_, .loaded hload ⟨e.state.world.guests.size, ?_, ?_⟩⟩
    · change ((ns.foldl World.report e.state.world).guests.push guest)[id]? = some g
      have hlt : id < e.state.world.guests.size := (Array.getElem?_eq_some_iff.mp hid).1
      rw [hguests, Array.getElem?_push_lt hlt]
      rw [Array.getElem?_eq_getElem hlt] at hid
      exact hid
    · rw [← hguests]
      cases guest.kind <;> rfl
    · rw [← hguests]
      exact Array.getElem?_push_size

/-- Loading artifacts leaves the registry and the guests that there were. -/
theorem loadArtifacts_spec (e : Engine) (fuel : Nat) (files : List (String × FileContent)) :
    (e.loadArtifacts fuel files).2.registry = e.registry ∧
      e.state.world.Keeps (e.loadArtifacts fuel files).2.state.world ∧
      List.Forall₂ (Artifact.Of fuel (e.loadArtifacts fuel files).2.state.world) files
        (e.loadArtifacts fuel files).1 := by
  induction files generalizing e with
  | nil => exact ⟨rfl, fun _ _ h => h, .nil⟩
  | cons file rest ih =>
    obtain ⟨hregistry, hkeeps, hof⟩ := e.loadArtifact_spec fuel file.1 file.2
    obtain ⟨hregistry', hkeeps', hall⟩ := ih (e.loadArtifact fuel file.1 file.2).2
    exact ⟨hregistry'.trans hregistry, hkeeps.trans hkeeps', .cons (hof.mono hkeeps') hall⟩

/-- Finding artifacts changes no type of rules, forgets no guest, and loads every file once. -/
theorem discover_spec (e : Engine) (tree : FileTree) (directory : String) (fuel : Nat) :
    (e.discover tree directory fuel).2.registry = e.registry ∧
      e.state.world.Keeps (e.discover tree directory fuel).2.state.world ∧
      List.Forall₂ (Artifact.Of fuel (e.discover tree directory fuel).2.state.world)
        (tree.artifacts directory) (e.discover tree directory fuel).1 := by
  unfold discover FileTree.artifacts
  cases tree.directory directory with
  | missing => exact ⟨rfl, fun _ _ h => h, .nil⟩
  | notDirectory => exact ⟨rfl, fun _ _ h => h, .nil⟩
  | listing inside => exact loadArtifacts_spec _ fuel _

end Engine

/-! ### Installing -/

structure Installed.Of (w : World) (l : Loadable) (i : Installed) : Prop where
  path_eq : i.path = l.path
  typeKey_eq : i.typeKey = l.guest.typeKey
  version_eq : i.version = l.guest.version
  author_eq : i.author = l.guest.author
  uses : i.factory.maker.Uses w l.guest

def Installed.under (key : String) (i : Installed) : Bool := i.typeKey == key

theorem Installed.Of.claims_eq {w : World} {l : Loadable} {i : Installed} (h : i.Of w l)
    (key : String) : l.claims key = i.under key := by
  simp only [Loadable.claims, Installed.under, h.typeKey_eq]

namespace Registry

@[simp] theorem lookup?_insert (r : Registry) (key other : String) (f : Factory) :
    (r.insert key f).lookup? other = if other = key then some f else r.lookup? other :=
  lookupEntry_insertEntry key other f r.factories

@[simp] theorem lookup?_erase (r : Registry) (key other : String) :
    (r.erase key).lookup? other = if other = key then none else r.lookup? other :=
  lookupEntry_eraseEntry key other r.factories

def placed (r : Registry) (d : Descriptor) : Registry :=
  (r.mint d.maker).2.insert d.typeKey ⟨r.nextId, d.maker⟩

theorem lookup?_placed (r : Registry) (d : Descriptor) (key : String) :
    (r.placed d).lookup? key =
      if key = d.typeKey then some ⟨r.nextId, d.maker⟩ else r.lookup? key :=
  lookup?_insert _ _ _ _

/-- Making a factory puts it under no key. -/
theorem mintAll_factories (r : Registry) (artifacts : List Artifact) :
    (r.mintAll artifacts).2.factories = r.factories := by
  induction artifacts generalizing r with
  | nil => rfl
  | cons a rest ih =>
    rcases a with ⟨path, cause | d⟩
    · exact ih r
    · exact ih (r.mint d.maker).2

/-- What is made does not depend on who has a key. -/
theorem mintAll_insert (r : Registry) (key : String) (f : Factory) (artifacts : List Artifact) :
    (r.insert key f).mintAll artifacts =
      ((r.mintAll artifacts).1, (r.mintAll artifacts).2.insert key f) := by
  induction artifacts generalizing r with
  | nil => rfl
  | cons a rest ih =>
    rcases a with ⟨path, cause | d⟩
    · simp only [mintAll, ih]
    · have hrest := ih (r.mint d.maker).2
      have hmint : (r.insert key f).mint d.maker =
          ((r.mint d.maker).1, (r.mint d.maker).2.insert key f) := rfl
      simp only [mintAll, hmint, hrest]

/-- A resolved artifact gets a new factory, which is put under its key before the others. -/
theorem install_ok (r : Registry) (path : String) (d : Descriptor) (rest : List Artifact) :
    (r.install (⟨path, .ok d⟩ :: rest)).1.installed =
        ⟨path, d.typeKey, d.version, d.author, ⟨r.nextId, d.maker⟩, r.lookup? d.typeKey⟩ ::
          ((r.placed d).install rest).1.installed ∧
      (r.install (⟨path, .ok d⟩ :: rest)).2.2 = ((r.placed d).install rest).2.2 := by
  have hrest : (r.placed d).mintAll rest = (((r.mint d.maker).2.mintAll rest).1,
      ((r.mint d.maker).2.mintAll rest).2.insert d.typeKey ⟨r.nextId, d.maker⟩) :=
    mintAll_insert ..
  -- the factories that are made meanwhile are under no key yet
  have hkey : ((r.mint d.maker).2.mintAll rest).2.lookup? d.typeKey = r.lookup? d.typeKey := by
    rw [lookup?, mintAll_factories]
    rfl
  rw [install, install, hrest, ← hkey]
  exact ⟨rfl, rfl⟩

/-- A failed artifact is passed over. -/
theorem install_error (r : Registry) (path : String) (cause : ExpansionError)
    (rest : List Artifact) :
    (r.install (⟨path, .error cause⟩ :: rest)).1.installed = (r.install rest).1.installed ∧
      (r.install (⟨path, .error cause⟩ :: rest)).2.2 = (r.install rest).2.2 :=
  ⟨rfl, rfl⟩

/-- What is installed is what loads, in the same order. -/
theorem install_of {fuel : Nat} {w : World} {files : List (String × FileContent)}
    {artifacts : List Artifact} (h : List.Forall₂ (Artifact.Of fuel w) files artifacts)
    (r : Registry) :
    List.Forall₂ (fun l i => Installed.Of w l i) (loadables fuel files)
      (r.install artifacts).1.installed := by
  induction h generalizing r with
  | nil => exact .nil
  | @cons file a files artifacts hof _ ih =>
    cases hof with
    | @failed path content cause refused =>
      have hnone : loadables fuel ((path, content) :: files) = loadables fuel files :=
        List.filterMap_cons_none (by simp [loadable?, refused])
      rw [hnone, (install_error r _ _ artifacts).1]
      exact ih r
    | @loaded path content guest maker loads uses =>
      have hsome : loadables fuel ((path, content) :: files) =
          ⟨path, content, guest⟩ :: loadables fuel files :=
        List.filterMap_cons_some (by simp [loadable?, loads])
      rw [hsome, (install_ok r _ _ artifacts).1]
      exact .cons ⟨rfl, rfl, rfl, rfl, uses⟩ (ih _)

/-- **Later artifacts win.**  After an installation a key has the factory that was
    installed last under it, or else the one that it had before. -/
theorem install_lookup? (artifacts : List Artifact) (r : Registry) (key : String) :
    (r.install artifacts).2.2.lookup? key =
      ((lastWhere (Installed.under key) (r.install artifacts).1.installed).map
        Installed.factory).or (r.lookup? key) := by
  induction artifacts generalizing r with
  | nil => rfl
  | cons a rest ih =>
    rcases a with ⟨path, d | d⟩
    · obtain ⟨hinstalled, hregistry⟩ := install_error r path d rest
      rw [hinstalled, hregistry]
      exact ih r
    · obtain ⟨hinstalled, hregistry⟩ := install_ok r path d rest
      rw [hinstalled, hregistry, lastWhere_cons, ih, lookup?_placed]
      generalize lastWhere (Installed.under key) ((r.placed d).install rest).1.installed = last
      cases last with
      | some i => rfl
      | none =>
        by_cases hkey : key = d.typeKey
        · simp [Installed.under, hkey]
        · simp [Installed.under, hkey, Ne.symm hkey]

/-- The first expansion that is installed under a key displaces who had it. -/
theorem install_displaced? (artifacts : List Artifact) (r : Registry) {key : String} {i : Installed}
    (h : (r.install artifacts).1.installed.find? (Installed.under key) = some i) :
    i.displaced? = r.lookup? key := by
  induction artifacts generalizing r with
  | nil => cases h
  | cons a rest ih =>
    rcases a with ⟨path, d | d⟩
    · rw [(install_error r path d rest).1] at h
      exact ih r h
    · rw [(install_ok r path d rest).1, List.find?_cons] at h
      by_cases hkey : d.typeKey = key
      · simp only [Installed.under, hkey, beq_self_eq_true, Option.some.injEq] at h
        rw [← h]
      · have hne : (d.typeKey == key) = false := beq_eq_false_iff_ne.mpr hkey
        simp only [Installed.under, hne] at h
        have hdisplaced := ih _ h
        rw [lookup?_placed, if_neg (Ne.symm hkey)] at hdisplaced
        exact hdisplaced

/-- Every installed factory is new, and its number is greater than that of those
    before it. -/
theorem install_fresh (artifacts : List Artifact) (r : Registry) :
    r.nextId ≤ (r.install artifacts).2.2.nextId ∧
      (∀ i ∈ (r.install artifacts).1.installed,
        r.nextId ≤ i.factory.id ∧ i.factory.id < (r.install artifacts).2.2.nextId) ∧
      ((r.install artifacts).1.installed.map fun i => i.factory.id).Pairwise (· < ·) := by
  induction artifacts generalizing r with
  | nil => exact ⟨Nat.le_refl _, by simp [install, mintAll, installMade], List.Pairwise.nil⟩
  | cons a rest ih =>
    rcases a with ⟨path, d | d⟩
    · obtain ⟨hinstalled, hregistry⟩ := install_error r path d rest
      rw [hinstalled, hregistry]
      exact ih r
    · obtain ⟨hinstalled, hregistry⟩ := install_ok r path d rest
      obtain ⟨hle, hbounds, hsorted⟩ := ih (r.placed d)
      have hnext : r.nextId < ((r.placed d).install rest).2.2.nextId := Nat.lt_of_succ_le hle
      rw [hinstalled, hregistry]
      refine ⟨Nat.le_of_lt hnext, fun i hi => ?_, ?_⟩
      · rcases List.mem_cons.mp hi with rfl | hi
        · exact ⟨Nat.le_refl _, hnext⟩
        · obtain ⟨hlow, hhigh⟩ := hbounds i hi
          exact ⟨Nat.le_of_succ_le hlow, hhigh⟩
      · rw [List.map_cons, List.pairwise_cons]
        refine ⟨fun id hid => ?_, hsorted⟩
        obtain ⟨i, hi, rfl⟩ := List.mem_map.mp hid
        exact Nat.lt_of_succ_le (hbounds i hi).1

end Registry

/-! ### A directory with one artifact -/

def letterModule : Guest.Module :=
  { typeKey := .present (.returns ⟨0, 1⟩), version := .present (.returns ⟨0, 1⟩),
    author := .present (.returns ⟨0, 1⟩), run := .present [], data := [(0, [0x76])] }

theorem Guest.Module.startMemory?_of_data {m : Guest.Module} {start : Nat} {bytes : List UInt8}
    (h : m.data = [(start, bytes)]) :
    m.startMemory? = (Guest.Memory.ofPages m.pages).write? start bytes := by
  unfold startMemory?
  rw [h]
  rfl

/-- A module that starts without ado works on its memory and registers from then on. -/
theorem Guest.instantiate_of_done {m : Guest.Module} {memory : Guest.Memory} (s : Guest.Store)
    (himport : m.unknownImport? = none) (hmemory : m.startMemory? = some memory)
    (htraps : m.startTraps = false) (hstart : m.start = .done ()) (w : World) :
    Guest.Loading.instantiate m ⟨s, w⟩ =
      .ok () ⟨{ s with memory, registers := m.registers }, w⟩ := by
  unfold Guest.Loading.instantiate
  rw [himport, hmemory, htraps, hstart]
  rfl

theorem Guest.load_module (fuel : Nat) (path : String) (m : Guest.Module) :
    Guest.load fuel path (.module m) = (m.loadIn {} fuel).1 := rfl

theorem startMemory?_letterModule :
    ∃ memory, letterModule.startMemory? = some memory ∧ memory.read? 0 1 = some [0x76] := by
  have hsize : 0 + [(0x76 : UInt8)].length ≤ (Guest.Memory.ofPages 1).size := by
    simp [Guest.Memory.ofPages, Guest.Memory.size, Guest.pageSize]
  have hwrite : ∃ memory, (Guest.Memory.ofPages 1).write? 0 [0x76] = some memory :=
    ⟨_, if_pos hsize⟩
  obtain ⟨memory, hwrite⟩ := hwrite
  have hpages : letterModule.pages = 1 := rfl
  refine ⟨memory, ?_, Guest.Memory.read?_write?_same hwrite⟩
  rw [Guest.Module.startMemory?_of_data (m := letterModule) rfl, hpages, hwrite]

theorem Guest.metadata_of_returns (f : Guest.Frame) (name : String) {s : Guest.Store}
    {packed : Guest.Packed} {bytes : List UInt8} {text : String}
    (hread : s.memory.read? packed.start packed.length = some bytes)
    (hdecode : Text.decodeUtf8? bytes = some text) (w : World) :
    Guest.Loading.metadata f name (.present (.returns packed)) ⟨s, w⟩ = .ok text ⟨s, w⟩ := by
  have hanswer : Guest.Loading.ofExcept (Guest.requiredExport name (.present (.returns packed)))
      ⟨s, w⟩ = .ok (.returns packed : Guest.Answer Guest.Packed) ⟨s, w⟩ := rfl
  have hpacked : Guest.Loading.answered f name (.returns packed) ⟨s, w⟩ = .ok packed ⟨s, w⟩ := rfl
  unfold Guest.Loading.metadata
  rw [Guest.bind_apply, hanswer]
  dsimp only
  rw [Guest.bind_apply, hpacked]
  dsimp only
  rw [Guest.get_bind_apply]
  simp only [hread, hdecode]
  rfl

/-- What a module describes that returns the same text for each of its metadata. -/
theorem Guest.described_of_returns {m : Guest.Module} {start memory : Guest.Memory}
    {packed : Guest.Packed} {text : String} {entry : Guest.Program} {w : World} {fuel : Nat}
    (hinstantiate : Guest.Loading.instantiate m ⟨{ memory := start, fuel }, w⟩ =
      .ok () ⟨{ memory, fuel }, w⟩)
    (htext : ∀ label name,
      Guest.Loading.metadata { label } name (.present (.returns packed)) ⟨{ memory, fuel }, w⟩ =
        .ok text ⟨{ memory, fuel }, w⟩)
    (hexports : m.exportsMemory = true) (htrim : (Text.trim text).isEmpty = false)
    (htypeKey : m.typeKey = .present (.returns packed))
    (hversion : m.version = .present (.returns packed))
    (hauthor : m.author = .present (.returns packed)) (hkind : m.kind = .absent)
    (hrun : m.run = .present entry) (halloc : m.alloc = .present .bump)
    (hvalidate : m.validate = .absent) :
    m.described fuel ⟨{ memory := start, fuel }, w⟩ =
      .ok { typeKey := text, version := text, author := text, kind := .action, entry,
            validate? := none, alloc? := some .bump, fuel, memory := .zero }
        ⟨{ memory, fuel }, w⟩ := by
  have hensure : ∀ cause (w : World),
      Guest.Loading.ensure true cause ⟨{ memory, fuel }, w⟩ = .ok () ⟨{ memory, fuel }, w⟩ :=
    fun _ _ => rfl
  unfold Guest.Module.described Guest.Loading.kindOf Guest.entryOf
  simp only [Guest.bind_apply, hinstantiate, hexports, htypeKey, hversion, hauthor, hensure,
    htext, htrim, Bool.not_false, hkind, hrun, halloc, hvalidate]
  rfl

theorem load_letterModule (fuel : Nat) (path : String) :
    ∃ guest, Guest.load fuel path (.module letterModule) = .ok guest ∧ guest.typeKey = "v" := by
  obtain ⟨memory, hstart, hread⟩ := startMemory?_letterModule
  have hdecode : Text.decodeUtf8? [0x76] = some "v" := by decide +kernel
  have hkey : (Text.trim "v").isEmpty = false := by decide +kernel
  have htext : ∀ (label name : String),
      Guest.Loading.metadata { label } name (.present (.returns ⟨0, 1⟩)) ⟨{ memory, fuel }, {}⟩ =
        .ok "v" ⟨{ memory, fuel }, {}⟩ := fun label name =>
    Guest.metadata_of_returns { label } name hread hdecode {}
  have hinstantiate :
      Guest.Loading.instantiate letterModule ⟨{ memory := .ofPages 0, fuel }, {}⟩ =
        .ok () ⟨{ memory, fuel }, {}⟩ := Guest.instantiate_of_done _ rfl hstart rfl rfl {}
  have hdescribed := Guest.described_of_returns (m := letterModule) hinstantiate htext rfl hkey rfl
    rfl rfl rfl rfl rfl rfl
  have hload := Guest.load_module fuel path letterModule
  rw [Guest.Module.loadIn_of_described hdescribed] at hload
  exact ⟨_, hload, rfl⟩

def letterTree : FileTree :=
  { entries := [(["x"], .directory), (["x", "v.wat"], .file (.module letterModule) 1)] }

def bareTree : FileTree := { entries := [(["x"], .directory)] }

theorem listing_letterTree :
    letterTree.directory "x" = .listing [("v.wat", .file (.module letterModule) 1)] := by
  have hplace : letterTree.locate? "x" = some ["x"] := by decide +kernel
  unfold FileTree.directory
  rw [hplace]
  rfl

theorem listing_bareTree : bareTree.directory "x" = .listing [] := by
  have hplace : bareTree.locate? "x" = some ["x"] := by decide +kernel
  unfold FileTree.directory
  rw [hplace]
  rfl

theorem isArtifact_letter : isArtifact "v.wat" = true := by decide +kernel

theorem joinPath_letter : joinPath "x" "v.wat" = "x/v.wat" := by decide +kernel

theorem artifacts_letterTree : letterTree.artifacts "x" = [("x/v.wat", .module letterModule)] := by
  unfold FileTree.artifacts
  rw [listing_letterTree]
  simp [artifactFiles, FileEntry.content?, FileEntry.followed?, isArtifact_letter, joinPath_letter]

theorem artifacts_bareTree : bareTree.artifacts "x" = [] := by
  unfold FileTree.artifacts
  rw [listing_bareTree]
  simp [artifactFiles]

theorem winner?_letterTree (fuel : Nat) :
    ∃ l, winner? fuel (letterTree.artifacts "x") "v" = some l ∧ l.path = "x/v.wat" := by
  obtain ⟨guest, hload, hkey⟩ := load_letterModule fuel "x/v.wat"
  refine ⟨⟨"x/v.wat", .module letterModule, guest⟩, ?_, rfl⟩
  rw [artifacts_letterTree, ← hkey]
  exact winner?_singleton hload

theorem winner?_bareTree (fuel : Nat) (key : String) :
    winner? fuel (bareTree.artifacts "x") key = none := by
  rw [artifacts_bareTree]
  rfl

end RuleEngine
