/-
  RuleEngine/Proofs/Expansion/HotReload.lean
  ==========================================
  **What a poll may overlook.**

  A host with hot reload has two memories of its directory.  Its scanner knows the
  modification times of the last scan, and its keys are those of the last reload.  A
  poll reloads if the directory differs from what the scanner knows; an explicit
  reload does not tell the scanner.

  As long as no file gets a modification time that its path had before, what is on
  disk when a scan finds no change was there at the last reload too
  (`InStep.unchanged`).  But it can be less: a file that came after the last scan, was
  reloaded explicitly and went away again is a change to neither scan.  So after a
  poll the host is in step with the directory exactly if the poll reloaded, or if
  every artifact that it owns is still there (`Hot.poll_agrees_iff`).
-/
import RuleEngine.Proofs.Expansion.Directory
import RuleEngine.Proofs.Expansion.Reload

namespace RuleEngine

/-! ### A host and its directory -/

/-- The contents that factories were loaded from, by their numbers. -/
abbrev Origins := Nat → Option FileContent

/-- The contents that factories were loaded from, after a reload of some files. -/
def InstallReport.origins (report : InstallReport) (files : List (String × FileContent))
    (before : Origins) : Origins := fun id =>
  match report.installed.find? fun i => i.factory.id == id with
  | some i => lookupEntry i.path files
  | none => before id

structure Hosting where
  host : ExpansionHost
  engine : Engine
  disk : FileTree
  /-- What the files were at some time, and what they are. -/
  past : List FileTree
  origins : Origins

namespace Hosting

def factory? (x : Hosting) (key : String) : Option Factory := x.engine.registry.lookup? key

def reload (x : Hosting) : Hosting :=
  { x with
    host := (x.host.reload x.engine x.disk).2.1
    engine := (x.host.reload x.engine x.disk).2.2
    origins := (x.host.reload x.engine x.disk).1.origins (x.disk.artifacts x.host.directory)
      x.origins }

def poll (x : Hosting) (now : Nat) : Hosting :=
  { x with
    host := (x.host.poll x.engine x.disk now).2.1
    engine := (x.host.poll x.engine x.disk now).2.2
    origins := match (x.host.poll x.engine x.disk now).1 with
      | some report => report.origins (x.disk.artifacts x.host.directory) x.origins
      | none => x.origins }

/-- The host before it loads what is on disk. -/
def opened (s : ExpansionHost.Settings) (e : Engine) (tree : FileTree) : Hosting where
  host := { directory := s.directory, fuel := s.fuel,
            scanner? := some (.create tree s.directory s.interval) }
  engine := e.report (.loadingFrom s.directory)
  disk := tree
  past := [tree]
  origins := fun _ => none

def create (s : ExpansionHost.Settings) (e : Engine) (tree : FileTree) : Hosting :=
  { (opened s e tree).reload with
    host := (ExpansionHost.create s e tree).1
    engine := (ExpansionHost.create s e tree).2 }

def edited (x : Hosting) (tree : FileTree) : Hosting :=
  { x with disk := tree, past := tree :: x.past }

/-- The files of another tree are those on disk, or have modification times that their
    paths never had. -/
def Fresh (x : Hosting) (tree : FileTree) : Prop :=
  ∀ path content modified, (path, content, modified) ∈ tree.stamped x.host.directory →
    (path, content, modified) ∈ x.disk.stamped x.host.directory ∨
      ∀ t ∈ x.past, ∀ before, (path, before, modified) ∉ t.stamped x.host.directory

/-- Two hosts provide the same: the same keys from the same artifacts, and under every
    key the very same factory or factories that were loaded from the same content. -/
structure Agrees (x y : Hosting) : Prop where
  owned : x.host.ownedByKey = y.host.ownedByKey
  factories : ∀ key, Option.Rel
    (fun f g => f = g ∨ ∃ content, x.origins f.id = some content ∧ y.origins g.id = some content)
    (x.factory? key) (y.factory? key)

end Hosting

/-- What a host with hot reload comes to, from its creation on: its directory is edited,
    it reloads and polls, and in between nothing else changes the keys. -/
inductive Hot (s : ExpansionHost.Settings) (e₀ : Engine) : Hosting → Prop where
  | created (tree : FileTree) (enabled : s.enabled = true) (hot : s.hotReload = true)
      (plain : tree.Plain s.directory) : Hot s e₀ (.create s e₀ tree)
  | edit {x : Hosting} (run : Hot s e₀ x) (tree : FileTree) (plain : tree.Plain s.directory)
      (fresh : x.Fresh tree) : Hot s e₀ (x.edited tree)
  | reload {x : Hosting} (run : Hot s e₀ x) : Hot s e₀ x.reload
  | poll {x : Hosting} (run : Hot s e₀ x) (now : Nat) : Hot s e₀ (x.poll now)
  | meanwhile {x : Hosting} (run : Hot s e₀ x) (e : Engine)
      (same : ∀ key, e.registry.lookup? key = x.factory? key) : Hot s e₀ { x with engine := e }

namespace Hosting

theorem create_eq {s : ExpansionHost.Settings} (enabled : s.enabled = true)
    (hot : s.hotReload = true) (e : Engine) (tree : FileTree) :
    create s e tree = (opened s e tree).reload := by
  unfold create ExpansionHost.create
  rw [enabled, hot]
  rfl

/-! An edit does not touch the host, and a reload keeps how it was set up. -/

@[simp] theorem edited_host (x : Hosting) (tree : FileTree) : (x.edited tree).host = x.host := rfl

@[simp] theorem edited_disk (x : Hosting) (tree : FileTree) : (x.edited tree).disk = tree := rfl

@[simp] theorem reload_directory (x : Hosting) :
    x.reload.host.directory = x.host.directory := rfl

@[simp] theorem reload_fuel (x : Hosting) : x.reload.host.fuel = x.host.fuel := rfl

@[simp] theorem reload_scanner (x : Hosting) :
    x.reload.host.scanner? = x.host.scanner? := rfl

/-! ### Reflecting a directory -/

variable {original : String → Option Factory} {tree : FileTree} {x y : Hosting}

/-- A host provides what a reload of some tree would provide. -/
structure Reflects (original : String → Option Factory) (tree : FileTree) (x : Hosting) : Prop where
  claimed : ∀ key l, winner? x.host.fuel (tree.artifacts x.host.directory) key = some l →
    lookupEntry key x.host.owned = some l.path ∧
      ∃ f, x.factory? key = some f ∧ x.origins f.id = some l.content
  unclaimed : ∀ key, winner? x.host.fuel (tree.artifacts x.host.directory) key = none →
    lookupEntry key x.host.owned = none ∧ x.factory? key = original key

/-- What is installed from a path comes from the content that was there. -/
theorem origins_of_installed {tree : FileTree} (hp : tree.Plain x.host.directory) {i : Installed}
    {l : Loadable} (hi : i ∈ (x.host.reload x.engine tree).1.installed)
    (hl : (l.path, l.content) ∈ tree.artifacts x.host.directory) (hpath : i.path = l.path)
    (before : Origins) :
    (x.host.reload x.engine tree).1.origins (tree.artifacts x.host.directory) before i.factory.id =
      some l.content := by
  have hfiles : ((tree.artifacts x.host.directory).map Prod.fst).Nodup :=
    List.pairwise_map.mpr (hp.artifacts_lt.imp fun {a b} hab => ne_of_lt hab)
  have hids : ((x.host.reload x.engine tree).1.installed.map fun i => i.factory.id).Nodup := by
    rw [ExpansionHost.reload_report]
    exact (Registry.install_fresh _ x.engine.registry).2.2.imp fun {a b} hab => ne_of_lt hab
  have hfound : (x.host.reload x.engine tree).1.installed.find?
      (fun j => j.factory.id == i.factory.id) = some i := by
    cases hfind : (x.host.reload x.engine tree).1.installed.find?
        (fun j => j.factory.id == i.factory.id) with
    | none => exact absurd (beq_self_eq_true _) (List.find?_eq_none.mp hfind i hi)
    | some j =>
      have hid := List.find?_some hfind
      rw [beq_iff_eq] at hid
      have hmem := List.mem_of_find?_eq_some hfind
      exact congrArg some (List.inj_on_of_nodup_map hids hmem hi hid)
  unfold InstallReport.origins
  rw [hfound]
  dsimp only
  rw [hpath]
  exact lookupEntry_of_mem hfiles hl

/-- **After a reload the host provides what is on disk.** -/
theorem reload_reflects (hk : ExpansionHost.Keeps original x.host x.engine.registry)
    (hp : x.disk.Plain x.host.directory) : Reflects original x.disk x.reload where
  claimed key l hl := by
    obtain ⟨i, hi, hof, -, hlookup, howned⟩ := hk.reload_winner x.disk hl
    obtain ⟨hmem, -⟩ := winner?_eq_some hl
    obtain ⟨hfile, -⟩ := mem_loadables.mp hmem
    exact ⟨howned, i.factory, hlookup, origins_of_installed hp hi hfile hof.path_eq x.origins⟩
  unclaimed key hl := (hk.reload_unclaimed x.disk hl).symm

/-- Two hosts that reflect the same tree provide the same. -/
theorem Reflects.agrees (hx : Reflects original tree x) (hy : Reflects original tree y)
    (hdirectory : x.host.directory = y.host.directory) (hfuel : x.host.fuel = y.host.fuel)
    (hx' : (x.host.owned.map Prod.fst).Nodup) (hy' : (y.host.owned.map Prod.fst).Nodup) :
    Agrees x y := by
  have hsame : ∀ key, lookupEntry key x.host.owned = lookupEntry key y.host.owned := by
    intro key
    cases hl : winner? x.host.fuel (tree.artifacts x.host.directory) key with
    | some l =>
      rw [(hx.claimed key l hl).1]
      rw [hdirectory, hfuel] at hl
      rw [(hy.claimed key l hl).1]
    | none =>
      rw [(hx.unclaimed key hl).1]
      rw [hdirectory, hfuel] at hl
      rw [(hy.unclaimed key hl).1]
  constructor
  · obtain ⟨hsorted, hmem⟩ := ExpansionHost.ownedByKey_spec hx'
    obtain ⟨hsorted', hmem'⟩ := ExpansionHost.ownedByKey_spec hy'
    have hirrefl : Std.Irrefl fun a b : String × String => a.1 < b.1 := ⟨fun a => lt_irrefl a.1⟩
    have hantisymm : Std.Antisymm fun a b : String × String => a.1 < b.1 :=
      ⟨fun a b hab hba => absurd hab (lt_asymm hba)⟩
    refine hsorted.eq_of_mem_iff hsorted' fun o => ?_
    rw [hmem, hmem', hsame]
  · intro key
    cases hl : winner? x.host.fuel (tree.artifacts x.host.directory) key with
    | some l =>
      obtain ⟨-, f, hf, horigin⟩ := hx.claimed key l hl
      rw [hdirectory, hfuel] at hl
      obtain ⟨-, g, hg, horigin'⟩ := hy.claimed key l hl
      rw [hf, hg]
      exact .some (Or.inr ⟨l.content, horigin, horigin'⟩)
    | none =>
      rw [(hx.unclaimed key hl).2]
      rw [hdirectory, hfuel] at hl
      rw [(hy.unclaimed key hl).2]
      cases original key with
      | none => exact .none
      | some f => exact .some (Or.inl rfl)

theorem Reflects.path_mem (hx : Reflects original tree x)
    (hnodup : (x.host.owned.map Prod.fst).Nodup) {o : String × String}
    (ho : o ∈ x.host.ownedByKey) : o.2 ∈ (tree.artifacts x.host.directory).map Prod.fst := by
  have howned := ((ExpansionHost.ownedByKey_spec hnodup).2 o.1 o.2).mp ho
  cases hl : winner? x.host.fuel (tree.artifacts x.host.directory) o.1 with
  | none =>
    rw [(hx.unclaimed o.1 hl).1] at howned
    cases howned
  | some l =>
    have hpath := howned.symm.trans (hx.claimed o.1 l hl).1
    obtain ⟨hmem, -⟩ := winner?_eq_some hl
    obtain ⟨hfile, -⟩ := mem_loadables.mp hmem
    rw [Option.some.inj hpath]
    exact List.mem_map.mpr ⟨_, hfile, rfl⟩

/-- A host that reflects a tree reflects every smaller one that has all that it owns. -/
theorem Reflects.of_subset {tree' : FileTree} (hx : Reflects original tree x)
    (hp : tree.Plain x.host.directory) (hp' : tree'.Plain x.host.directory)
    (hsub : ∀ file ∈ tree'.artifacts x.host.directory, file ∈ tree.artifacts x.host.directory)
    (hkept : ∀ o ∈ x.host.ownedByKey, o.2 ∈ (tree'.artifacts x.host.directory).map Prod.fst)
    (hnodup : (x.host.owned.map Prod.fst).Nodup) : Reflects original tree' x := by
  have hwinner : ∀ key, winner? x.host.fuel (tree'.artifacts x.host.directory) key =
      winner? x.host.fuel (tree.artifacts x.host.directory) key := by
    intro key
    refine winner?_of_subset hp.artifacts_lt hp'.artifacts_lt hsub fun l hl => ?_
    have howned := (hx.claimed key l hl).1
    exact hkept (key, l.path) (((ExpansionHost.ownedByKey_spec hnodup).2 key l.path).mpr howned)
  exact ⟨fun key l hl => hx.claimed key l ((hwinner key).symm.trans hl),
    fun key hl => hx.unclaimed key ((hwinner key).symm.trans hl)⟩

/-! ### What a poll does -/

def changes (x : Hosting) (scanner : Scanner) : ArtifactChanges :=
  changesBetween scanner.known (snapshot x.disk scanner.directory)

def scanned (x : Hosting) (scanner : Scanner) (now : Nat) (notices : List Notice) : Hosting :=
  { x with
    host := { x.host with scanner? := some { scanner with
      lastScan? := some now, known := snapshot x.disk scanner.directory } }
    engine := x.engine.reportAll notices }

@[simp] theorem scanned_ownedByKey (x : Hosting) (scanner : Scanner) (now : Nat)
    (notices : List Notice) :
    (x.scanned scanner now notices).host.ownedByKey = x.host.ownedByKey := rfl

theorem poll_idle {scanner : Scanner} (hscanner : x.host.scanner? = some scanner) {now : Nat}
    (hdue : scanner.isDue now = false) : x.poll now = x := by
  simp only [poll, ExpansionHost.poll, hscanner, hdue, Bool.false_eq_true, if_false]

/-- A scan that finds no change changes nothing but the scanner. -/
theorem poll_unchanged {scanner : Scanner} (hscanner : x.host.scanner? = some scanner) {now : Nat}
    (hdue : scanner.isDue now = true) (hnone : (x.changes scanner).any = false) :
    (x.host.poll x.engine x.disk now).1 = none ∧ ∃ notices,
      x.poll now = x.scanned scanner now notices := by
  have hnone' : (scanner.scan x.disk now).1.any = false := hnone
  simp only [poll, ExpansionHost.poll, hscanner, hdue, hnone', Bool.false_eq_true, if_true,
    if_false]
  exact ⟨trivial, _, rfl⟩

theorem poll_changed {scanner : Scanner} (hscanner : x.host.scanner? = some scanner) {now : Nat}
    (hdue : scanner.isDue now = true) (hsome : (x.changes scanner).any = true) :
    (x.host.poll x.engine x.disk now).1.isSome = true ∧ ∃ notices,
      x.poll now = (x.scanned scanner now notices).reload := by
  have hsome' : (scanner.scan x.disk now).1.any = true := hsome
  simp only [poll, ExpansionHost.poll, hscanner, hdue, hsome', if_true]
  refine ⟨rfl, scanner.notices (scanner.scan x.disk now).1 ++
    [.artifactsChanged x.host.directory], ?_⟩
  simp only [reload, scanned, Engine.reportAll, Engine.report, List.foldl_append]
  rfl

theorem mem_known_of_unchanged {scanner : Scanner} (hnone : (x.changes scanner).any = false)
    {path : String} {modified : Nat}
    (hmem : (path, modified) ∈ snapshot x.disk scanner.directory) :
    (path, modified) ∈ scanner.known := by
  simp only [ArtifactChanges.any, changes, changesBetween, Bool.not_eq_false', Bool.and_eq_true,
    List.isEmpty_iff, List.map_eq_nil_iff, List.filter_eq_nil_iff] at hnone
  obtain ⟨⟨hadded, hmodified⟩, -⟩ := hnone
  cases hlookup : lookupEntry path scanner.known with
  | none => exact absurd (by rw [hlookup]; rfl) (hadded _ hmem)
  | some before =>
    have hsame := hmodified _ hmem
    simp only [hlookup, bne_iff_ne, ne_eq, not_not] at hsame
    exact hsame ▸ mem_of_lookupEntry hlookup

/-! ### The two memories -/

/-- What is known of a host, its scanner included. -/
structure Sound (s : ExpansionHost.Settings) (e₀ : Engine) (x : Hosting) : Prop where
  directory : x.host.directory = s.directory
  keeps : ExpansionHost.Keeps e₀.registry.lookup? x.host x.engine.registry
  disk : x.disk ∈ x.past
  plain : ∀ t ∈ x.past, t.Plain s.directory
  scanner : ∃ scanner, x.host.scanner? = some scanner ∧ scanner.directory = s.directory ∧
    ∃ t ∈ x.past, scanner.known = snapshot t s.directory

/-- A host reflects what its directory once was, and everything on disk that its scanner
    knows was there then. -/
structure InStep (s : ExpansionHost.Settings) (e₀ : Engine) (x : Hosting) : Prop
    extends Sound s e₀ x where
  loaded : ∃ t ∈ x.past, Reflects e₀.registry.lookup? t x ∧
    ∀ scanner, x.host.scanner? = some scanner → ∀ path content modified,
      (path, content, modified) ∈ x.disk.stamped s.directory → (path, modified) ∈ scanner.known →
        (path, content, modified) ∈ t.stamped s.directory

section Memories

variable {s : ExpansionHost.Settings} {e₀ : Engine}

theorem Sound.disk_plain (hx : Sound s e₀ x) : x.disk.Plain x.host.directory :=
  hx.directory ▸ hx.plain x.disk hx.disk

/-- A scan alone, with its reports, keeps a host sound. -/
theorem Sound.scanned (hx : Sound s e₀ x) {scanner : Scanner}
    (hscanner : x.host.scanner? = some scanner) (now : Nat) (notices : List Notice) :
    Sound s e₀ (x.scanned scanner now notices) where
  directory := hx.directory
  keeps := ⟨hx.keeps.nodup, hx.keeps.taken, hx.keeps.free⟩
  disk := hx.disk
  plain := hx.plain
  scanner := by
    obtain ⟨scanner', hscanner', hdirectory, -⟩ := hx.scanner
    obtain rfl := Option.some.inj (hscanner.symm.trans hscanner')
    exact ⟨_, rfl, hdirectory, x.disk, hx.disk, by rw [hdirectory]⟩

theorem Sound.reflects (hx : Sound s e₀ x) : Reflects e₀.registry.lookup? x.disk x.reload :=
  reload_reflects hx.keeps hx.disk_plain

/-- A reload brings a host in step with its directory. -/
theorem Sound.reload (hx : Sound s e₀ x) : InStep s e₀ x.reload where
  directory := hx.directory
  keeps := hx.keeps.reload x.disk
  disk := hx.disk
  plain := hx.plain
  scanner := hx.scanner
  loaded := ⟨x.disk, hx.disk, hx.reflects, fun _ _ _ _ _ hfile _ => hfile⟩

/-- **What a scan without changes leaves unsaid.**  Every artifact on disk was there at
    the last reload. -/
theorem InStep.unchanged (hx : InStep s e₀ x) {scanner : Scanner}
    (hscanner : x.host.scanner? = some scanner) (hnone : (x.changes scanner).any = false) :
    ∃ t ∈ x.past, Reflects e₀.registry.lookup? t x ∧
      ∀ path content modified, (path, content, modified) ∈ x.disk.stamped s.directory →
        (path, content, modified) ∈ t.stamped s.directory := by
  obtain ⟨scanner', hscanner', hdirectory, -⟩ := hx.scanner
  obtain rfl := Option.some.inj (hscanner.symm.trans hscanner')
  obtain ⟨t, ht, hreflects, hknown⟩ := hx.loaded
  refine ⟨t, ht, hreflects, fun path content modified hfile => ?_⟩
  refine hknown scanner hscanner path content modified hfile (mem_known_of_unchanged hnone ?_)
  rw [snapshot_eq, hdirectory]
  exact List.mem_map.mpr ⟨_, hfile, rfl⟩

/-- A host that a scan without changes leaves with nothing that went away is in step. -/
theorem InStep.reflects_of_kept (hx : InStep s e₀ x) {scanner : Scanner}
    (hscanner : x.host.scanner? = some scanner) (hnone : (x.changes scanner).any = false)
    (hkept : ∀ o ∈ x.host.ownedByKey, o.2 ∈ (x.disk.artifacts s.directory).map Prod.fst) :
    Reflects e₀.registry.lookup? x.disk x := by
  obtain ⟨t, ht, hreflects, hfiles⟩ := hx.unchanged hscanner hnone
  have hplain : t.Plain x.host.directory := hx.directory ▸ hx.plain t ht
  rw [← hx.directory] at hkept hfiles
  refine hreflects.of_subset hplain hx.disk_plain (fun file hfile => ?_) hkept hx.keeps.nodup
  rw [hx.disk_plain.artifacts_eq] at hfile
  obtain ⟨e, he, rfl⟩ := List.mem_map.mp hfile
  rw [hplain.artifacts_eq]
  exact List.mem_map.mpr ⟨e, hfiles e.1 e.2.1 e.2.2 he, rfl⟩

theorem InStep.poll (hx : InStep s e₀ x) (now : Nat) : InStep s e₀ (x.poll now) := by
  obtain ⟨scanner, hscanner, -⟩ := hx.scanner
  cases hdue : scanner.isDue now with
  | false =>
    rw [poll_idle hscanner hdue]
    exact hx
  | true =>
    cases hany : (x.changes scanner).any with
    | true =>
      obtain ⟨-, notices, hpoll⟩ := poll_changed hscanner hdue hany
      rw [hpoll]
      exact (hx.toSound.scanned hscanner now notices).reload
    | false =>
      obtain ⟨-, notices, hpoll⟩ := poll_unchanged hscanner hdue hany
      obtain ⟨t, ht, hreflects, hfiles⟩ := hx.unchanged hscanner hany
      rw [hpoll]
      refine ⟨hx.toSound.scanned hscanner now notices, t, ht,
        ⟨hreflects.claimed, hreflects.unclaimed⟩, fun _ _ path content modified hfile _ => ?_⟩
      exact hfiles path content modified hfile

/-- Editing the directory keeps a host in step, if what is written is new to it. -/
theorem InStep.edit (hx : InStep s e₀ x) {tree : FileTree} (plain : tree.Plain s.directory)
    (fresh : x.Fresh tree) : InStep s e₀ (x.edited tree) := by
  obtain ⟨scanner, hscanner, hdirectory, t, ht, hknown⟩ := hx.scanner
  obtain ⟨loaded, hloaded, hreflects, hfiles⟩ := hx.loaded
  refine ⟨⟨hx.directory, hx.keeps, List.mem_cons_self, fun t' ht' => ?_, ?_⟩,
    loaded, List.mem_cons_of_mem _ hloaded, ⟨hreflects.claimed, hreflects.unclaimed⟩, ?_⟩
  · rcases List.mem_cons.mp ht' with rfl | ht'
    · exact plain
    · exact hx.plain t' ht'
  · exact ⟨scanner, hscanner, hdirectory, t, List.mem_cons_of_mem _ ht, hknown⟩
  · intro scanner' hscanner' path content modified hfile hmem
    obtain rfl := Option.some.inj (hscanner.symm.trans hscanner')
    have hfresh := fresh path content modified
    rw [hx.directory] at hfresh
    rcases hfresh hfile with hsame | hnew
    · exact hfiles scanner hscanner path content modified hsame hmem
    · -- the scanner knows no modification time that the path never had
      rw [hknown, snapshot_eq] at hmem
      obtain ⟨⟨path', before, modified'⟩, hbefore, heq⟩ := List.mem_map.mp hmem
      obtain ⟨rfl, rfl⟩ := Prod.mk.inj heq
      exact absurd hbefore (hnew t ht before)

/-- So does whatever else happens to the engine, as long as its types are left alone. -/
theorem InStep.meanwhile (hx : InStep s e₀ x) {e : Engine}
    (same : ∀ key, e.registry.lookup? key = x.factory? key) :
    InStep s e₀ { x with engine := e } := by
  obtain ⟨loaded, hloaded, hreflects, hfiles⟩ := hx.loaded
  refine ⟨⟨hx.directory, ⟨hx.keeps.nodup, hx.keeps.taken, fun key hfree => ?_⟩, hx.disk, hx.plain,
    hx.scanner⟩, loaded, hloaded, ⟨fun key l hl => ?_, fun key hl => ?_⟩, hfiles⟩
  · obtain ⟨hnone, hsame⟩ := hx.keeps.free key hfree
    exact ⟨hnone, (same key).trans hsame⟩
  · obtain ⟨howned, f, hf, horigin⟩ := hreflects.claimed key l hl
    exact ⟨howned, f, (same key).trans hf, horigin⟩
  · obtain ⟨howned, hf⟩ := hreflects.unclaimed key hl
    exact ⟨howned, (same key).trans hf⟩

theorem sound_opened (e₀ : Engine) {tree : FileTree} (plain : tree.Plain s.directory) :
    Sound s e₀ (opened s e₀ tree) where
  directory := rfl
  keeps := ⟨List.nodup_nil, fun key htaken => absurd rfl htaken, fun key _ => ⟨rfl, rfl⟩⟩
  disk := List.mem_singleton.mpr rfl
  plain := by
    intro t ht
    rw [List.mem_singleton.mp ht]
    exact plain
  scanner := ⟨_, rfl, rfl, tree, List.mem_singleton.mpr rfl, rfl⟩

end Memories

end Hosting

/-- A host that polls from its creation on is always in step. -/
theorem Hot.inStep {s : ExpansionHost.Settings} {e₀ : Engine} {x : Hosting} (run : Hot s e₀ x) :
    x.InStep s e₀ := by
  induction run with
  | created tree enabled hot plain =>
    rw [Hosting.create_eq enabled hot]
    exact (Hosting.sound_opened e₀ plain).reload
  | edit run tree plain fresh ih => exact ih.edit plain fresh
  | reload run ih => exact ih.toSound.reload
  | poll run now ih => exact ih.poll now
  | meanwhile run e same ih => exact ih.meanwhile same

/-- **When a poll leaves a host in step with its directory.**  After a poll whose scan was
    due, a reload would provide what the host provides already if and only if the poll
    reloaded, or every artifact that the host owns is still in the directory. -/
theorem Hot.poll_agrees_iff {s : ExpansionHost.Settings} {e₀ : Engine} {x : Hosting}
    (run : Hot s e₀ x) {scanner : Scanner} (hscanner : x.host.scanner? = some scanner) {now : Nat}
    (due : scanner.isDue now = true) :
    Hosting.Agrees (x.poll now) (x.poll now).reload ↔
      (x.host.poll x.engine x.disk now).1.isSome = true ∨
        ∀ o ∈ (x.poll now).host.ownedByKey, o.2 ∈ (x.disk.artifacts s.directory).map Prod.fst := by
  have hx := run.inStep
  have hpolled := (hx.poll now).toSound
  have hagrees : Hosting.Reflects e₀.registry.lookup? x.disk (x.poll now) →
      Hosting.Agrees (x.poll now) (x.poll now).reload := fun hreflects =>
    hreflects.agrees hpolled.reflects rfl rfl hpolled.keeps.nodup hpolled.reload.keeps.nodup
  cases hany : (x.changes scanner).any with
  | true =>
    obtain ⟨hsome, notices, hpoll⟩ := Hosting.poll_changed hscanner due hany
    refine iff_of_true (hagrees ?_) (Or.inl hsome)
    rw [hpoll]
    exact (hx.toSound.scanned hscanner now notices).reflects
  | false =>
    obtain ⟨hnone, notices, hpoll⟩ := Hosting.poll_unchanged hscanner due hany
    rw [hnone]
    constructor
    · intro hsame
      refine Or.inr fun o ho => ?_
      rw [hsame.owned] at ho
      have hmem := hpolled.reflects.path_mem hpolled.reload.keeps.nodup ho
      rwa [hpolled.reload.directory] at hmem
    · rintro (hsome | hkept)
      · cases hsome
      · rw [hpoll, Hosting.scanned_ownedByKey] at hkept
        have hreflects := hx.reflects_of_kept hscanner hany hkept
        refine hagrees ?_
        rw [hpoll]
        exact ⟨hreflects.claimed, hreflects.unclaimed⟩

/-! ### A file that came and went -/

def letterSettings : ExpansionHost.Settings :=
  { enabled := true, directory := "x", hotReload := true, interval := 0, fuel := 0 }

/-- A host that found the directory empty, before it reloaded the file. -/
def beforeLetter : Hosting :=
  (Hosting.create letterSettings ExpansionHost.letterEngine bareTree).edited letterTree

/-- The host after that, when the file is gone again. -/
def afterLetter : Hosting := beforeLetter.reload.edited bareTree

theorem hot_beforeLetter : Hot letterSettings ExpansionHost.letterEngine beforeLetter := by
  have created : Hot letterSettings ExpansionHost.letterEngine _ :=
    .created bareTree rfl rfl plain_bareTree
  refine created.edit letterTree plain_letterTree fun path content modified _ => Or.inr ?_
  intro t ht before hmem
  have hdirectory := created.inStep.directory
  have ht' : t = bareTree := List.mem_singleton.mp ht
  rw [ht', hdirectory] at hmem
  change (path, before, modified) ∈ bareTree.stamped "x" at hmem
  rw [stamped_bareTree] at hmem
  cases hmem

theorem hot_afterLetter : Hot letterSettings ExpansionHost.letterEngine afterLetter := by
  have reloaded := hot_beforeLetter.reload
  refine reloaded.edit bareTree plain_bareTree fun path content modified hfile => ?_
  have hdirectory : beforeLetter.reload.host.directory = "x" := reloaded.inStep.directory
  rw [hdirectory, stamped_bareTree] at hfile
  cases hfile

theorem host_beforeLetter : beforeLetter.host.fuel = 0 ∧ beforeLetter.host.directory = "x" ∧
    beforeLetter.host.scanner? = some (.create bareTree "x" 0) := by
  unfold beforeLetter
  rw [Hosting.edited_host, Hosting.create_eq rfl rfl, Hosting.reload_fuel,
    Hosting.reload_directory, Hosting.reload_scanner]
  exact ⟨rfl, rfl, rfl⟩

theorem owned_beforeLetter : ("v", "x/v.wat") ∈ beforeLetter.reload.host.ownedByKey := by
  have hbefore := hot_beforeLetter.inStep.toSound
  obtain ⟨hfuel, hdirectory, -⟩ := host_beforeLetter
  obtain ⟨l, hl, hpath⟩ := winner?_letterTree 0
  have hclaimed := hbefore.reflects.claimed "v" l
  rw [Hosting.reload_fuel, Hosting.reload_directory, hfuel, hdirectory] at hclaimed
  obtain ⟨howned, -⟩ := hclaimed hl
  rw [hpath] at howned
  exact ((ExpansionHost.ownedByKey_spec hbefore.reload.keeps.nodup).2 "v" "x/v.wat").mpr howned

/-- The next poll does not see that the file is gone, and leaves its key installed. -/
theorem poll_agrees_iff_afterLetter :
    Hot letterSettings ExpansionHost.letterEngine afterLetter ∧ ∃ scanner,
      afterLetter.host.scanner? = some scanner ∧ scanner.isDue 0 = true ∧
      (afterLetter.host.poll afterLetter.engine afterLetter.disk 0).1 = none ∧
      ¬ Hosting.Agrees (afterLetter.poll 0) (afterLetter.poll 0).reload := by
  have hhost : afterLetter.host = beforeLetter.reload.host := Hosting.edited_host _ _
  have hdisk : afterLetter.disk = bareTree := Hosting.edited_disk _ _
  have hscanner : afterLetter.host.scanner? = some (.create bareTree "x" 0) := by
    rw [hhost, Hosting.reload_scanner, host_beforeLetter.2.2]
  have hdue : (Scanner.create bareTree "x" 0).isDue 0 = true := rfl
  have hquiet : (afterLetter.changes (.create bareTree "x" 0)).any = false := by
    unfold Hosting.changes Scanner.create
    rw [hdisk, snapshot_bareTree]
    rfl
  obtain ⟨hnone, notices, hpoll⟩ := Hosting.poll_unchanged hscanner hdue hquiet
  refine ⟨hot_afterLetter, _, hscanner, hdue, hnone, fun hagrees => ?_⟩
  have hkept := (Hot.poll_agrees_iff hot_afterLetter hscanner hdue).mp hagrees
  rw [hnone, hpoll, Hosting.scanned_ownedByKey, hhost, hdisk] at hkept
  rcases hkept with hsome | hkept
  · cases hsome
  · have hgone := hkept _ owned_beforeLetter
    have hempty : bareTree.artifacts letterSettings.directory = [] := artifacts_bareTree
    rw [hempty] at hgone
    cases hgone

end RuleEngine
