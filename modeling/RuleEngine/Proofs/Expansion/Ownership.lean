/-
  RuleEngine/Proofs/Expansion/Ownership.lean
  ==========================================
  **Who owns a key after an installation.**

  An installation makes the factory of every artifact that was resolved
  (`Registry.mintAll`) and installs what is made, whichever factories that are
  (`Registry.installMade`).  On the registry the second is a sequence of changes
  (`Registry.installMade_registry`), of which the failed artifacts have none.  What an
  installation has to do is written down in `Registry.Installs`;
  `Engine.install_settles_ownership` says that it does so.
-/
import RuleEngine.Proofs.Expansion.Install

namespace RuleEngine

/-! ### Artifacts whose factories are made -/

namespace Discovered

def resolved? : Discovered → Option (String × Offer)
  | ⟨path, .ok offer⟩ => some (path, offer)
  | ⟨_, .error _⟩ => none

def failed? : Discovered → Option (String × ExpansionError)
  | ⟨_, .ok _⟩ => none
  | ⟨path, .error cause⟩ => some (path, cause)

/-- The keys that are claimed, each with the factory of the artifact that claims it. -/
def claimed (ds : List Discovered) : List (String × Factory) :=
  (ds.filterMap resolved?).map fun d => (d.2.typeKey, d.2.factory)

theorem mem_claimed {key : String} {factory : Factory} {ds : List Discovered} :
    (key, factory) ∈ claimed ds ↔
      ∃ path offer, ⟨path, .ok offer⟩ ∈ ds ∧ offer.typeKey = key ∧ offer.factory = factory := by
  simp only [claimed, List.mem_map, List.mem_filterMap, Prod.mk.injEq]
  constructor
  · rintro ⟨⟨path, offer⟩, ⟨⟨path', cause | offer'⟩, hmem, hresolved⟩, hkey, hfactory⟩
    · cases hresolved
    · cases hresolved
      exact ⟨path, offer, hmem, hkey, hfactory⟩
  · rintro ⟨path, offer, hmem, hkey, hfactory⟩
    exact ⟨(path, offer), ⟨_, hmem, rfl⟩, hkey, hfactory⟩

def onlyResolved (ds : List Discovered) : List Discovered := ds.filter fun d => d.resolved?.isSome

theorem claimed_onlyResolved (ds : List Discovered) : claimed (onlyResolved ds) = claimed ds := by
  have hsame : ∀ d : Discovered,
      (if d.resolved?.isSome then d.resolved? else none) = d.resolved? := by
    intro d
    cases d.resolved? <;> rfl
  unfold claimed onlyResolved
  simp only [List.filterMap_filter, hsame]

/-- Every artifact is resolved or failed, and none is both. -/
theorem length_resolved_add_failed (ds : List Discovered) :
    (ds.filterMap resolved?).length + (ds.filterMap failed?).length = ds.length := by
  induction ds with
  | nil => rfl
  | cons d rest ih =>
    rcases d with ⟨path, cause | offer⟩
    · simp only [List.filterMap_cons, resolved?, failed?, List.length_cons]
      omega
    · simp only [List.filterMap_cons, resolved?, failed?, List.length_cons]
      omega

end Discovered

/-- A discovered artifact is what was loaded, with a factory of its own. -/
inductive Artifact.MadeTo : Artifact → Discovered → Prop where
  | failed (path : String) (cause : ExpansionError) :
      Artifact.MadeTo ⟨path, .error cause⟩ ⟨path, .error cause⟩
  | resolved (path : String) (d : Descriptor) (id : Nat) :
      Artifact.MadeTo ⟨path, .ok d⟩ ⟨path, .ok ⟨d.typeKey, d.version, d.author, ⟨id, d.maker⟩⟩⟩

/-- The key that an artifact claims, and what makes its rules. -/
def Artifact.claim? : Artifact → Option (String × Maker)
  | ⟨_, .ok d⟩ => some (d.typeKey, d.maker)
  | ⟨_, .error _⟩ => none

def Installed.source (i : Installed) : String × Offer :=
  (i.path, ⟨i.typeKey, i.version, i.author, i.factory⟩)

namespace Registry

/-! ### Installing what is made -/

variable (r : Registry)

/-- The registry is changed at the keys that are claimed, in the order of the claims. -/
theorem installMade_registry (ds : List Discovered) :
    (r.installMade ds).2.2 =
      { r with factories := insertAll r.factories (Discovered.claimed ds) } := by
  induction ds generalizing r with
  | nil => rfl
  | cons d rest ih =>
    rcases d with ⟨path, cause | offer⟩
    · exact ih r
    · exact ih (r.insert offer.typeKey offer.factory)

/-- What is installed are the resolved artifacts, in order. -/
theorem installMade_installed (ds : List Discovered) :
    (r.installMade ds).1.installed.map Installed.source = ds.filterMap Discovered.resolved? := by
  induction ds generalizing r with
  | nil => rfl
  | cons d rest ih =>
    rcases d with ⟨path, cause | offer⟩
    · exact ih r
    · exact congrArg ((path, offer) :: ·) (ih (r.insert offer.typeKey offer.factory))

theorem installMade_failed (ds : List Discovered) :
    (r.installMade ds).1.failed = ds.filterMap Discovered.failed? := by
  induction ds generalizing r with
  | nil => rfl
  | cons d rest ih =>
    rcases d with ⟨path, cause | offer⟩
    · exact congrArg ((path, cause) :: ·) (ih r)
    · exact ih (r.insert offer.typeKey offer.factory)

/-- An installation goes on from where another one stopped. -/
theorem installMade_append (before after : List Discovered) :
    (r.installMade (before ++ after)).2.2 =
        ((r.installMade before).2.2.installMade after).2.2 ∧
      (r.installMade (before ++ after)).1.installed =
        (r.installMade before).1.installed ++
          ((r.installMade before).2.2.installMade after).1.installed := by
  induction before generalizing r with
  | nil => exact ⟨rfl, rfl⟩
  | cons d rest ih =>
    rcases d with ⟨path, cause | offer⟩
    · exact ih r
    · obtain ⟨hregistry, hinstalled⟩ := ih (r.insert offer.typeKey offer.factory)
      exact ⟨hregistry, congrArg (_ :: ·) hinstalled⟩

/-- A key that no resolved artifact names keeps its factory. -/
theorem lookup?_installMade_of_unnamed {ds : List Discovered} {key : String}
    (h : ∀ path offer, ⟨path, .ok offer⟩ ∈ ds → offer.typeKey ≠ key) :
    (r.installMade ds).2.2.lookup? key = r.lookup? key := by
  have hlast : lastWhere (fun e => e.1 == key) (Discovered.claimed ds) = none := by
    rw [lastWhere_eq_none]
    rintro ⟨other, factory⟩ hclaimed hother
    obtain ⟨path, offer, hmem, hkey, -⟩ := Discovered.mem_claimed.mp hclaimed
    exact h path offer hmem (hkey.trans (beq_iff_eq.mp hother))
  rw [installMade_registry, lookup?, lookupEntry_insertAll, hlast]
  rfl

/-! ### What an installation has to do -/

/-- The installation of artifacts into a registry: its report, and the registry it leaves. -/
structure Installs (ds : List Discovered) (report : InstallReport) (r' : Registry) : Prop where
  /-- Failed artifacts have no effect, wherever they stand. -/
  resolved_only : r' = (r.installMade (Discovered.onlyResolved ds)).2.2
  /-- The last resolved artifact that names a key owns it. -/
  owner : ∀ before path offer after, ds = before ++ ⟨path, .ok offer⟩ :: after →
    (∀ path' offer', ⟨path', .ok offer'⟩ ∈ after → offer'.typeKey ≠ offer.typeKey) →
    r'.lookup? offer.typeKey = some offer.factory
  /-- Every other key is untouched. -/
  untouched : ∀ key, (∀ path offer, ⟨path, .ok offer⟩ ∈ ds → offer.typeKey ≠ key) →
    r'.lookup? key = r.lookup? key
  /-- The resolved artifacts are installed, in order. -/
  installed : report.installed.map Installed.source = ds.filterMap Discovered.resolved?
  /-- The others failed, in order. -/
  failed : report.failed = ds.filterMap Discovered.failed?
  /-- None is lost and none repeated. -/
  counted : report.installed.length + report.failed.length = ds.length
  /-- Who is displaced is who had the key when the artifacts before were installed. -/
  displaced : ∀ before path offer after, ds = before ++ ⟨path, .ok offer⟩ :: after →
    report.installed[(before.filterMap Discovered.resolved?).length]? =
      some ⟨path, offer.typeKey, offer.version, offer.author, offer.factory,
        (r.installMade before).2.2.lookup? offer.typeKey⟩
  /-- A second installation changes nothing. -/
  again : (r'.installMade ds).2.2 = r'

/-- The last one to offer a type owns it. -/
theorem installMade_owner (before : List Discovered) (path : String) (offer : Offer)
    (after : List Discovered)
    (hlast : ∀ path' offer', ⟨path', .ok offer'⟩ ∈ after → offer'.typeKey ≠ offer.typeKey) :
    (r.installMade (before ++ ⟨path, .ok offer⟩ :: after)).2.2.lookup? offer.typeKey =
      some offer.factory := by
  rw [(r.installMade_append before _).1]
  have hafter := lookup?_installMade_of_unnamed
    ((r.installMade before).2.2.insert offer.typeKey offer.factory) hlast
  rw [lookup?_insert, if_pos rfl] at hafter
  exact hafter

/-- Each entry of the report names the factory that its own offer took the place of. -/
theorem installMade_displaced (before : List Discovered) (path : String) (offer : Offer)
    (after : List Discovered) :
    (r.installMade (before ++ ⟨path, .ok offer⟩ :: after)).1.installed[
        (before.filterMap Discovered.resolved?).length]? =
      some ⟨path, offer.typeKey, offer.version, offer.author, offer.factory,
        (r.installMade before).2.2.lookup? offer.typeKey⟩ := by
  have hlength : (before.filterMap Discovered.resolved?).length =
      (r.installMade before).1.installed.length := by
    rw [← r.installMade_installed before, List.length_map]
  rw [(r.installMade_append before _).2, hlength, List.getElem?_append_right (Nat.le_refl _),
    Nat.sub_self]
  rfl

/-- The second artifact that names a key displaces the first one. -/
example (f g : Factory) (cause : ExpansionError) :
    (r.installMade [⟨"a.wat", .ok ⟨"k", "1", "", f⟩⟩, ⟨"b.wat", .error cause⟩,
        ⟨"c.wat", .ok ⟨"k", "2", "", g⟩⟩]).1.installed.map Installed.displaced? =
      [r.lookup? "k", some f] := by
  simp [installMade, replace]

theorem installMade_again (ds : List Discovered) :
    ((r.installMade ds).2.2.installMade ds).2.2 = (r.installMade ds).2.2 := by
  simp only [installMade_registry, insertAll_insertAll]

theorem installMade_installs (ds : List Discovered) :
    r.Installs ds (r.installMade ds).1 (r.installMade ds).2.2 where
  resolved_only := by
    rw [installMade_registry, installMade_registry, Discovered.claimed_onlyResolved]
  owner := by
    rintro before path offer after rfl hlast
    exact r.installMade_owner before path offer after hlast
  untouched := fun _ hunnamed => r.lookup?_installMade_of_unnamed hunnamed
  installed := r.installMade_installed ds
  failed := r.installMade_failed ds
  counted := by
    rw [← Discovered.length_resolved_add_failed ds, ← r.installMade_installed ds,
      r.installMade_failed ds, List.length_map]
  displaced := by
    rintro before path offer after rfl
    exact r.installMade_displaced before path offer after
  again := r.installMade_again ds

/-! ### Making the factories -/

theorem mintAll_made (artifacts : List Artifact) :
    List.Forall₂ Artifact.MadeTo artifacts (r.mintAll artifacts).1 := by
  induction artifacts generalizing r with
  | nil => exact .nil
  | cons a rest ih =>
    rcases a with ⟨path, cause | d⟩
    · exact .cons (.failed path cause) (ih r)
    · exact .cons (.resolved path d r.nextId) (ih _)

/-! ### Installing anew -/

/-- What makes the rules of each key, whichever factory it is in. -/
def makers (r : Registry) : List (String × Maker) := r.factories.map fun e => (e.1, e.2.maker)

theorem install_makers (artifacts : List Artifact) :
    (r.install artifacts).2.2.makers =
      insertAll r.makers (artifacts.filterMap Artifact.claim?) := by
  induction artifacts generalizing r with
  | nil => rfl
  | cons a rest ih =>
    rcases a with ⟨path, cause | d⟩
    · exact ih r
    · have hplaced : (r.placed d).makers = insertEntry d.typeKey d.maker r.makers :=
        map_insertEntry Factory.maker d.typeKey ⟨r.nextId, d.maker⟩ r.factories
      rw [(install_ok r path d rest).2, ih, hplaced]
      rfl

/-- Artifacts that are installed anew are made anew, to the same. -/
theorem install_makers_again (artifacts : List Artifact) :
    ((r.install artifacts).2.2.install artifacts).2.2.makers =
      (r.install artifacts).2.2.makers := by
  simp only [install_makers, insertAll_insertAll]

end Registry

namespace Engine

/-- **An installation settles who owns which key.**  Whatever was discovered, in whichever order
    and with whichever keys, is installed as it has to be; so an engine makes the factories of the
    artifacts it is given and installs those, and if it is given them again only the identities
    of the factories change.  A source that fails changes nothing. -/
theorem install_settles_ownership :
    (∀ (r : Registry) (ds : List Discovered),
      r.Installs ds (r.installMade ds).1 (r.installMade ds).2.2) ∧
    (∀ (e : Engine) (directory : String) (artifacts : List Artifact),
      let (made, registry) := e.registry.mintAll artifacts
      let (report, e') := e.install directory (.ok artifacts)
      List.Forall₂ Artifact.MadeTo artifacts made ∧
        registry.factories = e.registry.factories ∧
        registry.Installs made report e'.registry ∧
        (e'.install directory (.ok artifacts)).2.registry.makers = e'.registry.makers) ∧
    ∀ (e : Engine) (directory : String) (message? : Option String),
      let (report, e') := e.install directory (.error message?)
      report = {} ∧ e'.registry = e.registry := by
  refine ⟨Registry.installMade_installs, fun e directory artifacts => ?_,
    fun e directory message? => ⟨rfl, rfl⟩⟩
  have hinstalls := Registry.installMade_installs (e.registry.mintAll artifacts).2
    (e.registry.mintAll artifacts).1
  exact ⟨e.registry.mintAll_made artifacts, e.registry.mintAll_factories artifacts, hinstalls,
    e.registry.install_makers_again artifacts⟩

end Engine

end RuleEngine
