/-
  RuleEngine/Expansion/Install.lean
  =================================
  **Installing expansions.**

  A source of expansions yields artifacts in order, each loaded or failed.  A factory is
  made for a loaded one and put under its key, whoever had the key before; a failed one is
  reported and skipped.  The usual source is a directory, whose artifacts come in the order of
  their names.
-/
import RuleEngine.Engine
import RuleEngine.Guest.Load

namespace RuleEngine

/-! ### Artifacts -/

/-- What a loaded artifact adds. -/
structure Descriptor where
  typeKey : String
  version : String
  author : String
  maker : Maker

structure Artifact where
  path : String
  result : Except ExpansionError Descriptor

/-- What a resolved artifact adds, with the factory that was made for it. -/
structure Offer where
  typeKey : String
  version : String
  author : String
  factory : Factory

structure Discovered where
  path : String
  result : Except ExpansionError Offer

structure Installed where
  path : String
  typeKey : String
  version : String
  author : String
  factory : Factory
  /-- Who had the key just before. -/
  displaced? : Option Factory

/-- What an installation did, in the order in which the artifacts were found. -/
structure InstallReport where
  installed : List Installed := []
  failed : List (String × ExpansionError) := []

/-! ### Installing -/

namespace Registry

def mintAll (r : Registry) : List Artifact → List Discovered × Registry
  | [] => ([], r)
  | ⟨path, .ok d⟩ :: rest =>
    let (factory, r) := r.mint d.maker
    let (others, r) := r.mintAll rest
    (⟨path, .ok ⟨d.typeKey, d.version, d.author, factory⟩⟩ :: others, r)
  | ⟨path, .error cause⟩ :: rest =>
    let (others, r) := r.mintAll rest
    (⟨path, .error cause⟩ :: others, r)

def installMade (r : Registry) : List Discovered → InstallReport × List Notice × Registry
  | [] => ({}, [], r)
  | ⟨path, .ok offer⟩ :: rest =>
    let (displaced?, r) := r.replace offer.typeKey offer.factory
    let (report, notices, r) := r.installMade rest
    let installed :=
      ⟨path, offer.typeKey, offer.version, offer.author, offer.factory, displaced?⟩
    let notice :=
      .expansionInstalled offer.typeKey offer.version offer.author displaced?.isSome
    ({ report with installed := installed :: report.installed }, notice :: notices, r)
  | ⟨path, .error cause⟩ :: rest =>
    let (report, notices, r) := r.installMade rest
    ({ report with failed := (path, cause) :: report.failed },
      .expansionFailed path cause.message :: notices, r)

def install (r : Registry) (artifacts : List Artifact) :
    InstallReport × List Notice × Registry :=
  let (made, r) := r.mintAll artifacts
  r.installMade made

end Registry

namespace Engine

/-- Install what a source yields for a directory; a source that fails installs
    nothing. -/
def install (e : Engine) (directory : String)
    (artifacts : Except (Option String) (List Artifact)) : InstallReport × Engine :=
  match artifacts with
  | .error message? => ({}, e.report (.discoveryPanicked directory (panicText message?)))
  | .ok artifacts =>
    let (report, notices, registry) := e.registry.install artifacts
    (report, { e with registry }.reportAll notices)

/-! ### Artifacts of a directory -/

def loadArtifact (e : Engine) (fuel : Nat) (path : String) (content : FileContent) :
    Artifact × Engine :=
  let (result, world) := Guest.loadIn e.state.world fuel path content
  let e := e.changeWorld fun _ => world
  match result with
  | .error cause => (⟨path, .error cause⟩, e)
  | .ok guest =>
    let id := e.state.world.guests.size
    let maker := match guest.kind with
      | .action => Maker.guestAction id
      | .requirement => Maker.guestRequirement id
    let e := e.changeWorld fun w => { w with guests := w.guests.push guest }
    let e := e.report (.guestLoaded guest.kind guest.typeKey guest.version guest.author)
    (⟨path, .ok ⟨guest.typeKey, guest.version, guest.author, maker⟩⟩, e)

def loadArtifacts (e : Engine) (fuel : Nat) :
    List (String × FileContent) → List Artifact × Engine
  | [] => ([], e)
  | (path, content) :: rest =>
    let (first, e) := e.loadArtifact fuel path content
    let (others, e) := e.loadArtifacts fuel rest
    (first :: others, e)

end Engine

/-- The artifacts among the entries of a directory, by name: what is reached through
    the entry has to be a file. -/
def artifactFiles (directory : String) (inside : List (String × FileEntry)) :
    List (String × FileContent) :=
  let files := inside.filterMap fun (name, entry) =>
    match entry.content? with
    | some content => if isArtifact name then some (name, content) else none
    | none => none
  (files.mergeSort fun a b => a.1 ≤ b.1).map fun (name, content) =>
    (joinPath directory name, content)

namespace Engine

/-- Find and load the artifacts of a directory.  One that is missing has none. -/
def discover (e : Engine) (tree : FileTree) (directory : String) (fuel : Nat) :
    List Artifact × Engine :=
  match tree.directory directory with
  | .missing => ([], e.report (.directoryMissing directory))
  | .notDirectory =>
    ([], e.report (.directoryUnreadable directory "Not a directory (os error 20)"))
  | .listing inside =>
    let files := artifactFiles directory inside
    (e.report (.artifactsFound files.length directory)).loadArtifacts fuel files

def installDirectory (e : Engine) (tree : FileTree) (directory : String) (fuel : Nat) :
    InstallReport × Engine :=
  let (artifacts, e) := e.discover tree directory fuel
  e.install directory (.ok artifacts)

end Engine

end RuleEngine
