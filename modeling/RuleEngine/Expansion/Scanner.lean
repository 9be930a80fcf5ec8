/-
  RuleEngine/Expansion/Scanner.lean
  =================================
  **Noticing changed artifacts.**

  A scanner remembers the modification time of every artifact in a directory.  A
  scan compares what is there with what it remembers, says which artifacts were
  added, modified and removed, and remembers what is there now.  Scans are due at
  most once in an interval.
-/
import RuleEngine.FileTree
import RuleEngine.Notice

namespace RuleEngine

abbrev Snapshot := List (String × Nat)

structure ArtifactChanges where
  added : List String := []
  modified : List String := []
  removed : List String := []
deriving DecidableEq, Repr

def ArtifactChanges.any (c : ArtifactChanges) : Bool :=
  !(c.added.isEmpty && c.modified.isEmpty && c.removed.isEmpty)

/-- The modification time of an entry that is a file itself. -/
def FileEntry.modified? : FileEntry → Option Nat
  | .file _ modified => some modified
  | _ => none

/-- The artifacts of a directory with their modification times; a directory that is
    missing has none. -/
def snapshot (tree : FileTree) (directory : String) : Snapshot :=
  match tree.directory directory with
  | .listing inside =>
    let files := inside.filterMap fun (name, entry) =>
      if isArtifact name then entry.modified?.map fun modified => (name, modified) else none
    (files.mergeSort fun a b => a.1 ≤ b.1).map fun (name, modified) =>
      (joinPath directory name, modified)
  | _ => []

def changesBetween (known current : Snapshot) : ArtifactChanges where
  added := (current.filter fun e => (lookupEntry e.1 known).isNone).map Prod.fst
  modified := (current.filter fun e =>
    match lookupEntry e.1 known with
    | some before => before != e.2
    | none => false).map Prod.fst
  removed := (known.filter fun e => (lookupEntry e.1 current).isNone).map Prod.fst

structure Scanner where
  directory : String
  /-- The milliseconds between two scans. -/
  interval : Nat
  lastScan? : Option Nat := none
  known : Snapshot

namespace Scanner

def defaultInterval : Nat := 1000

/-- A scanner that takes the artifacts already there as known. -/
def create (tree : FileTree) (directory : String) (interval : Nat) : Scanner :=
  { directory, interval, known := snapshot tree directory }

def isDue (s : Scanner) (now : Nat) : Bool :=
  match s.lastScan? with
  | none => true
  | some last => s.interval ≤ now - last

def notices (s : Scanner) (c : ArtifactChanges) : List Notice :=
  if c.any then
    [.directoryScanned s.directory c.added.length c.modified.length c.removed.length]
  else []

/-- Scan the directory: what changed, and the scanner after it. -/
def scan (s : Scanner) (tree : FileTree) (now : Nat) : ArtifactChanges × Scanner :=
  let current := snapshot tree s.directory
  (changesBetween s.known current, { s with lastScan? := some now, known := current })

end Scanner

end RuleEngine
