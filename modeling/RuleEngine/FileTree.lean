/-
  RuleEngine/FileTree.lean
  ========================
  **Files.**

  The engine reads rule files, a configuration and a directory of expansions.  What
  it sees of them is a tree of files at one moment: paths with their entries.  A
  path is read from a working directory; a symbolic link stands for the entry it
  leads to, but is not that entry.
-/
import RuleEngine.Guest.Module
import RuleEngine.Text.Utf8

namespace RuleEngine

/-! ### Entries -/

/-- What a file holds: bytes, or a guest module. -/
inductive FileContent where
  | bytes (bytes : List UInt8)
  | module (module : Guest.Module)

inductive FileEntry where
  | file (content : FileContent) (modified : Nat)
  | directory
  /-- A symbolic link with the entry it leads to, if it leads anywhere. -/
  | link (target? : Option FileEntry)

def FileEntry.followed? : FileEntry → Option FileEntry
  | .link (some target) => target.followed?
  | .link none => none
  | entry => some entry

def FileEntry.content? (entry : FileEntry) : Option FileContent :=
  match entry.followed? with
  | some (.file content _) => some content
  | _ => none

/-- The entry after a file was written through it.  A link without an entry makes the
    file that it leads to; a directory cannot be written. -/
def FileEntry.overwritten? (content : FileContent) (now : Nat) : FileEntry → Option FileEntry
  | .file _ _ => some (.file content now)
  | .directory => none
  | .link (some target) => (target.overwritten? content now).map fun entry => .link (some entry)
  | .link none => some (.link (some (.file content now)))

/-! ### Paths -/

def splitPath (path : String) : List String := (path.toList.splitOn '/').map String.ofList

/-- Walk along the parts of a path: a dot stays, two dots go up. -/
def walk (start : List String) (parts : List String) : List String :=
  parts.foldl (fun here part =>
    if part = "" ∨ part = "." then here
    else if part = ".." then here.dropLast
    else here ++ [part]) start

def isAbsolute (path : String) : Bool := path.startsWith "/"

/-- A path inside a directory; one that starts from the root stays as it is. -/
def joinPath (directory path : String) : String :=
  if isAbsolute path then path
  else if directory = "" ∨ directory.endsWith "/" then directory ++ path
  else directory ++ "/" ++ path

/-- The last part of a path, when it names something. -/
def fileName? (path : String) : Option String :=
  match ((splitPath path).filter fun part => part ≠ "" ∧ part ≠ ".").getLast? with
  | some ".." => none
  | other => other

/-- The extension of a file name: what follows its last dot, unless the dot is its
    first character. -/
def extensionOf? (name : String) : Option String :=
  match ((name.toList.splitOn '.').map String.ofList).reverse with
  | [] | [_] => none
  | last :: before => if before = [""] then none else some last

def pathExtension? (path : String) : Option String := (fileName? path).bind extensionOf?

def isArtifact (path : String) : Bool :=
  pathExtension? path == some "wasm" || pathExtension? path == some "wat"

/-! ### Trees -/

structure FileTree where
  entries : List (List String × FileEntry) := []
  start : List String := []

namespace FileTree

/-- The place where a path starts. -/
def origin (t : FileTree) (path : String) : List String := if isAbsolute path then [] else t.start

/-- The place that a path names, whatever is there. -/
def place (t : FileTree) (path : String) : List String := walk (t.origin path) (splitPath path)

def at? (t : FileTree) (place : List String) : Option FileEntry :=
  (t.entries.find? fun e => e.1 == place).map Prod.snd

/-- The tree with an entry written, in place of an earlier one. -/
def write (t : FileTree) (path : String) (entry : FileEntry) : FileTree :=
  let place := t.place path
  { t with entries := t.entries.filter (fun e => e.1 != place) ++ [(place, entry)] }

def delete (t : FileTree) (path : String) : FileTree :=
  let place := t.place path
  { t with entries := t.entries.filter fun e => e.1 != place }

def isDirectory (t : FileTree) (place : List String) : Bool :=
  match t.at? place with
  | some entry =>
    match entry.followed? with
    | some .directory => true
    | _ => false
  | none => place.isPrefixOf t.start || t.entries.any fun e => place.isPrefixOf e.1

def walk? (t : FileTree) (here : List String) : List String → Option (List String)
  | [] => some here
  | part :: rest =>
    if !t.isDirectory here then none
    else t.walk? (walk here [part]) rest

def locate? (t : FileTree) (path : String) : Option (List String) :=
  if path = "" then none else t.walk? (t.origin path) (splitPath path)

def read? (t : FileTree) (path : String) : Option FileContent :=
  ((t.locate? path).bind t.at?).bind FileEntry.content?

def isThere (t : FileTree) (path : String) : Bool :=
  match t.locate? path with
  | some place => t.isDirectory place || ((t.at? place).bind FileEntry.followed?).isSome
  | none => false

/-! ### Directories -/

inductive DirectoryView where
  | missing
  | notDirectory
  /-- The entries directly inside, with their names. -/
  | listing (inside : List (String × FileEntry))

/-- The name of an entry that stands directly inside a place. -/
def nameInside? (place : List String) (e : List String × FileEntry) :
    Option (String × FileEntry) :=
  match e.1.getLast? with
  | some name => if e.1.dropLast == place then some (name, e.2) else none
  | none => none

def directory (t : FileTree) (path : String) : DirectoryView :=
  match t.locate? path with
  | none => .missing
  | some place =>
    if t.isDirectory place then .listing (t.entries.filterMap (nameInside? place))
    else if ((t.at? place).bind FileEntry.followed?).isSome then .notDirectory
    else .missing

/-! ### Writing through paths -/

/-- Make directories along some parts, from a place on.  Something else in the way
    stops this; the directories made until then stay. -/
def makeDirectories (t : FileTree) (here : List String) : List String → Bool × FileTree
  | [] => (true, t)
  | part :: rest =>
    let next := walk here [part]
    if t.isDirectory next then t.makeDirectories next rest
    else if (t.at? next).isSome then (false, t)
    else
      let t := { t with entries := t.entries ++ [(next, FileEntry.directory)] }
      t.makeDirectories next rest

/-- Make the directories that a file needs around it.  They are made along the path as
    it is spelled, also where it turns back later. -/
def makeParents (t : FileTree) (path : String) : Bool × FileTree :=
  t.makeDirectories (t.origin path)
    ((splitPath path).filter fun part => part ≠ "" ∧ part ≠ ".").dropLast

/-- The tree with a file written where a path leads to, in a directory that is there. -/
def overwrite? (t : FileTree) (path : String) (content : FileContent) (now : Nat) :
    Option FileTree :=
  match t.locate? path with
  | none => none
  | some place =>
    match t.at? place with
    | some entry => (entry.overwritten? content now).map (t.write path)
    | none => if t.isDirectory place then none else some (t.write path (.file content now))

end FileTree

end RuleEngine
