/-
  RuleEngine/Node/Load.lean
  =========================
  **Trees from files.**

  A rule file is TOML if its name ends in `.toml`, and YAML otherwise.
-/
import RuleEngine.FileTree
import RuleEngine.Node.OfYaml
import RuleEngine.Node.OfToml

namespace RuleEngine

inductive LoadError where
  /-- It could not be read, or is no text. -/
  | unreadable (path : String)
  | yaml (fault : Yaml.Fault)
  | toml (fault : Toml.Fault)
deriving DecidableEq, Repr

def FileTree.readText? (t : FileTree) (path : String) : Option String :=
  match t.read? path with
  | some (.bytes bytes) => Text.decodeUtf8? bytes
  | _ => none

namespace Node

/-- The tree of a text in the format that the path of its file tells. -/
def readAs (path text : String) : Except LoadError Node :=
  if pathExtension? path == some "toml" then (readToml text).mapError LoadError.toml
  else (readYaml text).mapError LoadError.yaml

def load (files : FileTree) (path : String) : Except LoadError Node :=
  match files.readText? path with
  | some text => readAs path text
  | none => .error (.unreadable path)

end Node

end RuleEngine
