/-
  RuleEngine/Configuration/File.lean
  ==================================
  **Configurations in files.**

  A configuration is loaded from a file of settings, and saved to one.  Saving makes
  the directories around the file first; the file itself is touched only when the
  configuration can be written.
-/
import RuleEngine.Configuration.Format
import RuleEngine.Configuration.OfToml
import RuleEngine.Node.Load

namespace RuleEngine.Configuration

inductive LoadError where
  | missing (path : String)
  /-- It could not be read, or is no text. -/
  | unreadable (path : String)
  | notToml (fault : Toml.Fault)
  | wrongType (setting : String)
deriving DecidableEq, Repr

inductive SaveError where
  | unwritable (error : WriteError)
  /-- The file or a directory around it could not be made. -/
  | blocked (path : String)
deriving DecidableEq, Repr

/-! ### Loading and saving -/

namespace Format

variable (format : Format)

def read (text : String) : Except LoadError Configuration := do
  let value ← (format.parse text).mapError LoadError.notToml
  (ofToml value).mapError LoadError.wrongType

def load (files : FileTree) (path : String) : Except LoadError Configuration :=
  if !files.isThere path then .error (.missing path)
  else
    match files.readText? path with
    | some text => format.read text
    | none => .error (.unreadable path)

def text (c : Configuration) : Except WriteError String := do format.print (← c.groups)

/-- Save a configuration in the file that a path leads to.  The files change also
    where that fails: directories may have been made. -/
def save (c : Configuration) (files : FileTree) (path : String) (now : Nat) :
    Except SaveError Unit × FileTree :=
  match files.makeParents path with
  | (false, files) => (.error (.blocked path), files)
  | (true, files) =>
    match format.text c with
    | .error e => (.error (.unwritable e), files)
    | .ok text =>
      match files.overwrite? path (.bytes (Text.encodeUtf8 text)) now with
      | some files => (.ok (), files)
      | none => (.error (.blocked path), files)

end Format

/-! ### Settings files -/

def load : FileTree → String → Except LoadError Configuration := Format.toml.load

def save : Configuration → FileTree → String → Nat → Except SaveError Unit × FileTree :=
  Format.toml.save

end RuleEngine.Configuration
