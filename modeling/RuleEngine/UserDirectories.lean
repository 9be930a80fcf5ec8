/-
  RuleEngine/UserDirectories.lean
  ===============================
  **Where an application keeps its files.**

  A user's configuration, data and caches have base directories, each named by a
  variable of the environment or found below the home directory.  An application has
  a folder of its own in each of them.
-/
import RuleEngine.FileTree
import RuleEngine.Text.Blank
import RuleEngine.Text.Lowercase

namespace RuleEngine

/-! ### Base directories -/

structure UserEnvironment where
  /-- The variable for the home directory. -/
  home? : Option String := none
  /-- The home directory that the account has. -/
  accountHome? : Option String := none
  /-- The variables for the base directories. -/
  configHome? : Option String := none
  dataHome? : Option String := none
  cacheHome? : Option String := none
deriving DecidableEq, Repr

namespace UserEnvironment

/-- The home directory of a user: that of the account where the variable is unset or
    empty. -/
def homeDirectory? (u : UserEnvironment) : Option String :=
  match u.home? with
  | some home => if home = "" then u.accountHome? else some home
  | none => u.accountHome?

/-- A base directory: what its variable says, if that is an absolute path, and the
    usual folder of the home directory otherwise. -/
def baseDirectory (home usual : String) (named? : Option String) : String :=
  match named? with
  | some path => if isAbsolute path then path else joinPath home usual
  | none => joinPath home usual

end UserEnvironment

/-! ### The folder of an application -/

def words (cs : List Char) : List (List Char) :=
  (cs.splitBy fun a b => Text.isBlank a == Text.isBlank b).filter fun w => !w.any Text.isBlank

/-- The folder name of an application: its words in lower case, joined. -/
def folderName (application : String) : String :=
  String.join ((words application.toList).map fun w => Text.lowercase (String.ofList w))

structure ApplicationDirectories where
  config : String
  data : String
  cache : String
deriving DecidableEq, Repr

namespace UserEnvironment

/-- The folders of an application, if the user has a home. -/
def directories? (u : UserEnvironment) (application : String) : Option ApplicationDirectories :=
  u.homeDirectory?.map fun home =>
    let inside (usual : String) (named? : Option String) : String :=
      joinPath (baseDirectory home usual named?) (folderName application)
    { config := inside ".config" u.configHome?
      data := inside ".local/share" u.dataHome?
      cache := inside ".cache" u.cacheHome? }

def applicationName : String := "ruleloom"

/-- The data folder of this application; a hidden folder of the working directory for
    a user without a home. -/
def dataDirectory (u : UserEnvironment) : String :=
  (u.directories? applicationName).elim ("." ++ applicationName) ApplicationDirectories.data

/-- Where the configuration file is, if the user has a home. -/
def configPath? (u : UserEnvironment) : Option String :=
  (u.directories? applicationName).map fun d => joinPath d.config "config.toml"

/-- Where expansions are looked for unless the configuration names a directory. -/
def expansionDirectory (u : UserEnvironment) : String := joinPath u.dataDirectory "expansions"

def logPath (u : UserEnvironment) : String := joinPath (joinPath u.dataDirectory "logs") "cli.log"

end UserEnvironment

end RuleEngine
