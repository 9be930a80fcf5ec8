/-
  RuleEngine/Configuration/Basic.lean
  ===================================
  **Configurations.**

  A configuration says whether and from where expansions are loaded, how long a tick
  is, and whether the log goes to a file.  Every setting has a default.
-/
import RuleEngine.Expansion.Host
import RuleEngine.UserDirectories

namespace RuleEngine

/-! ### Paths -/

/-- A path as the system keeps it: bytes, which usually spell a text. -/
structure NativePath where
  bytes : List UInt8
deriving DecidableEq, Repr

namespace NativePath

def ofText (text : String) : NativePath := ⟨Text.encodeUtf8 text⟩

def text? (p : NativePath) : Option String := Text.decodeUtf8? p.bytes

def shown (p : NativePath) : String := Text.decodeLenient p.bytes

end NativePath

/-! ### Settings -/

structure ExpansionSettings where
  enabled : Bool := true
  /-- The directory of the artifacts, if it is not the usual one. -/
  directory? : Option NativePath := none
  hotReload : Bool := true
  /-- The milliseconds between two scans of the directory. -/
  scanInterval : UInt64 := 1000
  /-- The units of fuel that a call into an expansion may use. -/
  fuel : UInt64 := 10000000
deriving DecidableEq, Repr

structure SchedulerSettings where
  /-- The milliseconds of a tick. -/
  tick : UInt64 := 50
deriving DecidableEq, Repr

structure LogSettings where
  toFile : Bool := false
deriving DecidableEq, Repr

structure Configuration where
  expansions : ExpansionSettings := {}
  scheduler : SchedulerSettings := {}
  log : LogSettings := {}
deriving DecidableEq, Repr

/-- The milliseconds that a tick takes: at least one. -/
def SchedulerSettings.tickInterval (s : SchedulerSettings) : UInt64 := max s.tick 1

namespace ExpansionSettings

def directory (s : ExpansionSettings) (u : UserEnvironment) : String :=
  (s.directory?.map NativePath.shown).getD u.expansionDirectory

def hostSettings (s : ExpansionSettings) (u : UserEnvironment) : ExpansionHost.Settings where
  enabled := s.enabled
  directory := s.directory u
  hotReload := s.hotReload
  interval := s.scanInterval.toNat
  fuel := s.fuel.toNat

/-- The settings for a command: a directory given with it is used in any case, and
    hot reload is on only where the command wants it too. -/
def forCommand (s : ExpansionSettings) (directory? : Option NativePath) (hotReload : Bool) :
    ExpansionSettings :=
  let s := { s with hotReload := s.hotReload && hotReload }
  match directory? with
  | some directory => { s with enabled := true, directory? := some directory }
  | none => s

end ExpansionSettings

end RuleEngine
