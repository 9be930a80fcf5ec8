/-
  RuleEngine/Configuration/OfToml.lean
  ====================================
  **Configurations from TOML values.**

  A setting that is missing has its default, and a name that means nothing is passed
  over; a setting of the wrong type makes the whole configuration faulty.  A group of
  settings is a table; the same settings may stand in an array, in their order.
-/
import RuleEngine.Configuration.Basic
import RuleEngine.Toml.Reader

namespace RuleEngine.Configuration

/-! ### Settings -/

def truth? : Toml.Value → Option Bool
  | .boolean b => some b
  | _ => none

/-- A number that is not negative. -/
def count? : Toml.Value → Option UInt64
  | .integer i => if 0 ≤ i then some i.toUInt64 else none
  | _ => none

def path? : Toml.Value → Option NativePath
  | .string s => some (.ofText s)
  | _ => none

/-- Settings by name, from a value that groups settings with the given names.  A date
    has none of them. -/
def group? (names : List String) : Toml.Value → Option (List (String × Toml.Value))
  | .table entries => some entries
  | .array items => some (names.zip items)
  | .dateTime _ => some []
  | _ => none

/-- The value of a setting, or its default if it is not given.  A value of the wrong
    type is an error, which is the name of the setting. -/
def setting {α : Type} (entries : List (String × Toml.Value)) (name : String)
    (read : Toml.Value → Option α) (default : α) : Except String α :=
  match lookupEntry name entries with
  | none => .ok default
  | some value =>
    match read value with
    | some x => .ok x
    | none => .error name

/-- A group of settings under its name, or the one with all defaults. -/
def settings {α : Type} (entries : List (String × Toml.Value)) (name : String)
    (names : List String) (read : List (String × Toml.Value) → Except String α) :
    Except String α :=
  match lookupEntry name entries with
  | none => read []
  | some value =>
    match group? names value with
    | some entries => read entries
    | none => .error name

/-! ### Groups -/

def readExpansions (entries : List (String × Toml.Value)) : Except String ExpansionSettings := do
  let usual : ExpansionSettings := {}
  let enabled ← setting entries "enabled" truth? usual.enabled
  let directory? ← setting entries "dir" (fun v => (path? v).map some) usual.directory?
  let hotReload ← setting entries "hot_reload" truth? usual.hotReload
  let scanInterval ← setting entries "hot_reload_interval_ms" count? usual.scanInterval
  let fuel ← setting entries "fuel_per_call" count? usual.fuel
  return { enabled, directory?, hotReload, scanInterval, fuel }

def readScheduler (entries : List (String × Toml.Value)) : Except String SchedulerSettings := do
  let usual : SchedulerSettings := {}
  let tick ← setting entries "tick_interval_ms" count? usual.tick
  return { tick }

def readLog (entries : List (String × Toml.Value)) : Except String LogSettings := do
  let usual : LogSettings := {}
  let toFile ← setting entries "file" truth? usual.toFile
  return { toFile }

def expansionNames : List String :=
  ["enabled", "dir", "hot_reload", "hot_reload_interval_ms", "fuel_per_call"]

def ofEntries (entries : List (String × Toml.Value)) : Except String Configuration := do
  let expansions ← settings entries "expansions" expansionNames readExpansions
  let scheduler ← settings entries "scheduler" ["tick_interval_ms"] readScheduler
  let log ← settings entries "logging" ["file"] readLog
  return { expansions, scheduler, log }

def ofToml : Toml.Value → Except String Configuration
  | .table entries => ofEntries entries
  | _ => .error ""

end RuleEngine.Configuration
