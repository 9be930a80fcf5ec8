/-
  RuleEngine/Configuration/Written.lean
  =====================================
  **Configurations as they are handed to a format.**

  All settings are handed over by name, also those that have their default; a directory
  that is not set is absent.  A format takes texts only, so a path that spells none ends
  the writing before the format is asked.
-/
import RuleEngine.Configuration.Basic

namespace RuleEngine.Configuration

inductive WriteError where
  | tooLarge (count : UInt64)
  | notText (path : NativePath)
deriving DecidableEq, Repr

inductive Setting where
  | truth (b : Bool)
  | count (n : UInt64)
  | text (s : String)
  | absent
deriving DecidableEq, Repr

/-- Settings under their names, in order, and under the name of their group. -/
structure Group where
  name : String
  settings : List (String × Setting)
deriving DecidableEq, Repr

def directorySetting : Option NativePath → Except WriteError Setting
  | none => .ok .absent
  | some path =>
    match path.text? with
    | some text => .ok (.text text)
    | none => .error (.notText path)

def groups (c : Configuration) : Except WriteError (List Group) := do
  let directory ← directorySetting c.expansions.directory?
  return [
    ⟨"expansions", [("enabled", .truth c.expansions.enabled), ("dir", directory),
      ("hot_reload", .truth c.expansions.hotReload),
      ("hot_reload_interval_ms", .count c.expansions.scanInterval),
      ("fuel_per_call", .count c.expansions.fuel)]⟩,
    ⟨"scheduler", [("tick_interval_ms", .count c.scheduler.tick)]⟩,
    ⟨"logging", [("file", .truth c.log.toFile)]⟩]

end RuleEngine.Configuration
