/-
  RuleEngine/Expansion/Error.lean
  ===============================
  **Why an expansion does not load.**
-/

namespace RuleEngine

inductive ExpansionError where
  | io (cause : String)
  | missingExport (name : String)
  | invalidMetadata (cause : String)
  | incompatible (cause : String)
  | instantiate (cause : String)
deriving DecidableEq, Repr

def ExpansionError.message : ExpansionError → String
  | io cause => s!"I/O error: {cause}"
  | missingExport name => s!"missing export '{name}'"
  | invalidMetadata cause => s!"invalid metadata: {cause}"
  | incompatible cause => s!"incompatible artifact: {cause}"
  | instantiate cause => s!"failed to instantiate: {cause}"

end RuleEngine
