/-
  RuleEngine/Node/OfToml.lean
  ===========================
  **Trees from TOML values.**

  Tables keep their declared order; dates and times, in the form of tables or not,
  become their texts.
-/
import RuleEngine.Node.Basic
import RuleEngine.Toml.DateTable

namespace RuleEngine.Node

mutual

def ofToml : Toml.Value → Node
  | .string s => .ofText s
  | .integer i => .scalar (.int i)
  | .float x => .scalar (.float x)
  | .boolean b => .scalar (.bool b)
  | .dateTime d => .ofText d.text
  | .array items => .list (ofTomlItems items)
  | .table entries => .ofEntries (ofTomlEntries entries)

def ofTomlItems : List Toml.Value → List Node
  | [] => []
  | v :: rest => ofToml v :: ofTomlItems rest

def ofTomlEntries : List (String × Toml.Value) → List (String × Node)
  | [] => []
  | e :: rest => ofTomlEntry e :: ofTomlEntries rest

def ofTomlEntry : String × Toml.Value → String × Node
  | (k, v) => (k, ofToml v)

end

def readToml (text : String) : Except Toml.Fault Node :=
  return ofToml (← (← Toml.Value.read text).withDates)

end RuleEngine.Node
