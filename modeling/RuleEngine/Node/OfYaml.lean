/-
  RuleEngine/Node/OfYaml.lean
  ===========================
  **Trees from YAML values.**

  The keys of a tree are texts, those of a YAML mapping any values.  A key is turned
  into its text; keys that become the same text are one key, as in any list of
  declared entries.  Tags are dropped.
-/
import RuleEngine.Node.Basic
import RuleEngine.Yaml.Reader
import RuleEngine.Yaml.Written

namespace RuleEngine

/-- The text that a YAML value is as the key of a tree. -/
def Yaml.Value.keyText : Yaml.Value → String
  | .string s => s
  | .bool b => if b then "true" else "false"
  | .number n => n.text
  | .null => "null"
  | v => Text.trim v.text

/-- The leaf that a YAML number is; an integer beyond 64 bits with a sign is a float. -/
def Scalar.ofYaml : Yaml.Number → Scalar
  | .natural n =>
    if n ≤ Int64.maxValue.toUInt64 then .int (Int64.ofNat n.toNat)
    else .float (Decimal.Value.finite false n.toNat 0).toFloat
  | .negative i => .int i
  | .float x => .float x

namespace Node

mutual

def ofYaml : Yaml.Value → Node
  | .null => .null
  | .bool b => .scalar (.bool b)
  | .number n => .scalar (Scalar.ofYaml n)
  | .string s => .ofText s
  | .sequence items => .list (ofYamlItems items)
  | .mapping entries => .ofEntries (ofYamlEntries entries)
  | .tagged _ content => ofYaml content

def ofYamlItems : List Yaml.Value → List Node
  | [] => []
  | v :: rest => ofYaml v :: ofYamlItems rest

def ofYamlEntries : List (Yaml.Value × Yaml.Value) → List (String × Node)
  | [] => []
  | e :: rest => ofYamlEntry e :: ofYamlEntries rest

def ofYamlEntry : Yaml.Value × Yaml.Value → String × Node
  | (k, v) => (k.keyText, ofYaml v)

end

def readYaml (text : String) : Except Yaml.Fault Node := return ofYaml (← Yaml.Value.read text)

end Node

end RuleEngine
