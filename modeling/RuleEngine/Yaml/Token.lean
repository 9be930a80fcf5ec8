/-
  RuleEngine/Yaml/Token.lean
  ==========================
  **The tokens of a YAML text.**

  Indentation has become tokens of its own: a block opens where its first entry
  stands and closes before the first line that stands left of it.
-/
import RuleEngine.Yaml.Tag

namespace RuleEngine.Yaml

inductive Token where
  /-- A directive that states the version of the format. -/
  | version (major minor : Nat)
  /-- A directive that gives a handle its stem. -/
  | stem (handle : List Char) (stem : List UInt8)
  | documentStart
  | documentEnd
  | blockSequence
  | blockMapping
  | blockEnd
  | openBracket
  | closeBracket
  | openBrace
  | closeBrace
  | comma
  | dash
  | key
  | value
  | alias (name : List Char)
  | anchor (name : List Char)
  | tag (name : TagName)
  /-- A text; only a plain one may stand for something else than a string. -/
  | scalar (plain : Bool) (text : List Char)
deriving DecidableEq, Repr

end RuleEngine.Yaml
