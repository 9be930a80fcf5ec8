/-
  RuleEngine/Yaml/Reader.lean
  ===========================
  **From the tree of a document to its value.**

  An alias is read as the node that it refers to, each time anew.  So that no
  document grows without bound, collections nest at most 128 deep, aliases
  included, and a document may follow at most a hundred aliases per node.  A tag
  that an application defines marks its value; a repeated key is an error.
-/
import RuleEngine.Yaml.Tree
import RuleEngine.Yaml.Resolve

namespace RuleEngine.Yaml

/-! ### Measures of a tree -/

mutual

/-- The number of steps that a tree is written in: one for a text or alias, two for a
    collection besides its contents. -/
def Tree.steps : Tree → Nat
  | .alias _ => 1
  | .scalar .. => 1
  | .sequence _ items => 2 + stepsOfItems items
  | .mapping _ entries => 2 + stepsOfEntries entries

def stepsOfItems : List Tree → Nat
  | [] => 0
  | t :: rest => t.steps + stepsOfItems rest

def stepsOfEntries : List (Tree × Tree) → Nat
  | [] => 0
  | e :: rest => stepsOfEntry e + stepsOfEntries rest

def stepsOfEntry : Tree × Tree → Nat
  | (k, v) => k.steps + v.steps

end

mutual

def Tree.numbered : Tree → List (Nat × Tree)
  | .alias _ => []
  | .scalar m p s => (m.number?.map (·, Tree.scalar m p s)).toList
  | .sequence m items => (m.number?.map (·, Tree.sequence m items)).toList ++ numberedItems items
  | .mapping m entries =>
    (m.number?.map (·, Tree.mapping m entries)).toList ++ numberedEntries entries

def numberedItems : List Tree → List (Nat × Tree)
  | [] => []
  | t :: rest => t.numbered ++ numberedItems rest

def numberedEntries : List (Tree × Tree) → List (Nat × Tree)
  | [] => []
  | e :: rest => numberedEntry e ++ numberedEntries rest

def numberedEntry : Tree × Tree → List (Nat × Tree)
  | (k, v) => k.numbered ++ v.numbered

end

/-! ### Reading -/

/-- What a reading looks up: the node of each anchor, and how many aliases it may
    follow. -/
structure Links where
  target? : Nat → Option Tree
  limit : Nat

def Document.links (d : Document) : Links :=
  let nodes := d.tree.numbered
  { target? := fun anchor => (d.anchors.lookup anchor).bind fun number => nodes.lookup number
    limit := 100 * d.tree.steps }

/-- A reading, with the number of aliases followed so far. -/
abbrev Reading := StateT Nat (Except Fault)

/-- The node that a tree is, an alias being followed. -/
def Links.follow (links : Links) (t : Tree) : Reading Tree :=
  match t with
  | .alias anchor => do
    let followed := (← get) + 1
    if links.limit < followed then throw .tooManyAliases
    set followed
    match links.target? anchor with
    | some target => return target
    | none => throw .unknownAnchor
  | t => return t

/-- The name of a tag after an exclamation mark at its start; one that stands alone is
    a name itself. -/
def unmarked : List UInt8 → List UInt8
  | 0x21 :: b :: rest => b :: rest
  | name => name

/-- The tag of an application that marks a node: one that starts with an exclamation
    mark.  Neither that mark nor a second one is part of its name. -/
def Marks.ownTag? (m : Marks) : Option String :=
  match m.tag? with
  | some (0x21 :: rest) => Text.decodeUtf8? (unmarked (unmarked (0x21 :: rest)))
  | _ => none

/-- A tag of the format, or one that is neither. -/
def Marks.otherTag? (m : Marks) : Option (List UInt8) :=
  m.tag?.filter fun tag => tag.head? != some 0x21

def scalarValue (m : Marks) (plain : Bool) (text : String) : Except Fault Value :=
  match m.otherTag? with
  | some tag =>
    match (Text.decodeUtf8? tag).bind CoreType.ofTag? with
    | some type => type.read text
    | none => .ok (.string text)
  | none => if plain then plainValue text else .ok (.string text)

/-- The marks of a node; an alias has none of its own. -/
def Tree.marks : Tree → Marks
  | .alias _ => {}
  | .scalar m .. | .sequence m _ | .mapping m _ => m

/-- The value of a node at most `depth` collections deep. -/
def valueAt (links : Links) : Nat → Tree → Reading Value
  | depth, t => do
    let value ←
      match depth, t with
      | _, .alias _ => throw .unknownAnchor
      | _, .scalar m plain text => scalarValue m plain (String.ofList text)
      | 0, _ => throw .tooDeep
      | depth + 1, .sequence _ items => do
        let values ← items.mapM fun item => do
          valueAt links depth (← links.follow item)
        pure (.sequence values)
      | depth + 1, .mapping _ entries => do
        let read ← entries.foldlM (fun read e => do
          let key ← valueAt links depth (← links.follow e.1)
          if hasKey key read then throw .duplicateKey
          let value ← valueAt links depth (← links.follow e.2)
          return read ++ [(key, value)]) []
        pure (.mapping read)
    return t.marks.ownTag?.elim value (Value.tagged · value)

def Document.value (d : Document) : Except Fault Value := do
  let (value, _) ← (valueAt d.links 128 d.tree).run 0
  return value

/-- The value that a text is; a text without a document is nothing. -/
def Value.read (text : String) : Except Fault Value := do
  match ← Document.read text with
  | some document => document.value
  | none => return .null

end RuleEngine.Yaml
