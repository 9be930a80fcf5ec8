/-
  RuleEngine/Yaml/Tree.lean
  =========================
  **From tokens to the tree of a document.**

  A node of the tree is a text, a sequence, a mapping or an alias.  Nodes with an
  anchor are numbered in the order in which they start, and an alias refers to the
  anchor that its name had where the alias stands.  A stream may hold one document
  only.
-/
import RuleEngine.Yaml.Scan

namespace RuleEngine.Yaml

/-! ### Trees -/

/-- What a node is marked with: its number, if it has an anchor, and its tag. -/
structure Marks where
  number? : Option Nat := none
  tag? : Option (List UInt8) := none
deriving DecidableEq, Repr

inductive Tree where
  | alias (anchor : Nat)
  | scalar (marks : Marks) (plain : Bool) (text : List Char)
  | sequence (marks : Marks) (items : List Tree)
  | mapping (marks : Marks) (entries : List (Tree × Tree))

/-- A node that is left out. -/
def Tree.absent : Tree := .scalar {} true []

/-! ### Anchors -/

structure Anchors where
  /-- The anchor that a name has now. -/
  names : List (List Char × Nat) := []
  /-- The number of the node that an anchor was last given to. -/
  nodes : List (Nat × Nat) := []
  /-- How many nodes have an anchor. -/
  count : Nat := 0

/-- Give a name to the next node that has an anchor.  The new anchor is the number of
    names so far, so a name that is given again shares its anchor with the next name. -/
def Anchors.declare (a : Anchors) (name : List Char) : Nat × Anchors :=
  let anchor := a.names.length
  (a.count, {
    names := (name, anchor) :: a.names.filter (·.1 != name)
    nodes := (anchor, a.count) :: a.nodes
    count := a.count + 1 })

/-! ### The grammar -/

/-- What the grammar reads from: the tokens left, and the anchors so far. -/
structure Source where
  tokens : List Token
  anchors : Anchors := {}

abbrev Grammar := StateT Source (Except Fault)

namespace Grammar

/-- The next token, none at the end of the stream. -/
def next? : Grammar (Option Token) := return (← get).tokens.head?

def skip : Grammar Unit := modify fun s => { s with tokens := s.tokens.tail }

def nextIn (tokens : List Token) : Grammar Bool :=
  return (← next?).any (tokens.contains ·)

def expect (t : Token) : Grammar Unit := do
  if (← next?) != some t then throw .structural
  skip

/-- The anchor of a node, if one stands here. -/
def anchor? : Grammar (Option Nat) := do
  match ← next? with
  | some (.anchor name) =>
    skip
    modifyGet fun s =>
      let (number, anchors) := s.anchors.declare name
      (some number, { s with anchors })
  | _ => return none

/-- The tag of a node, if one stands here. -/
def tag? (stems : TagStems) : Grammar (Option (List UInt8)) := do
  match ← next? with
  | some (.tag name) =>
    skip
    return some (← name.resolve stems)
  | _ => return none

/-- The anchor and the tag of a node, in either order. -/
def marks (stems : TagStems) : Grammar Marks := do
  match ← anchor? with
  | some number => return { number? := some number, tag? := ← tag? stems }
  | none =>
    let tag? ← tag? stems
    if tag?.isNone then return {}
    return { number? := ← anchor?, tag? }

/-- The tokens that end a key or value of a block mapping. -/
def blockEntryEnds : List Token := [.key, .value, .blockEnd]

mutual

/-- The node that starts here.  A block may start only where `block` holds, and a
    sequence whose dashes stand at the column of its key only where `flush` holds. -/
def node (stems : TagStems) (block flush : Bool) : Nat → Grammar Tree
  | 0 => throw .structural
  | bound + 1 => do
    if let some (.alias name) ← next? then
      skip
      match (← get).anchors.names.lookup name with
      | some anchor => return .alias anchor
      | none => throw .unknownAnchor
    let m ← marks stems
    match ← next? with
    | some (.scalar plain text) =>
      skip
      return .scalar m plain text
    | some .openBracket =>
      skip
      return .sequence m (← flowItems stems true bound)
    | some .openBrace =>
      skip
      return .mapping m (← flowEntries stems true bound)
    | some .dash =>
      if flush then return .sequence m (← flushItems stems bound)
      else if m == {} then throw .structural
      else return .scalar m true []
    | some .blockSequence =>
      if block then
        skip
        return .sequence m (← blockItems stems bound)
      else if m == {} then throw .structural
      else return .scalar m true []
    | some .blockMapping =>
      if block then
        skip
        return .mapping m (← blockEntries stems bound)
      else if m == {} then throw .structural
      else return .scalar m true []
    | _ => if m == {} then throw .structural else return .scalar m true []

/-- A node, or an absent one where a token follows that ends it. -/
def nodeUnless (stems : TagStems) (block flush : Bool) (ends : List Token) :
    Nat → Grammar Tree
  | 0 => throw .structural
  | bound + 1 => do
    if ← nextIn ends then return .absent else node stems block flush bound

def blockItems (stems : TagStems) : Nat → Grammar (List Tree)
  | 0 => throw .structural
  | bound + 1 => do
    if ← nextIn [.dash] then
      skip
      let item ← nodeUnless stems true false [.dash, .blockEnd] bound
      return item :: (← blockItems stems bound)
    expect .blockEnd
    return []

/-- The entries of a sequence at the column of its key. -/
def flushItems (stems : TagStems) : Nat → Grammar (List Tree)
  | 0 => throw .structural
  | bound + 1 => do
    if ← nextIn [.dash] then
      skip
      let item ← nodeUnless stems true false (.dash :: blockEntryEnds) bound
      return item :: (← flushItems stems bound)
    return []

/-- The entries of a block mapping and the token that closes it. -/
def blockEntries (stems : TagStems) : Nat → Grammar (List (Tree × Tree))
  | 0 => throw .structural
  | bound + 1 => do
    if ← nextIn [.key] then
      skip
      let key ← nodeUnless stems true true blockEntryEnds bound
      let value ←
        if ← nextIn [.value] then
          skip
          nodeUnless stems true true blockEntryEnds bound
        else pure .absent
      return (key, value) :: (← blockEntries stems bound)
    expect .blockEnd
    return []

def flowItems (stems : TagStems) (first : Bool) : Nat → Grammar (List Tree)
  | 0 => throw .structural
  | bound + 1 => do
    if !(← nextIn [.closeBracket]) then
      if !first then expect .comma
      if ← nextIn [.key] then
        skip
        let pair ← flowPair stems bound
        return .mapping {} [pair] :: (← flowItems stems false bound)
      if !(← nextIn [.closeBracket]) then
        let item ← node stems false false bound
        return item :: (← flowItems stems false bound)
    skip
    return []

/-- The key and value of an entry of a flow sequence, whose key token was read.  An
    absent key takes the token after it along. -/
def flowPair (stems : TagStems) : Nat → Grammar (Tree × Tree)
  | 0 => throw .structural
  | bound + 1 => do
    let key ←
      if ← nextIn [.value, .comma, .closeBracket] then
        skip
        pure .absent
      else node stems false false bound
    let value ←
      if ← nextIn [.value] then
        skip
        nodeUnless stems false false [.comma, .closeBracket] bound
      else pure .absent
    return (key, value)

def flowEntries (stems : TagStems) (first : Bool) : Nat → Grammar (List (Tree × Tree))
  | 0 => throw .structural
  | bound + 1 => do
    if !(← nextIn [.closeBrace]) then
      if !first then expect .comma
      if ← nextIn [.key] then
        skip
        let key ← nodeUnless stems false false [.value, .comma, .closeBrace] bound
        let value ←
          if ← nextIn [.value] then
            skip
            nodeUnless stems false false [.comma, .closeBrace] bound
          else pure .absent
        return (key, value) :: (← flowEntries stems false bound)
      if !(← nextIn [.closeBrace]) then
        let key ← node stems false false bound
        return (key, .absent) :: (← flowEntries stems false bound)
    skip
    return []

end

/-! ### Documents -/

/-- The directives ahead: whether a version was stated, and the stems. -/
def directives : Nat → Bool → TagStems → Grammar TagStems
  | 0, _, stems => return stems
  | bound + 1, versioned, stems => do
    match ← next? with
    | some (.version major minor) =>
      if versioned || major != 1 || !(minor == 1 || minor == 2) then throw .badDirective
      skip
      directives bound true stems
    | some (.stem handle stem) =>
      if (stems.lookup handle).isSome then throw .badDirective
      skip
      directives bound versioned (stems ++ [(handle, stem)])
    | _ => return stems

/-- A token that belongs to the frame of a document and not to its content. -/
def isFrame : Token → Bool
  | .version .. | .stem .. | .documentStart | .documentEnd => true
  | _ => false

/-- The tree of the only document of a stream, none for a stream without one. -/
def document : Grammar (Option Tree) := do
  let bound := 3 * (← get).tokens.length + 3
  let tree? ←
    match ← next? with
    | none => pure none
    | some first =>
      if isFrame first && first != .documentEnd then
        let stems ← directives bound false []
        expect .documentStart
        if (← next?).all isFrame then pure (some Tree.absent)
        else some <$> node stems true false bound
      else some <$> node [] true false bound
  modify fun s => { s with tokens := s.tokens.dropWhile (· == .documentEnd) }
  if (← next?).isSome then throw .moreThanOneDocument
  return tree?

end Grammar

/-- A document: its tree, and the numbers of the nodes that its anchors were last
    given to. -/
structure Document where
  tree : Tree
  anchors : List (Nat × Nat)

/-- The document that a text is, none for a text without one. -/
def Document.read (text : String) : Except Fault (Option Document) := do
  let tokens ← Token.scan text.toList
  let (tree?, source) ← Grammar.document.run { tokens }
  return tree?.map (⟨·, source.anchors.nodes⟩)

end RuleEngine.Yaml
