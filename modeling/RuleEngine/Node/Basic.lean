/-
  RuleEngine/Node/Basic.lean
  ==========================
  **The tree that rules are written in.**

  A rule file, whatever its format, is read into one kind of tree: scalars, lists
  and maps whose entries keep their declared order.  A property of a context holds
  the same kind of tree.  The readers below say what a scalar is worth as a number,
  an integer, a truth value or a text; a numeric or boolean word inside a string
  counts as what it spells.
-/
import RuleEngine.Text.Blank
import RuleEngine.Text.Quoted
import RuleEngine.Decimal.Reader
import RuleEngine.Decimal.Text

namespace RuleEngine

/-! ### Trees -/

inductive Scalar where
  | null
  | bool (value : Bool)
  | int (value : Int64)
  | float (value : Float)
  | str (value : String)
deriving DecidableEq

instance : Inhabited Scalar := ⟨.null⟩

/-- A tree.  The entries of a map have distinct keys when it was built by
    `Node.ofEntries`. -/
inductive Node where
  | scalar (value : Scalar)
  | list (items : List Node)
  | map (entries : List (String × Node))

instance : Inhabited Node := ⟨.scalar .null⟩

/-- The three shapes of a tree, as diagnostics name them. -/
inductive Shape where
  | scalar
  | list
  | map
deriving DecidableEq, Repr

def Shape.name : Shape → String
  | .scalar => "scalar"
  | .list => "list"
  | .map => "map"

/-! ### Ordered entries -/

/-- Put an entry into a list of entries: a known key keeps its position and gets
    the new value, a new one goes to the end. -/
def insertEntry {α : Type} (key : String) (value : α) : List (String × α) → List (String × α)
  | [] => [(key, value)]
  | (k, v) :: rest => if k = key then (k, value) :: rest else (k, v) :: insertEntry key value rest

def lookupEntry {α : Type} (key : String) : List (String × α) → Option α
  | [] => none
  | (k, v) :: rest => if k = key then some v else lookupEntry key rest

def eraseEntry {α : Type} (key : String) (entries : List (String × α)) : List (String × α) :=
  entries.filter fun e => e.1 != key

/-- The entries that a list of declarations amounts to. -/
def ofDeclared {α : Type} (declared : List (String × α)) : List (String × α) :=
  declared.foldl (fun entries e => insertEntry e.1 e.2 entries) []

theorem lookupEntry_insertEntry_same {α : Type} (key : String) (value : α)
    (entries : List (String × α)) :
    lookupEntry key (insertEntry key value entries) = some value := by
  induction entries with
  | nil => simp [insertEntry, lookupEntry]
  | cons e rest ih =>
    by_cases h : e.1 = key
    · simp [insertEntry, lookupEntry, h]
    · simp [insertEntry, lookupEntry, h, ih]

theorem lookupEntry_insertEntry_other {α : Type} {key other : String} (value : α)
    (entries : List (String × α)) (h : other ≠ key) :
    lookupEntry other (insertEntry key value entries) = lookupEntry other entries := by
  induction entries with
  | nil => simp [insertEntry, lookupEntry, Ne.symm h]
  | cons e rest ih =>
    by_cases hk : e.1 = key
    · simp [insertEntry, lookupEntry, hk, Ne.symm h]
    · by_cases ho : e.1 = other
      · simp [insertEntry, lookupEntry, ho, h]
      · simp [insertEntry, lookupEntry, hk, ho, ih]

theorem lookupEntry_eraseEntry_same {α : Type} (key : String) (entries : List (String × α)) :
    lookupEntry key (eraseEntry key entries) = none := by
  induction entries with
  | nil => rfl
  | cons e rest ih =>
    by_cases h : e.1 = key
    · simpa [eraseEntry, h] using ih
    · simpa [eraseEntry, h, lookupEntry] using ih

theorem lookupEntry_eraseEntry_other {α : Type} {key other : String}
    (entries : List (String × α)) (h : other ≠ key) :
    lookupEntry other (eraseEntry key entries) = lookupEntry other entries := by
  induction entries with
  | nil => rfl
  | cons e rest ih =>
    by_cases hk : e.1 = key
    · have ho : ¬ e.1 = other := fun ho => h (ho.symm.trans hk)
      simpa [eraseEntry, hk, lookupEntry, ho, Ne.symm h] using ih
    · by_cases ho : e.1 = other
      · simp [eraseEntry, lookupEntry, ho, h]
      · simpa [eraseEntry, hk, lookupEntry, ho] using ih

namespace Node

/-! ### Construction -/

def null : Node := .scalar .null

def ofText (s : String) : Node := .scalar (.str s)

/-- A map from declared entries, where a repeated key replaces the earlier value. -/
def ofEntries (declared : List (String × Node)) : Node := .map (ofDeclared declared)

/-! ### Views -/

def shape : Node → Shape
  | .scalar _ => .scalar
  | .list _ => .list
  | .map _ => .map

def isNull : Node → Bool
  | .scalar .null => true
  | _ => false

def get? (key : String) : Node → Option Node
  | .map entries => lookupEntry key entries
  | _ => none

/-- The value of a key of a map, an explicit null counting as absent. -/
def getPresent? (key : String) (node : Node) : Option Node :=
  (node.get? key).filter fun value => !value.isNull

def asText? : Node → Option String
  | .scalar (.str s) => some s
  | _ => none

def asNumber? : Node → Option Float
  | .scalar (.int i) => some (.ofInt i.toInt)
  | .scalar (.float x) => some x
  | .scalar (.str s) => Decimal.readFloat? (Text.trim s)
  | _ => none

/-- The 64-bit integer nearest to an integer. -/
def clampInt64 (i : Int) : Int64 :=
  if i < Int64.minValue.toInt then Int64.minValue
  else if Int64.maxValue.toInt < i then Int64.maxValue
  else Int64.ofInt i

/-- What a tree is worth as an integer.  A float counts when it is integral, cut to
    64 bits. -/
def asInteger? : Node → Option Int64
  | .scalar (.int i) => some i
  | .scalar (.float x) => (Decimal.toInt? x).map clampInt64
  | .scalar (.str s) => Decimal.readInt64? (Text.trim s)
  | _ => none

/-- What a tree is worth as a truth value. -/
def asBool? : Node → Option Bool
  | .scalar (.bool b) => some b
  | .scalar (.str s) =>
    match Text.asciiLower (Text.trim s) with
    | "true" | "yes" | "on" => some true
    | "false" | "no" | "off" => some false
    | _ => none
  | _ => none

def boolText (b : Bool) : String := if b then "true" else "false"

/-- The text of a scalar; none for the absent value. -/
def scalarText? : Scalar → Option String
  | .null => none
  | .bool b => some (boolText b)
  | .int i => some (toString i.toInt)
  | .float x => some (Decimal.plain x)
  | .str s => some s

def text? : Node → Option String
  | .scalar s => scalarText? s
  | _ => none

def indexed (items : List Node) : List (String × Node) :=
  items.zipIdx.map fun (item, i) => (toString i, item)

/-- The ordered children: the entries of a map, the items of a list under their
    indices. -/
def children : Node → List (String × Node)
  | .scalar _ => []
  | .list items => indexed items
  | .map entries => entries

/-! ### JSON -/

def scalarJson : Scalar → String
  | .null => "null"
  | .bool b => boolText b
  | .int i => toString i.toInt
  | .float x => (Decimal.json? x).getD "null"
  | .str s => Text.jsonString s

mutual

/-- A tree as compact JSON, entries in declared order. -/
def json : Node → String
  | .scalar s => scalarJson s
  | .list items => "[" ++ ",".intercalate (jsonItems items) ++ "]"
  | .map entries => "\x7b" ++ ",".intercalate (jsonEntries entries) ++ "\x7d"

def jsonItems : List Node → List String
  | [] => []
  | item :: rest => item.json :: jsonItems rest

def jsonEntries : List (String × Node) → List String
  | [] => []
  | (key, value) :: rest => (Text.jsonString key ++ ":" ++ value.json) :: jsonEntries rest

end

/-- What a property holding the tree reads as inside a text: a scalar as its text,
    a list or a map as JSON. -/
def propertyText? (node : Node) : Option String :=
  match node with
  | .scalar s => scalarText? s
  | structured => some structured.json

end Node

end RuleEngine
