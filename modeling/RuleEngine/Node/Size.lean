/-
  RuleEngine/Node/Size.lean
  =========================
  **The size of a tree.**

  Compiling a tree goes down from a node to its values and children.  The size
  counts lists, maps and their members, so it shrinks on the way.
-/
import RuleEngine.Node.Basic

namespace RuleEngine.Node

mutual

def size : Node → Nat
  | .scalar _ => 0
  | .list items => itemsSize items + 1
  | .map entries => entriesSize entries + 1

def itemsSize : List Node → Nat
  | [] => 0
  | item :: rest => item.size + 1 + itemsSize rest

def entriesSize : List (String × Node) → Nat
  | [] => 0
  | (_, value) :: rest => value.size + 1 + entriesSize rest

end

theorem size_lt_of_lookupEntry {key : String} {entries : List (String × Node)} {value : Node}
    (h : lookupEntry key entries = some value) : value.size < entriesSize entries := by
  induction entries with
  | nil => simp [lookupEntry] at h
  | cons e rest ih =>
    unfold lookupEntry at h
    split at h
    · simp only [Option.some.injEq] at h
      subst h
      simp only [entriesSize]
      omega
    · have := ih h
      simp only [entriesSize]
      omega

/-- A value of a map is smaller than the map. -/
theorem size_lt_of_get? {key : String} {node value : Node} (h : node.get? key = some value) :
    value.size < node.size := by
  cases node with
  | scalar _ => simp [get?] at h
  | list _ => simp [get?] at h
  | map entries =>
    have := size_lt_of_lookupEntry h
    simp only [size]
    omega

/-- The value of a key, or the absent value in its place. -/
def valueOf (key : String) (node : Node) : Node := (node.get? key).getD .null

/-- A value of a map, or nothing in its place, is no larger than what holds it. -/
theorem size_valueOf_le (key : String) (node : Node) : (node.valueOf key).size ≤ node.size := by
  unfold valueOf
  cases h : node.get? key with
  | none => simp [null, size]
  | some value => simpa using Nat.le_of_lt (size_lt_of_get? h)

/-- A value of a map, or nothing in its place, is smaller than the map. -/
theorem size_valueOf_lt (key : String) (entries : List (String × Node)) :
    ((Node.map entries).valueOf key).size < (Node.map entries).size := by
  unfold valueOf
  cases h : (Node.map entries).get? key with
  | none => simp [null, size]
  | some value => simpa using size_lt_of_get? h

/-- The children of a list or a map in order. -/
def members : Node → List Node
  | .scalar _ => []
  | .list items => items
  | .map entries => entries.map Prod.snd

theorem itemsSize_map_snd (entries : List (String × Node)) :
    itemsSize (entries.map Prod.snd) = entriesSize entries := by
  induction entries with
  | nil => rfl
  | cons e rest ih => simp [itemsSize, entriesSize, ih]

/-- The children of a list or a map are smaller than it, taken together. -/
theorem itemsSize_members_lt (node : Node) (h : node.shape ≠ .scalar) :
    itemsSize node.members < node.size := by
  cases node with
  | scalar _ => simp [shape] at h
  | list items => simp [members, size]
  | map entries => simp [members, size, itemsSize_map_snd]

end RuleEngine.Node
