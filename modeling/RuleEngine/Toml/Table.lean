/-
  RuleEngine/Toml/Table.lean
  ==========================
  **Tables under construction.**

  A document fills tables in pieces: headers name a table, dotted keys reach into
  one.  Where a table comes from decides what may still be added to it: one with a
  header is closed to dotted keys and to a second header, one that a longer header
  implied may still get a header of its own.
-/
import RuleEngine.Toml.Value
import RuleEngine.Node.Basic

namespace RuleEngine.Toml

/-! ### Items -/

inductive Origin where
  /-- It has a header, or is an inline table. -/
  | declared
  /-- A header of one of its tables named it. -/
  | implied
  /-- A dotted key named it. -/
  | dotted
deriving DecidableEq, Repr

inductive Item where
  | value (v : Value)
  | table (origin : Origin) (entries : List (String × Item))
  /-- Tables that one header was given for again and again, the last one open. -/
  | tables (closed : List (List (String × Item))) (last : List (String × Item))

abbrev Entries := List (String × Item)

mutual

def Item.finished : Item → Value
  | .value v => v
  | .table _ entries => .table (finishedEntries entries)
  | .tables closed last => .array (finishedTables closed ++ [.table (finishedEntries last)])

def finishedEntries : List (String × Item) → List (String × Value)
  | [] => []
  | e :: rest => finishedEntry e :: finishedEntries rest

def finishedEntry : String × Item → String × Value
  | (k, item) => (k, item.finished)

def finishedTables : List (List (String × Item)) → List Value
  | [] => []
  | entries :: rest => .table (finishedEntries entries) :: finishedTables rest

end

/-! ### Changes -/

/-- A change of the entries of a table, given where the table comes from. -/
abbrev Change (α : Type) := Origin → Entries → Except Fault (α × Entries)

/-- Change the table that a path leads to from one.  Tables that are missing on the way
    are made; a path of a dotted key passes no declared table. -/
def descend {α : Type} (byDots : Bool) (change : Change α) :
    List String → Origin → Entries → Except Fault (α × Entries)
  | [], origin, entries => change origin entries
  | key :: path, _, entries => do
    match lookupEntry key entries with
    | none =>
      let origin := if byDots then Origin.dotted else .implied
      let (x, inner) ← descend byDots change path origin []
      return (x, entries ++ [(key, .table origin inner)])
    | some (.value _) => throw .notATable
    | some (.tables closed last) =>
      let (x, inner) ← descend byDots change path .declared last
      return (x, insertEntry key (.tables closed inner) entries)
    | some (.table origin inner) =>
      if byDots && origin == .declared then throw .duplicateKey
      let (x, inner) ← descend byDots change path origin inner
      return (x, insertEntry key (.table origin inner) entries)

/-- Give the last key of a path a value, in a declared table. -/
def addValue (path : List String) (key : String) (v : Value) (entries : Entries) :
    Except Fault Entries := do
  let change : Change Unit := fun origin entries =>
    if (origin == .dotted) == path.isEmpty then .error .duplicateKey
    else
      match lookupEntry key entries with
      | some _ => .error .duplicateKey
      | none => .ok ((), entries ++ [(key, .value v)])
  return (← descend true change path .declared entries).2

/-! ### Documents -/

structure OpenTable where
  path : List String
  key : String
  /-- It is one of several under the same header. -/
  repeated : Bool

/-- A document under construction: the tables closed so far, and the open one. -/
structure Draft where
  root : Entries := []
  open? : Option OpenTable := none
  entries : Entries := []

namespace Draft

def close (d : Draft) : Except Fault Entries :=
  match d.open? with
  | none => .ok d.entries
  | some o => do
    let change : Change Unit := fun _ entries =>
      match o.repeated, lookupEntry o.key entries with
      | true, some (.tables closed last) =>
        .ok ((), insertEntry o.key (.tables (closed ++ [last]) d.entries) entries)
      | true, none => .ok ((), entries ++ [(o.key, .tables [] d.entries)])
      | false, none => .ok ((), entries ++ [(o.key, .table .declared d.entries)])
      | _, some _ => .error .duplicateKey
    return (← descend false change o.path .declared d.root).2

/-- Open the table of a header.  A table that was only implied so far is taken up, and
    moves behind the others when it is closed. -/
def openTable (d : Draft) (path : List String) (key : String) : Except Fault Draft := do
  let change : Change Entries := fun _ entries =>
    match lookupEntry key entries with
    | none => .ok ([], entries)
    | some (.table .implied inner) => .ok (inner, eraseEntry key entries)
    | some _ => .error .duplicateKey
  let (entries, root) ← descend false change path .declared (← d.close)
  return { root, open? := some ⟨path, key, false⟩, entries }

/-- Open another table of a repeated header. -/
def openRepeated (d : Draft) (path : List String) (key : String) : Except Fault Draft := do
  let change : Change Unit := fun _ entries =>
    match lookupEntry key entries with
    | none => .ok ((), entries)
    | some (.tables ..) => .ok ((), entries)
    | some _ => .error .duplicateKey
  let (_, root) ← descend false change path .declared (← d.close)
  return { root, open? := some ⟨path, key, true⟩ }

def add (d : Draft) (path : List String) (key : String) (v : Value) : Except Fault Draft :=
  return { d with entries := ← addValue path key v d.entries }

def finish (d : Draft) : Except Fault Value := return .table (finishedEntries (← d.close))

end Draft

end RuleEngine.Toml
