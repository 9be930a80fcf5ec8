/-
  RuleEngine/Guest/Module.lean
  ============================
  **Guest modules.**

  An expansion is a module of guest code that adds one type of rule.  It names the
  key of the type, its version and its author, says of which kind the type is, and
  exports the program that a rule of the type runs.
-/
import RuleEngine.Context
import RuleEngine.Guest.Program

namespace RuleEngine.Guest

/-! ### Modules -/

inductive Export (α : Type) where
  | absent
  /-- A function of another type than the host expects. -/
  | illTyped
  | present (value : α)
deriving DecidableEq, Repr

inductive Answer (α : Type) where
  | returns (value : α)
  | traps
  | computes (code : Code α)

structure Packed where
  start : Nat
  length : Nat
deriving DecidableEq, Repr

/-- How a module hands out memory for a payload. -/
inductive Allocator where
  /-- Take the bytes after those taken before. -/
  | bump
  /-- Always the same place. -/
  | fixed (address : Int32)
  | trapping
  /-- Any code that returns an address for a length. -/
  | computes (code : Int32 → Code Int32)

structure Module where
  typeKey : Export (Answer Packed)
  version : Export (Answer Packed)
  author : Export (Answer Packed)
  kind : Export (Answer Int32) := .absent
  run : Export Program := .absent
  check : Export Program := .absent
  validate : Export Program := .absent
  alloc : Export Allocator := .present .bump
  exportsMemory : Bool := true
  /-- How many pages the memory has at first. -/
  pages : Nat := 1
  /-- What the memory holds before the first call, as writes in order. -/
  data : List (Nat × List UInt8) := []
  /-- What the registers hold before the first call. -/
  registers : Registers := fun _ => 0
  /-- The start function traps. -/
  startTraps : Bool := false
  /-- What the start function does unless it traps. -/
  start : Code Unit := .done ()
  /-- An import that the host does not offer. -/
  unknownImport? : Option String := none

/-- The place after which the bump allocator hands out memory. -/
def heapStart : Int32 := 4096

/-- The kind of rules that a module adds, told by its number. -/
def kindOfCode? (code : Int32) : Option RuleKind :=
  if code = 0 then some .action else if code = 1 then some .requirement else none

/-! ### Loaded modules -/

/-- A loaded module: what it said about itself, its programs, and its store, which
    lives as long as it. -/
structure Instance where
  typeKey : String
  version : String
  author : String
  kind : RuleKind
  /-- The program that a rule of the type runs. -/
  entry : Program
  validate? : Option Program
  alloc? : Option Allocator
  /-- The units of fuel that a call may use. -/
  fuel : Nat
  memory : Memory
  heap : Int32 := heapStart
  registers : Registers := fun _ => 0
  /-- The units of fuel that the last call has left in the store. -/
  fuelLeft : Nat := 0
  /-- The context that is attached to the store. -/
  attached? : Option ContextId := none

instance : Inhabited Instance :=
  ⟨{ typeKey := "", version := "", author := "", kind := .action, entry := [],
     validate? := none, alloc? := none, fuel := 0, memory := .zero }⟩

end RuleEngine.Guest
