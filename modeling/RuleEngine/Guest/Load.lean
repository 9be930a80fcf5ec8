/-
  RuleEngine/Guest/Load.lean
  ==========================
  **Loading a guest module.**

  A module is instantiated, asked what it adds, and looked through for the functions
  that calls need.  The steps come in a fixed order, and the first that fails says
  why the module is not loaded.  Its code already runs then, on the fuel of one call and
  with no context attached.
-/
import RuleEngine.Expansion.Error
import RuleEngine.FileTree
import RuleEngine.Guest.Call
import RuleEngine.Guest.Source
import RuleEngine.Text.Blank

namespace RuleEngine.Guest

/-- What a file names the module it holds: the parts that its texts leave open are
    all absent. -/
def Module.bare : Module :=
  { typeKey := .absent, version := .absent, author := .absent, alloc := .absent,
    exportsMemory := false }

/-- The first bytes of a module in binary form. -/
def binaryHeader : List UInt8 := [0x00, 0x61, 0x73, 0x6D, 0x01, 0x00, 0x00, 0x00]

/-- The module in some bytes, or why there is none.  Only the empty module is
    understood, in its binary form and as text. -/
def Module.ofBytes (path : String) (bytes : List UInt8) : Except String Module :=
  if bytes == binaryHeader then .ok .bare
  else if (binaryHeader.take 4).isPrefixOf bytes then .error s!"{path}: not a module"
  else
    match Text.decodeUtf8? bytes with
    | none => .error s!"{path}: not a text"
    | some text =>
      match sourceFault? text with
      | none => .ok .bare
      | some fault => .error (fault.shown path text)

def Module.ofContent (path : String) : FileContent → Except String Module
  | .module m => .ok m
  | .bytes bytes => ofBytes path bytes

/-- The memory that a module starts with, if its data lies inside. -/
def Module.startMemory? (m : Module) : Option Memory :=
  m.data.foldl (fun memory? segment =>
    memory?.bind fun (memory : Memory) => memory.write? segment.1 segment.2)
    (some (Memory.ofPages m.pages))

def wrongSignature (name : String) : ExpansionError :=
  .incompatible s!"export '{name}' has the wrong signature: type mismatch"

def optionalExport {α : Type} (name : String) : Export α → Except ExpansionError (Option α)
  | .absent => .ok none
  | .illTyped => .error (wrongSignature name)
  | .present value => .ok (some value)

def requiredExport {α : Type} (name : String) (e : Export α) : Except ExpansionError α := do
  match ← optionalExport name e with
  | some value => return value
  | none => .error (.missingExport name)

abbrev Loading := EStateM ExpansionError Machine

namespace Loading

def ofExcept {α : Type} : Except ExpansionError α → Loading α
  | .ok value => pure value
  | .error cause => throw cause

/-- Fail unless something holds. -/
def ensure (holds : Bool) (cause : ExpansionError) : Loading Unit :=
  if holds then pure () else throw cause

/-- Run guest code; that it stops before its end is an error. -/
def runCode {α : Type} (f : Frame) (error : String → ExpansionError) (code : Code α) : Loading α :=
  fun m =>
    match Step.runCode f code m with
    | .ok value m => .ok value m
    | .error stop m => .error (error stop.text) m

def answered {α : Type} (f : Frame) (name : String) : Answer α → Loading α
  | .returns value => pure value
  | .traps => throw (.invalidMetadata s!"{name}: unreachable instruction executed")
  | .computes code => runCode f (fun cause => .invalidMetadata s!"{name}: {cause}") code

def metadata (f : Frame) (name : String) (e : Export (Answer Packed)) : Loading String := do
  let packed ← answered f name (← ofExcept (requiredExport name e))
  match (← get).memory.read? packed.start packed.length with
  | none => throw (.invalidMetadata s!"{name} points outside memory")
  | some bytes =>
    match Text.decodeUtf8? bytes with
    | some text => return text
    | none => throw (.invalidMetadata s!"{name} is not valid UTF-8")

def instantiate (m : Module) : Loading Unit := do
  match m.unknownImport? with
  | some name => throw (.instantiate s!"unknown import {name}")
  | none =>
    match m.startMemory? with
    | none => throw (.instantiate "out of bounds memory access")
    | some memory => do
      modify ({ · with memory, registers := m.registers })
      ensure (!m.startTraps) (.instantiate "unreachable instruction executed")
      runCode { label := "", exportsMemory := m.exportsMemory } .instantiate m.start

/-- The kind of rules that a module adds; actions if it does not say. -/
def kindOf (f : Frame) (m : Module) : Loading RuleKind := do
  match ← ofExcept (optionalExport "expansion_kind" m.kind) with
  | none => return .action
  | some answer => do
    let code ← answered f "expansion_kind" answer
    match kindOfCode? code with
    | some kind => return kind
    | none => throw (.incompatible s!"unknown expansion kind {code.toInt}")

end Loading

def entryOf (m : Module) : RuleKind → Except ExpansionError Program
  | .action => requiredExport "run" m.run
  | .requirement => requiredExport "check" m.check

/-- Instantiate a module, ask what it adds, and find its functions.  Log lines name it by
    its key as soon as that is known. -/
def Module.described (m : Module) (fuel : Nat) : Loading Instance := do
  Loading.instantiate m
  Loading.ensure m.exportsMemory (.missingExport "memory")
  let typeKey ← Loading.metadata { label := "" } "expansion_type_key" m.typeKey
  Loading.ensure (!(Text.trim typeKey).isEmpty) (.invalidMetadata "type key is empty")
  let version ← Loading.metadata { label := "" } "expansion_version" m.version
  let author ← Loading.metadata { label := "" } "expansion_author" m.author
  let kind ← Loading.kindOf { label := typeKey } m
  let entry ← Loading.ofExcept (entryOf m kind)
  let alloc? ← Loading.ofExcept (optionalExport "alloc" m.alloc)
  let validate? ← Loading.ofExcept (optionalExport "validate" m.validate)
  return { typeKey, version, author, kind, entry, validate?, alloc?, fuel, memory := .zero }

/-- Load a module, which keeps its store. -/
def Module.loading (m : Module) (fuel : Nat) : Loading Instance := do
  let guest ← m.described fuel
  return guest.withStore (← get).toStore

def Module.loadIn (m : Module) (w : World) (fuel : Nat) : Except ExpansionError Instance × World :=
  match m.loading fuel { memory := .ofPages 0, fuel, world := w } with
  | .ok guest machine => (.ok guest, machine.world)
  | .error cause machine => (.error cause, machine.world)

def loadIn (w : World) (fuel : Nat) (path : String) (content : FileContent) :
    Except ExpansionError Instance × World :=
  match Module.ofContent path content with
  | .error cause => (.error (.incompatible cause), w)
  | .ok m => m.loadIn w fuel

/-- The guest that the module of a file is loaded as, which is the same in every world. -/
def load (fuel : Nat) (path : String) (content : FileContent) : Except ExpansionError Instance :=
  (loadIn {} fuel path content).1

end RuleEngine.Guest
