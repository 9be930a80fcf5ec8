/-
  RuleEngine/Guest/Code.lean
  ==========================
  **Guest code.**

  What a function of a guest does is told by what it asks for, one thing after the
  other, and by how it goes on with each answer: bytes of its memory, registers that
  keep their contents between calls, and the six functions that the host offers.  It
  burns fuel on its way.  In the end it returns, traps, or has used up its fuel.
-/
import RuleEngine.Guest.Memory

namespace RuleEngine.Guest

/-- What a function of a guest does until it returns something. -/
inductive Code (α : Type) : Type where
  | done (result : α)
  | trap (cause : String)
  /-- Run in circles until the fuel is gone. -/
  | outOfFuel
  /-- Use up fuel; the code goes on only if some is left then. -/
  | burn (units : Nat) (next : Code α)
  /-- Read a byte of memory, if the address lies inside. -/
  | load (address : Nat) (next : Option UInt8 → Code α)
  /-- Write a byte of memory; the answer tells whether the address lies inside. -/
  | store (address : Nat) (byte : UInt8) (next : Bool → Code α)
  /-- Ask for more pages of memory; the answer tells how many there were, if there are more now. -/
  | grow (more : Nat) (next : Option Nat → Code α)
  | readRegister (number : Nat) (next : Int64 → Code α)
  | writeRegister (number : Nat) (value : Int64) (next : Code α)
  | log (start length : Int32) (next : Code α)
  | sendMessage (start length : Int32) (next : Code α)
  | runCommand (start length : Int32) (next : Code α)
  | setProperty (keyStart keyLength valueStart valueLength : Int32) (next : Code α)
  | getProperty (keyStart keyLength out capacity : Int32) (next : Int32 → Code α)
  | subjectId (out capacity : Int32) (next : Int32 → Code α)

/-- Code that goes on with what other code returns. -/
def Code.andThen {α β : Type} (next : α → Code β) : Code α → Code β
  | .done result => next result
  | .trap cause => .trap cause
  | .outOfFuel => .outOfFuel
  | .burn units more => .burn units (more.andThen next)
  | .load address more => .load address fun byte? => (more byte?).andThen next
  | .store address byte more => .store address byte fun done => (more done).andThen next
  | .grow pages more => .grow pages fun before? => (more before?).andThen next
  | .readRegister number more => .readRegister number fun value => (more value).andThen next
  | .writeRegister number value more => .writeRegister number value (more.andThen next)
  | .log start length more => .log start length (more.andThen next)
  | .sendMessage start length more => .sendMessage start length (more.andThen next)
  | .runCommand start length more => .runCommand start length (more.andThen next)
  | .setProperty keyStart keyLength valueStart valueLength more =>
    .setProperty keyStart keyLength valueStart valueLength (more.andThen next)
  | .getProperty keyStart keyLength out capacity more =>
    .getProperty keyStart keyLength out capacity fun length => (more length).andThen next
  | .subjectId out capacity more =>
    .subjectId out capacity fun length => (more length).andThen next

abbrev Registers := Nat → Int64

def Registers.write (r : Registers) (number : Nat) (value : Int64) : Registers :=
  fun n => if n = number then value else r n

end RuleEngine.Guest
