/-
  RuleEngine/Guest/Program.lean
  =============================
  **Programs of guests.**

  A program is a way to write guest code: instructions that work on an accumulator
  and on memory, and call the host; any code may be among them.  Guest numbers are
  32 bits wide and wrap.
-/
import RuleEngine.Guest.Code

namespace RuleEngine.Guest

/-! ### Instructions -/

/-- An operand: a number, or a register of the call. -/
inductive Operand where
  | literal (value : Int32)
  | ptr
  | len
  | acc
deriving DecidableEq, Repr

inductive Test where
  | eq
  | ne
  | ge
  | lt
deriving DecidableEq, Repr

inductive Instruction where
  | set (value : Operand)
  | add (value : Operand)
  | sub (value : Operand)
  /-- Set the accumulator to one if the test holds and to zero if not. -/
  | test (test : Test) (value : Operand)
  | load (address : Operand)
  | store (address value : Operand)
  | log (start length : Operand)
  | sendMessage (start length : Operand)
  | runCommand (start length : Operand)
  | setProperty (keyStart keyLength valueStart valueLength : Operand)
  | getProperty (keyStart keyLength out capacity : Operand)
  | subjectId (out capacity : Operand)
  /-- Run a program if the accumulator is not zero. -/
  | ifAcc (body : List Instruction)
  | trap
  /-- Run in circles until the fuel is gone. -/
  | spin
  /-- Set the accumulator to what some code returns for the address and the length of
      the payload and the accumulator. -/
  | compute (code : Int32 → Int32 → Int32 → Code Int32)

abbrev Program := List Instruction

/-! ### The code of a program -/

/-- An address or a length as the memory takes it: 32 bits without a sign. -/
def unsigned (x : Int32) : Nat := x.toUInt32.toNat

def Operand.value (ptr len acc : Int32) : Operand → Int32
  | literal v => v
  | .ptr => ptr
  | .len => len
  | .acc => acc

def Test.holds : Test → Int32 → Int32 → Bool
  | eq, x, y => x == y
  | ne, x, y => x != y
  | ge, x, y => y ≤ x
  | lt, x, y => x < y

mutual

/-- The code of an instruction, in front of that of the rest of the program, which the
    accumulator is handed on to. -/
def Instruction.code (ptr len acc : Int32) (rest : Int32 → Code Int32) : Instruction → Code Int32
  | .set v => rest (v.value ptr len acc)
  | .add v => rest (acc + v.value ptr len acc)
  | .sub v => rest (acc - v.value ptr len acc)
  | .test t v => rest (if t.holds acc (v.value ptr len acc) then 1 else 0)
  | .load a =>
    .load (unsigned (a.value ptr len acc)) fun
      | some b => rest (Int32.ofNat b.toNat)
      | none => .trap "out of bounds memory access"
  | .store a v =>
    .store (unsigned (a.value ptr len acc)) (UInt8.ofNat (unsigned (v.value ptr len acc))) fun
      | true => rest acc
      | false => .trap "out of bounds memory access"
  | .log a b => .log (a.value ptr len acc) (b.value ptr len acc) (rest acc)
  | .sendMessage a b => .sendMessage (a.value ptr len acc) (b.value ptr len acc) (rest acc)
  | .runCommand a b => .runCommand (a.value ptr len acc) (b.value ptr len acc) (rest acc)
  | .setProperty a b c d =>
    .setProperty (a.value ptr len acc) (b.value ptr len acc) (c.value ptr len acc)
      (d.value ptr len acc) (rest acc)
  | .getProperty a b c d =>
    .getProperty (a.value ptr len acc) (b.value ptr len acc) (c.value ptr len acc)
      (d.value ptr len acc) rest
  | .subjectId a b => .subjectId (a.value ptr len acc) (b.value ptr len acc) rest
  | .ifAcc body => if acc != 0 then codeAll ptr len acc rest body else rest acc
  | .trap => .trap "unreachable instruction executed"
  | .spin => .outOfFuel
  | .compute code => (code ptr len acc).andThen rest

def codeAll (ptr len acc : Int32) (rest : Int32 → Code Int32) : List Instruction → Code Int32
  | [] => rest acc
  | i :: more => i.code ptr len acc fun acc => codeAll ptr len acc rest more

end

/-- The code of a program for a payload, which returns what the accumulator holds in the
    end. -/
def Program.code (program : Program) (ptr len : Int32) : Code Int32 :=
  codeAll ptr len 0 .done program

end RuleEngine.Guest
