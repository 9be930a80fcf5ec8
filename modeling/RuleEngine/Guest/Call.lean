/-
  RuleEngine/Guest/Call.lean
  ==========================
  **Calling a guest.**

  A call hands the guest its payload, lets its program run, and takes back what it
  answered.  While a rule is triggered the context is attached to the store of the
  guest, and the host functions act on it; while a value is validated none is
  attached, and they answer that there is nothing.  All that runs in a call shares one
  budget of fuel.  A program that traps ends the call; what it did before stays done.
-/
import RuleEngine.World

namespace RuleEngine.Guest

/-! ### The state of a call -/

/-- How the host knows a guest: by whom log lines name, and whether it finds the memory
    of the guest among its exports. -/
structure Frame where
  label : String
  exportsMemory : Bool := true

inductive Stop where
  | trapped (cause : String)
  | outOfFuel
  /-- A callback of the platform failed. -/
  | panicked (message : String)
deriving DecidableEq, Repr

structure Store where
  memory : Memory
  heap : Int32 := heapStart
  registers : Registers := fun _ => 0
  /-- The units of fuel that are left. -/
  fuel : Nat := 0
  /-- The context of the trigger, none outside of one. -/
  attached? : Option ContextId := none

/-- What guest code works on. -/
structure Machine extends Store where
  world : World

abbrev Step := EStateM Stop Machine

def int32Max : Int := Int32.maxValue.toInt

/-- A length as an answer, cut to what a guest can be told. -/
def lengthAnswer (n : Nat) : Int32 := Int32.ofInt (min (n : Int) int32Max)

namespace Step

def change (g : World → World) : Step Unit := modify fun m => { m with world := g m.world }

def report (n : Notice) : Step Unit := change (·.report n)

def trap {α : Type} (cause : String) : Step α := throw (.trapped cause)

/-- Stop because all fuel is used up. -/
def runDry {α : Type} : Step α := do
  modify ({ · with fuel := 0 })
  throw .outOfFuel

/-! ### Host functions -/

/-- The attached context.  Its absence is reported. -/
def attached (f : Frame) : Step (Option ContextId) := do
  match (← get).attached? with
  | some c => return some c
  | none => do
    report (.guestDetached f.label)
    return none

/-- The text in a range of memory, if the range lies inside. -/
def readText (f : Frame) (start length : Int32) : Step (Option String) := do
  if !f.exportsMemory then return none
  return ((← get).memory.read? (unsigned start) (unsigned length)).map Text.decodeLenient

/-- Copy as much of a text as fits into a buffer, and answer its full length. -/
def writeText (f : Frame) (out capacity : Int32) (text : String) : Step Int32 := do
  if !f.exportsMemory then return -1
  let bytes := Text.encodeUtf8 text
  let n := min bytes.length (max capacity.toInt 0).toNat
  if n = 0 then return lengthAnswer bytes.length
  match (← get).memory.write? (unsigned out) (bytes.take n) with
  | some memory => do
    modify ({ · with memory })
    return lengthAnswer bytes.length
  | none => return -1

def deliver (d : Delivery) : Step Unit := do
  match (← get).world.platform.fault (.deliver d) with
  | some message => throw (.panicked message)
  | none => change fun w => { w with deliveries := w.deliveries.push d }

def log (f : Frame) (start length : Int32) : Step Unit := do
  match ← readText f start length with
  | some text => report (.guestLog f.label text)
  | none => pure ()

def sendMessage (f : Frame) (start length : Int32) : Step Unit := do
  let context? ← attached f
  match context?, ← readText f start length with
  | some c, some text => do
    for target in ((← get).world.context c).recipients do
      deliver (.message target text)
  | _, _ => pure ()

def runCommand (f : Frame) (start length : Int32) : Step Unit := do
  let context? ← attached f
  match context?, ← readText f start length with
  | some c, some text => do deliver (.command ((← get).world.context c).subject text)
  | _, _ => pure ()

/-- Copy the text of a property into a buffer. -/
def getProperty (f : Frame) (keyStart keyLength out capacity : Int32) : Step Int32 := do
  match ← attached f with
  | none => return -1
  | some c =>
    match ← readText f keyStart keyLength with
    | none => return -1
    | some key =>
      match ((← get).world.context c).text? key with
      | none => return -1
      | some text => writeText f out capacity text

def setProperty (f : Frame) (keyStart keyLength valueStart valueLength : Int32) :
    Step Unit := do
  match ← attached f with
  | none => pure ()
  | some c => do
    let key? ← readText f keyStart keyLength
    let value? ← readText f valueStart valueLength
    match key?, value? with
    | some key, some value =>
      change fun w => w.setContext c ((w.context c).set key (.ofText value))
    | _, _ => pure ()

def subjectId (f : Frame) (out capacity : Int32) : Step Int32 := do
  match ← attached f with
  | none => return -1
  | some c => do writeText f out capacity ((← get).world.context c).subject.id

/-! ### Code -/

def runCode {α : Type} (f : Frame) : Code α → Step α
  | .done result => pure result
  | .trap cause => trap cause
  | .outOfFuel => runDry
  | .burn units next => do
    let fuel := (← get).fuel
    if units < fuel then
      modify ({ · with fuel := fuel - units })
      runCode f next
    else runDry
  | .load address next => do runCode f (next ((← get).memory.byte? address))
  | .store address byte next => do
    match (← get).memory.write? address [byte] with
    | some memory => do
      modify ({ · with memory })
      runCode f (next true)
    | none => runCode f (next false)
  | .grow more next => do
    let memory := (← get).memory
    match memory.grow? more with
    | some grown => do
      modify ({ · with memory := grown })
      runCode f (next (some memory.pages))
    | none => runCode f (next none)
  | .readRegister number next => do runCode f (next ((← get).registers number))
  | .writeRegister number value next => do
    modify fun m => { m with registers := m.registers.write number value }
    runCode f next
  | .log start length next => do
    log f start length
    runCode f next
  | .sendMessage start length next => do
    sendMessage f start length
    runCode f next
  | .runCommand start length next => do
    runCommand f start length
    runCode f next
  | .setProperty keyStart keyLength valueStart valueLength next => do
    setProperty f keyStart keyLength valueStart valueLength
    runCode f next
  | .getProperty keyStart keyLength out capacity next => do
    runCode f (next (← getProperty f keyStart keyLength out capacity))
  | .subjectId out capacity next => do runCode f (next (← subjectId f out capacity))

/-! ### Calls -/

/-- Reserve memory for a payload, and tell its address. -/
def reserve (f : Frame) (a : Allocator) (length : Int32) : Step Int32 :=
  match a with
  | .bump => do
    let address := (← get).heap
    modify ({ · with heap := address + length })
    return address
  | .fixed address => pure address
  | .trapping => trap "alloc trapped"
  | .computes code => fun m =>
    match runCode f (code length) m with
    | .error (.trapped cause) m => .error (.trapped s!"alloc trapped: {cause}") m
    | result => result

/-- Write a payload to the address that was reserved for it. -/
def writePayload (address : Int32) (bytes : List UInt8) : Step Unit := do
  match (← get).memory.write? (unsigned address) bytes with
  | some memory => modify ({ · with memory })
  | none => trap "alloc returned a pointer outside of memory"

/-- Put a payload into the memory of a guest, and tell the arguments of the program.
    Without an allocator, or for an empty payload, there is nothing to put and the
    arguments are zero. -/
def placePayload (f : Frame) (alloc? : Option Allocator) (payload : String) :
    Step (Int32 × Int32) :=
  let bytes := Text.encodeUtf8 payload
  match alloc? with
  | none => return (0, 0)
  | some a =>
    if bytes.isEmpty then return (0, 0)
    else if int32Max < bytes.length then trap "payload does not fit in guest memory"
    else do
      let length := Int32.ofNat bytes.length
      let address ← reserve f a length
      writePayload address bytes
      return (address, length)

/-- Take the context off the store after a step.  A panic passes by and leaves it. -/
def detaching {α : Type} (x : Step α) : Step α := fun m =>
  match x m with
  | .ok a m => .ok a { m with attached? := none }
  | .error (.panicked message) m => .error (.panicked message) m
  | .error stop m => .error stop { m with attached? := none }

/-- Call a program with a payload, with a budget of fuel and a context attached. -/
def call (label : String) (alloc? : Option Allocator) (fuel : Nat) (context? : Option ContextId)
    (program : Program) (payload : String) : Step Int32 := do
  modify ({ · with fuel, attached? := context? })
  detaching do
    let (ptr, len) ← placePayload { label } alloc? payload
    runCode { label } (program.code ptr len)

end Step

/-- What the program of a guest works on when a call begins. -/
def Instance.machine (guest : Instance) (world : World) : Machine :=
  { memory := guest.memory, heap := guest.heap, registers := guest.registers,
    fuel := guest.fuelLeft, attached? := guest.attached?, world }

def Instance.withStore (guest : Instance) (s : Store) : Instance :=
  { guest with memory := s.memory, heap := s.heap, registers := s.registers,
               fuelLeft := s.fuel, attached? := s.attached? }

/-- What a call of a guest comes to in the end: its answer, and the world with the store that
    the call leaves. -/
def Instance.outcome (guest : Instance) (g : GuestId) :
    EStateM.Result Stop Machine Int32 → Except Stop Int32 × World
  | .ok code m => (.ok code, m.world.setGuest g (guest.withStore m.toStore))
  | .error stop m => (.error stop, m.world.setGuest g (guest.withStore m.toStore))

/-- Call a program of a guest with a payload.  Tells what the accumulator holds in
    the end, or why the program stopped, and the world after it. -/
def invoke (w : World) (g : GuestId) (context? : Option ContextId) (program : Program)
    (payload : String) : Except Stop Int32 × World :=
  let guest := w.guest g
  guest.outcome g (Step.call guest.typeKey guest.alloc? guest.fuel context? program payload
    (guest.machine w))

def stopNotice (guest : Instance) : Stop → Notice
  | .outOfFuel => .guestOutOfFuel guest.typeKey guest.fuel
  | .trapped cause => .guestTrapped guest.typeKey cause
  | .panicked message => .guestTrapped guest.typeKey message

def Stop.text : Stop → String
  | .trapped cause => cause
  | .outOfFuel => "all fuel consumed"
  | .panicked message => message

/-- Ask a guest whether it accepts a value; the reason why not otherwise. -/
def validate (w : World) (g : GuestId) (source : String) : Option String × World :=
  let program := ((w.guest g).validate?).getD []
  match invoke w g none program source with
  | (.ok code, w) =>
    (if ((w.guest g).validate?).isNone || code == 0 then none
      else some s!"value rejected with code {code.toInt}", w)
  | (.error stop, w) => (some s!"validate failed: {stop.text}", w)

end RuleEngine.Guest

namespace RuleEngine.Run

/-- Run the program of a guest for a context.  Tells what the accumulator holds in
    the end; a program that stops is reported and tells nothing. -/
def guest (c : ContextId) (g : GuestId) (payload : String) : Run (Option Int32) := do
  let w ← ask id
  match Guest.invoke w g (some c) (w.guest g).entry payload with
  | (.ok code, w) => do
    change fun _ => w
    return some code
  | (.error (.panicked message), w) => do
    change fun _ => w
    panic message
  | (.error stop, w) => do
    change fun _ => w
    report (Guest.stopNotice (w.guest g) stop)
    return none

end RuleEngine.Run
