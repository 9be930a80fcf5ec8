/-
  RuleEngine/Proofs/Guest/Host.lean
  =================================
  **Host functions and the memory of a guest.**

  A guest names ranges of its memory by signed numbers of 32 bits, which the host takes
  without their sign; a range that does not lie inside has no text (`text?_eq_none_iff`).
  The host writes to memory in two functions only, and both copy a text into a buffer as far
  as it fits (`Copies`): no byte outside of the part that is copied changes, and a part that
  does not lie inside of memory is not copied at all.  The main statement
  (`host_keeps_to_ranges`) says so of every function, for all arguments.
-/
import RuleEngine.Proofs.Guest.Attached

namespace RuleEngine

namespace Guest

/-! ### Reading a range -/

/-- The host finds a range of bytes in the memory of a guest. -/
def Frame.Reaches (f : Frame) (memory : Memory) (start length : Int32) : Prop :=
  f.exportsMemory = true ∧ unsigned start + unsigned length ≤ memory.size

def Frame.text? (f : Frame) (memory : Memory) (start length : Int32) : Option String :=
  if f.exportsMemory then (memory.read? (unsigned start) (unsigned length)).map Text.decodeLenient
  else none

section Reading

variable {f : Frame} {memory : Memory} {start length : Int32}

theorem text?_eq_none_iff :
    f.text? memory start length = none ↔ ¬ f.Reaches memory start length := by
  unfold Frame.text? Frame.Reaches Memory.read?
  cases f.exportsMemory with
  | false => simp
  | true =>
    by_cases hfits : unsigned start + unsigned length ≤ memory.size
    · simp [hfits]
    · simp [hfits]

/-- Reading a text never fails; a range outside of memory has none. -/
theorem readText_eq (f : Frame) (start length : Int32) (m : Machine) :
    Step.readText f start length m = .ok (f.text? m.memory start length) m := by
  unfold Step.readText Frame.text?
  cases f.exportsMemory <;> rfl

end Reading

/-! ### Copying a text -/

/-- The bytes of a text that a buffer has room for. -/
def fitting (capacity : Int32) (text : String) : List UInt8 :=
  (Text.encodeUtf8 text).take (max capacity.toInt 0).toNat

theorem length_fitting (capacity : Int32) (text : String) :
    (fitting capacity text).length =
      min (Text.encodeUtf8 text).length (max capacity.toInt 0).toNat := by
  rw [fitting, List.length_take, Nat.min_comm]

theorem toInt_lengthAnswer (n : Nat) : (lengthAnswer n).toInt = min (n : Int) int32Max := by
  have hmax : int32Max = 2147483647 := rfl
  rw [lengthAnswer, hmax]
  apply Int32.toInt_ofInt_of_le
  · omega
  · omega

/-- From an address on, memory is overwritten with some bytes. -/
structure Memory.Overwrites (memory : Memory) (start : Nat) (bytes : List UInt8)
    (memory' : Memory) : Prop where
  size_eq : memory'.size = memory.size
  inside : ∀ i < bytes.length, memory'.byte? (start + i) = bytes[i]?
  outside : ∀ address, address < start ∨ start + bytes.length ≤ address →
    memory'.byte? address = memory.byte? address

theorem Memory.overwrites_nil (memory : Memory) (start : Nat) :
    memory.Overwrites start [] memory where
  size_eq := rfl
  inside _ hi := absurd hi (Nat.not_lt_zero _)
  outside _ _ := rfl

theorem Memory.overwrites_of_write? {memory memory' : Memory} {start : Nat} {bytes : List UInt8}
    (h : memory.write? start bytes = some memory') : memory.Overwrites start bytes memory' := by
  unfold write? at h
  split at h
  · rename_i hfits
    cases h
    constructor
    · exact size_put memory start bytes
    · intro i hi
      exact byte?_put_inside memory start bytes i hi hfits
    · intro address haddress
      exact byte?_put_outside memory start bytes address haddress
  · cases h

theorem Memory.write?_eq_none_iff {memory : Memory} {start : Nat} {bytes : List UInt8} :
    memory.write? start bytes = none ↔ memory.size < start + bytes.length := by
  unfold write?
  split
  · simpa
  · simp
    omega

/-- A buffer takes up the part of a text that is to be copied: it is empty, or the host finds
    it in memory. -/
def Frame.HasRoom (f : Frame) (memory : Memory) (out capacity : Int32) (text : String) : Prop :=
  f.exportsMemory = true ∧
    (fitting capacity text = [] ∨
      unsigned out + (fitting capacity text).length ≤ memory.size)

/-- A text is copied into a buffer as far as it fits, and its full length is answered; where
    the buffer does not take it up nothing happens, and the answer says so. -/
structure Copies (f : Frame) (out capacity : Int32) (text : String) (m : Machine)
    (answer : Int32) (m' : Machine) : Prop where
  same : m' = { m with memory := m'.memory }
  outside : ∀ address, address < unsigned out ∨
    unsigned out + (fitting capacity text).length ≤ address →
    m'.memory.byte? address = m.memory.byte? address
  copied : f.HasRoom m.memory out capacity text →
    answer.toInt = min ((Text.encodeUtf8 text).length : Int) int32Max ∧
      m.memory.Overwrites (unsigned out) (fitting capacity text) m'.memory
  refused : ¬ f.HasRoom m.memory out capacity text → answer = -1 ∧ m' = m

section Copying

variable {f : Frame} {out capacity : Int32} {text : String} {m : Machine}

theorem copies_of_refused (h : ¬ f.HasRoom m.memory out capacity text) :
    Copies f out capacity text m (-1) m where
  same := rfl
  outside _ _ := rfl
  copied hroom := absurd hroom h
  refused _ := ⟨rfl, rfl⟩

theorem copies_of_overwrites {memory : Memory} (h : f.HasRoom m.memory out capacity text)
    (hmemory : m.memory.Overwrites (unsigned out) (fitting capacity text) memory) :
    Copies f out capacity text m (lengthAnswer (Text.encodeUtf8 text).length)
      { m with memory } where
  same := rfl
  outside := hmemory.outside
  copied _ := ⟨toInt_lengthAnswer _, hmemory⟩
  refused hnot := absurd h hnot

theorem hasRoom_of_write? {memory : Memory} (hexports : f.exportsMemory = true)
    (h : m.memory.write? (unsigned out) (fitting capacity text) = some memory) :
    f.HasRoom m.memory out capacity text := by
  refine ⟨hexports, .inr (Nat.le_of_not_lt fun hlt => ?_)⟩
  rw [Memory.write?_eq_none_iff.mpr hlt] at h
  cases h

/-- Writing a text copies as much as fits and answers the full length. -/
theorem writeText_copies (f : Frame) (out capacity : Int32) (text : String) (m : Machine) :
    ∃ answer m', Step.writeText f out capacity text m = .ok answer m' ∧
      Copies f out capacity text m answer m' := by
  have htake :
      (Text.encodeUtf8 text).take (fitting capacity text).length = fitting capacity text := by
    rw [length_fitting, Nat.min_comm, ← List.take_take, List.take_length, fitting]
  unfold Step.writeText
  cases hexports : f.exportsMemory with
  | false =>
    refine ⟨-1, m, rfl, copies_of_refused ?_⟩
    rintro ⟨hroom, -⟩
    rw [hexports] at hroom
    cases hroom
  | true =>
    simp only [Bool.not_true, Bool.false_eq_true, if_false, ← length_fitting, htake]
    split
    · rename_i hempty
      rw [List.length_eq_zero_iff] at hempty
      have hnothing := m.memory.overwrites_nil (unsigned out)
      rw [← hempty] at hnothing
      exact ⟨_, m, rfl, copies_of_overwrites ⟨hexports, .inl hempty⟩ hnothing⟩
    · rename_i hsome
      rw [get_bind_apply]
      cases hwrite : m.memory.write? (unsigned out) (fitting capacity text) with
      | some memory =>
        exact ⟨_, { m with memory }, rfl, copies_of_overwrites (hasRoom_of_write? hexports hwrite)
          (Memory.overwrites_of_write? hwrite)⟩
      | none =>
        refine ⟨-1, m, rfl, copies_of_refused ?_⟩
        rintro ⟨-, hempty | hfits⟩
        · exact hsome (List.length_eq_zero_iff.mpr hempty)
        · exact absurd (Memory.write?_eq_none_iff.mp hwrite) (Nat.not_lt_of_le hfits)

end Copying

/-! ### Functions of the host -/

section Functions

variable {f : Frame} {m : Machine} {c : ContextId}

theorem attached_eq (h : m.attached? = some c) : Step.attached f m = .ok (some c) m := by
  unfold Step.attached
  rw [get_bind_apply, h]
  rfl

/-- A line is logged if it is read, with a context attached or without one. -/
theorem log_eq (f : Frame) (start length : Int32) (m : Machine) :
    Step.log f start length m =
      match f.text? m.memory start length with
      | some text => .ok () (m.changed (·.report (.guestLog f.label text)))
      | none => .ok () m := by
  unfold Step.log
  rw [bind_apply, readText_eq]
  cases f.text? m.memory start length <;> rfl

def sendAll (text : String) : List Subject → Step Unit
  | [] => pure ()
  | target :: rest => do
    Step.deliver (.message target text)
    sendAll text rest

theorem forIn_deliver (text : String) (targets : List Subject) :
    (do for target in targets do Step.deliver (.message target text)) = sendAll text targets := by
  induction targets with
  | nil => rfl
  | cons target rest ih =>
    rw [sendAll, ← ih]
    simp

/-- A message that is read goes to all recipients of the context. -/
theorem sendMessage_eq (h : m.attached? = some c) (start length : Int32) :
    Step.sendMessage f start length m =
      match f.text? m.memory start length with
      | some text => sendAll text (m.world.context c).recipients m
      | none => .ok () m := by
  unfold Step.sendMessage
  rw [bind_apply, attached_eq h]
  simp only
  rw [bind_apply, readText_eq]
  cases f.text? m.memory start length with
  | some text => exact congrFun (forIn_deliver text (m.world.context c).recipients) m
  | none => rfl

/-- A command that is read is run in the name of the subject of the context. -/
theorem runCommand_eq (h : m.attached? = some c) (start length : Int32) :
    Step.runCommand f start length m =
      match f.text? m.memory start length with
      | some text => Step.deliver (.command (m.world.context c).subject text) m
      | none => .ok () m := by
  unfold Step.runCommand
  rw [bind_apply, attached_eq h]
  simp only
  rw [bind_apply, readText_eq]
  cases f.text? m.memory start length <;> rfl

/-- Setting a property changes it if both its key and its value are read, and nothing otherwise. -/
theorem setProperty_eq (h : m.attached? = some c)
    (keyStart keyLength valueStart valueLength : Int32) :
    Step.setProperty f keyStart keyLength valueStart valueLength m =
      match f.text? m.memory keyStart keyLength, f.text? m.memory valueStart valueLength with
      | some key, some value =>
        .ok () (m.changed fun w => w.setContext c ((w.context c).set key (.ofText value)))
      | _, _ => .ok () m := by
  unfold Step.setProperty
  rw [bind_apply, attached_eq h]
  simp only
  rw [bind_apply, readText_eq]
  simp only
  rw [bind_apply, readText_eq]
  cases f.text? m.memory keyStart keyLength with
  | none => rfl
  | some key => cases f.text? m.memory valueStart valueLength <;> rfl

/-- A property is copied out if its key is read and it has a text; the answer is `-1` otherwise. -/
theorem getProperty_eq (h : m.attached? = some c) (keyStart keyLength out capacity : Int32) :
    Step.getProperty f keyStart keyLength out capacity m =
      match (f.text? m.memory keyStart keyLength).bind (m.world.context c).text? with
      | some text => Step.writeText f out capacity text m
      | none => .ok (-1) m := by
  unfold Step.getProperty
  rw [bind_apply, attached_eq h]
  simp only
  rw [bind_apply, readText_eq]
  cases f.text? m.memory keyStart keyLength with
  | none => rfl
  | some key =>
    simp only
    rw [get_bind_apply, Option.bind_some]
    cases (m.world.context c).text? key <;> rfl

theorem subjectId_eq (h : m.attached? = some c) (out capacity : Int32) :
    Step.subjectId f out capacity m =
      Step.writeText f out capacity (m.world.context c).subject.id m := by
  unfold Step.subjectId
  rw [bind_apply, attached_eq h]
  rfl

end Functions

/-- The host keeps to the ranges that a guest names, whatever numbers it names them by.

    Without a context, the functions that act on one remark on that and do nothing else, and
    those that answer say that there is nothing.  With one, a property and the id of the
    subject are copied into the buffer of the guest as far as they fit; if the property is
    missing or its key out of range, memory stays as it is.  The other functions do nothing at
    all when one of their ranges does not lie inside of memory. -/
theorem host_keeps_to_ranges (f : Frame) (m : Machine) :
    (m.attached? = none →
      let remarked := m.changed (·.report (.guestDetached f.label))
      (∀ keyStart keyLength out capacity,
        Step.getProperty f keyStart keyLength out capacity m = .ok (-1) remarked) ∧
      (∀ out capacity, Step.subjectId f out capacity m = .ok (-1) remarked) ∧
      (∀ start length, Step.sendMessage f start length m = .ok () remarked ∧
        Step.runCommand f start length m = .ok () remarked) ∧
      (∀ keyStart keyLength valueStart valueLength,
        Step.setProperty f keyStart keyLength valueStart valueLength m = .ok () remarked)) ∧
    (∀ c, m.attached? = some c →
      (∀ keyStart keyLength out capacity, ¬ f.Reaches m.memory keyStart keyLength →
        Step.getProperty f keyStart keyLength out capacity m = .ok (-1) m) ∧
      (∀ keyStart keyLength out capacity key, f.text? m.memory keyStart keyLength = some key →
        (m.world.context c).text? key = none →
        Step.getProperty f keyStart keyLength out capacity m = .ok (-1) m) ∧
      (∀ keyStart keyLength out capacity key text,
        f.text? m.memory keyStart keyLength = some key →
        (m.world.context c).text? key = some text →
        ∃ answer m', Step.getProperty f keyStart keyLength out capacity m = .ok answer m' ∧
          Copies f out capacity text m answer m') ∧
      (∀ out capacity, ∃ answer m', Step.subjectId f out capacity m = .ok answer m' ∧
        Copies f out capacity (m.world.context c).subject.id m answer m') ∧
      (∀ start length, ¬ f.Reaches m.memory start length →
        Step.sendMessage f start length m = .ok () m ∧
          Step.runCommand f start length m = .ok () m) ∧
      (∀ keyStart keyLength valueStart valueLength,
        ¬ f.Reaches m.memory keyStart keyLength ∨ ¬ f.Reaches m.memory valueStart valueLength →
        Step.setProperty f keyStart keyLength valueStart valueLength m = .ok () m)) ∧
    (∀ start length, ¬ f.Reaches m.memory start length →
      Step.log f start length m = .ok () m) := by
  refine ⟨?_, ?_, ?_⟩
  · intro hnone
    refine ⟨?_, ?_, ?_, ?_⟩
    · intro keyStart keyLength out capacity
      exact getProperty_detached f hnone m.world keyStart keyLength out capacity
    · intro out capacity
      exact subjectId_detached f hnone m.world out capacity
    · intro start length
      exact ⟨sendMessage_detached f hnone m.world start length,
        runCommand_detached f hnone m.world start length⟩
    · intro keyStart keyLength valueStart valueLength
      exact setProperty_detached f hnone m.world keyStart keyLength valueStart valueLength
  · intro c hc
    refine ⟨?_, ?_, ?_, ?_, ?_, ?_⟩
    · intro keyStart keyLength out capacity hkey
      rw [getProperty_eq hc, text?_eq_none_iff.mpr hkey]
      rfl
    · intro keyStart keyLength out capacity key hkey hmissing
      rw [getProperty_eq hc, hkey, Option.bind_some, hmissing]
    · intro keyStart keyLength out capacity key text hkey htext
      rw [getProperty_eq hc, hkey, Option.bind_some, htext]
      exact writeText_copies f out capacity text m
    · intro out capacity
      rw [subjectId_eq hc]
      exact writeText_copies f out capacity _ m
    · intro start length hrange
      rw [sendMessage_eq hc, runCommand_eq hc, text?_eq_none_iff.mpr hrange]
      exact ⟨rfl, rfl⟩
    · intro keyStart keyLength valueStart valueLength hranges
      rw [setProperty_eq hc]
      rcases hranges with hkey | hvalue
      · rw [text?_eq_none_iff.mpr hkey]
      · rw [text?_eq_none_iff.mpr hvalue]
        cases f.text? m.memory keyStart keyLength <;> rfl
  · intro start length hrange
    rw [log_eq, text?_eq_none_iff.mpr hrange]

def smallMachine : Machine :=
  { memory := ⟨#[0x6B, 0, 0]⟩, attached? := some 0,
    world := { contexts :=
      [{ subject := .ofName "ann", properties := [("k", .ofText "ab")] }] } }

/-- A buffer of one byte holds the first byte of two, and the guest is told of both. -/
theorem host_keeps_to_ranges_shortBuffer :
    ∃ answer m', Step.getProperty { label := "small" } 0 1 1 1 smallMachine = .ok answer m' ∧
      answer.toInt = 2 ∧ m'.memory.byte? 1 = some 0x61 ∧ m'.memory.byte? 2 = some 0 := by
  obtain ⟨-, hattached, -⟩ := host_keeps_to_ranges { label := "small" } smallMachine
  obtain ⟨-, -, hcopy, -⟩ := hattached 0 rfl
  have hkey : Frame.text? { label := "small" } smallMachine.memory 0 1 = some "k" := by
    decide +kernel
  have htext : (smallMachine.world.context 0).text? "k" = some "ab" := by
    decide +kernel
  have hfitting : fitting 1 "ab" = [0x61] := by
    decide +kernel
  obtain ⟨answer, m', hstep, hcopies⟩ := hcopy 0 1 1 1 "k" "ab" hkey htext
  have hroom : Frame.HasRoom { label := "small" } smallMachine.memory 1 1 "ab" := by
    refine ⟨rfl, .inr ?_⟩
    rw [hfitting]
    decide +kernel
  obtain ⟨hanswer, hmemory⟩ := hcopies.copied hroom
  rw [hfitting] at hmemory
  refine ⟨answer, m', hstep, ?_, ?_, ?_⟩
  · rw [hanswer]
    decide +kernel
  · exact hmemory.inside 0 Nat.zero_lt_one
  · exact hmemory.outside 2 (.inr (Nat.le_refl 2))

end Guest

end RuleEngine
