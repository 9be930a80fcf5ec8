/-
  RuleEngine/Proofs/Guest/Passage.lean
  ====================================
  **Passages of guest code.**

  Guest code runs step by step.  Some steps are its own (`Advances`): they concern memory,
  registers and fuel.  In others it calls the host (`Asks`).  A passage is a sequence of both,
  together with what the host was called for.  From any machine a passage leads to code that
  halts (`exists_passage`), and running code comes to what it halts with
  (`Passage.runCode_eq`).

  While a context is attached and the platform does not fail, the world after a passage is
  what the calls of the host made of it, each in its turn (`Passage.effect`).
-/
import RuleEngine.Proofs.Guest.Host

namespace RuleEngine

/-- No callback of the platform fails. -/
def World.Serves (w : World) : Prop := ∀ call, w.platform.fault call = none

namespace Guest

/-! ### Calls of the host -/

/-- What the host is called for, with the texts that it finds in memory. -/
inductive HostCall where
  | log (text? : Option String)
  | sendMessage (text? : Option String)
  | runCommand (text? : Option String)
  | setProperty (key? value? : Option String)
  | getProperty (key? : Option String)
  | subjectId
deriving DecidableEq, Repr

/-- The world with some things asked of the platform. -/
def delivered (w : World) (ds : List Delivery) : World :=
  { w with deliveries := w.deliveries ++ ds.toArray }

def HostCall.perform (label : String) (c : ContextId) (w : World) : HostCall → World
  | .log (some text) => w.report (.guestLog label text)
  | .sendMessage (some text) => delivered w ((w.context c).recipients.map (.message · text))
  | .runCommand (some text) => delivered w [.command (w.context c).subject text]
  | .setProperty (some key) (some value) => w.setContext c ((w.context c).set key (.ofText value))
  | _ => w

/-! ### Steps -/

section Steps

variable {α : Type}

/-- Code takes a step of its own. -/
inductive Advances : Code α → Machine → Code α → Machine → Prop where
  | burn {units : Nat} {next : Code α} {m : Machine} (h : units < m.fuel) :
    Advances (.burn units next) m next { m with fuel := m.fuel - units }
  | load (address : Nat) (next : Option UInt8 → Code α) (m : Machine) :
    Advances (.load address next) m (next (m.memory.byte? address)) m
  | stored {address : Nat} {byte : UInt8} {next : Bool → Code α} {m : Machine} {memory : Memory}
    (h : m.memory.write? address [byte] = some memory) :
    Advances (.store address byte next) m (next true) { m with memory }
  | notStored {address : Nat} {byte : UInt8} {next : Bool → Code α} {m : Machine}
    (h : m.memory.write? address [byte] = none) :
    Advances (.store address byte next) m (next false) m
  | grown {more : Nat} {next : Option Nat → Code α} {m : Machine} {memory : Memory}
    (h : m.memory.grow? more = some memory) :
    Advances (.grow more next) m (next (some m.memory.pages)) { m with memory }
  | notGrown {more : Nat} {next : Option Nat → Code α} {m : Machine}
    (h : m.memory.grow? more = none) :
    Advances (.grow more next) m (next none) m
  | readRegister (number : Nat) (next : Int64 → Code α) (m : Machine) :
    Advances (.readRegister number next) m (next (m.registers number)) m
  | writeRegister (number : Nat) (value : Int64) (next : Code α) (m : Machine) :
    Advances (.writeRegister number value next) m next
      { m with registers := m.registers.write number value }

/-- Code calls the host, which does what it is called for and lets the code go on. -/
inductive Asks (f : Frame) : Code α → Machine → HostCall → Code α → Machine → Prop where
  | log {start length : Int32} {next : Code α} {m m' : Machine}
    (h : Step.log f start length m = .ok () m') :
    Asks f (.log start length next) m (.log (f.text? m.memory start length)) next m'
  | sendMessage {start length : Int32} {next : Code α} {m m' : Machine}
    (h : Step.sendMessage f start length m = .ok () m') :
    Asks f (.sendMessage start length next) m (.sendMessage (f.text? m.memory start length))
      next m'
  | runCommand {start length : Int32} {next : Code α} {m m' : Machine}
    (h : Step.runCommand f start length m = .ok () m') :
    Asks f (.runCommand start length next) m (.runCommand (f.text? m.memory start length))
      next m'
  | setProperty {keyStart keyLength valueStart valueLength : Int32} {next : Code α}
    {m m' : Machine}
    (h : Step.setProperty f keyStart keyLength valueStart valueLength m = .ok () m') :
    Asks f (.setProperty keyStart keyLength valueStart valueLength next) m
      (.setProperty (f.text? m.memory keyStart keyLength)
        (f.text? m.memory valueStart valueLength))
      next m'
  | getProperty {keyStart keyLength out capacity answer : Int32} {next : Int32 → Code α}
    {m m' : Machine}
    (h : Step.getProperty f keyStart keyLength out capacity m = .ok answer m') :
    Asks f (.getProperty keyStart keyLength out capacity next) m
      (.getProperty (f.text? m.memory keyStart keyLength)) (next answer) m'
  | subjectId {out capacity answer : Int32} {next : Int32 → Code α} {m m' : Machine}
    (h : Step.subjectId f out capacity m = .ok answer m') :
    Asks f (.subjectId out capacity next) m .subjectId (next answer) m'

/-- Code goes from one machine to another, through some calls of the host. -/
inductive Passage (f : Frame) :
    Code α → Machine → List HostCall → Code α → Machine → Prop where
  | refl (code : Code α) (m : Machine) : Passage f code m [] code m
  | own {code code' last : Code α} {m m' m'' : Machine} {calls : List HostCall}
    (h : Advances code m code' m') (rest : Passage f code' m' calls last m'') :
    Passage f code m calls last m''
  | host {code code' last : Code α} {m m' m'' : Machine} {call : HostCall}
    {calls : List HostCall} (h : Asks f code m call code' m')
    (rest : Passage f code' m' calls last m'') :
    Passage f code m (call :: calls) last m''

/-- Code goes no further: it has returned, trapped or used up its fuel, or a function of the
    host has failed. -/
inductive Halts (f : Frame) : Code α → Machine → Except Stop α → Machine → Prop where
  | done (result : α) (m : Machine) : Halts f (.done result) m (.ok result) m
  | trap (cause : String) (m : Machine) : Halts f (.trap cause) m (.error (.trapped cause)) m
  | outOfFuel (m : Machine) : Halts f .outOfFuel m (.error .outOfFuel) { m with fuel := 0 }
  | burnt {units : Nat} {next : Code α} {m : Machine} (h : ¬ units < m.fuel) :
    Halts f (.burn units next) m (.error .outOfFuel) { m with fuel := 0 }
  | sendMessage {start length : Int32} {next : Code α} {m m' : Machine} {stop : Stop}
    (h : Step.sendMessage f start length m = .error stop m') :
    Halts f (.sendMessage start length next) m (.error stop) m'
  | runCommand {start length : Int32} {next : Code α} {m m' : Machine} {stop : Stop}
    (h : Step.runCommand f start length m = .error stop m') :
    Halts f (.runCommand start length next) m (.error stop) m'

end Steps

/-! ### Passages and runs -/

section Running

variable {α : Type} {f : Frame} {code code' last : Code α} {m m' m'' : Machine}
  {call : HostCall} {calls : List HostCall} {ending : Except Stop α}

/-- A step of its own takes code to what it goes on with. -/
theorem Advances.runCode_eq (h : Advances code m code' m') :
    Step.runCode f code m = Step.runCode f code' m' := by
  cases h with
  | @burn units next m h =>
    obtain ⟨s, w⟩ := m
    rw [runCode_burn, if_pos h]
  | load => rfl
  | @stored address byte next m memory h =>
    obtain ⟨s, w⟩ := m
    rw [runCode_store, h]
  | @notStored address byte next m h =>
    obtain ⟨s, w⟩ := m
    rw [runCode_store, h]
  | @grown more next m memory h =>
    obtain ⟨s, w⟩ := m
    rw [runCode_grow, h]
  | @notGrown more next m h =>
    obtain ⟨s, w⟩ := m
    rw [runCode_grow, h]
  | readRegister => rfl
  | writeRegister => rfl

/-- A call of the host takes code to what it goes on with after the answer. -/
theorem Asks.runCode_eq (h : Asks f code m call code' m') :
    Step.runCode f code m = Step.runCode f code' m' := by
  cases h with
  | log h => rw [Step.runCode, bind_apply, h]
  | sendMessage h => rw [Step.runCode, bind_apply, h]
  | runCommand h => rw [Step.runCode, bind_apply, h]
  | setProperty h => rw [Step.runCode, bind_apply, h]
  | getProperty h => rw [Step.runCode, bind_apply, h]
  | subjectId h => rw [Step.runCode, bind_apply, h]

theorem Halts.runCode_eq (h : Halts f code m ending m') :
    Step.runCode f code m = ended ending m' := by
  cases h with
  | done => rfl
  | trap => rfl
  | outOfFuel => rfl
  | @burnt units next m h =>
    obtain ⟨s, w⟩ := m
    rw [runCode_burn, if_neg h]
    rfl
  | sendMessage h =>
    rw [Step.runCode, bind_apply, h]
    rfl
  | runCommand h =>
    rw [Step.runCode, bind_apply, h]
    rfl

/-- Code comes to what it halts with at the end of a passage. -/
theorem Passage.runCode_eq (h : Passage f code m calls last m')
    (hlast : Halts f last m' ending m'') : Step.runCode f code m = ended ending m'' := by
  induction h with
  | refl code m => exact hlast.runCode_eq
  | own h rest ih => rw [h.runCode_eq, ih hlast]
  | host h rest ih => rw [h.runCode_eq, ih hlast]

/-- A passage leads to code that halts. -/
def Completes (f : Frame) (code : Code α) (m : Machine) : Prop :=
  ∃ calls last m' ending m'', Passage f code m calls last m' ∧ Halts f last m' ending m''

theorem Halts.completes (h : Halts f code m ending m') : Completes f code m :=
  ⟨[], code, m, ending, m', .refl code m, h⟩

theorem Advances.completes (h : Advances code m code' m') (hrest : Completes f code' m') :
    Completes f code m := by
  obtain ⟨calls, last, m₁, ending, m₂, hpassage, hlast⟩ := hrest
  exact ⟨calls, last, m₁, ending, m₂, .own h hpassage, hlast⟩

theorem Asks.completes (h : Asks f code m call code' m') (hrest : Completes f code' m') :
    Completes f code m := by
  obtain ⟨calls, last, m₁, ending, m₂, hpassage, hlast⟩ := hrest
  exact ⟨call :: calls, last, m₁, ending, m₂, .host h hpassage, hlast⟩

end Running

/-! ### Functions that return -/

section Returning

variable (f : Frame) (m : Machine)

theorem log_returns (start length : Int32) : ∃ m', Step.log f start length m = .ok () m' := by
  rw [log_eq]
  cases f.text? m.memory start length with
  | some text => exact ⟨_, rfl⟩
  | none => exact ⟨_, rfl⟩

theorem setProperty_returns (keyStart keyLength valueStart valueLength : Int32) :
    ∃ m', Step.setProperty f keyStart keyLength valueStart valueLength m = .ok () m' := by
  cases hattached : m.attached? with
  | none => exact ⟨_, setProperty_detached f hattached m.world _ _ _ _⟩
  | some c =>
    rw [setProperty_eq hattached]
    split
    · exact ⟨_, rfl⟩
    · exact ⟨_, rfl⟩

theorem getProperty_returns (keyStart keyLength out capacity : Int32) :
    ∃ answer m', Step.getProperty f keyStart keyLength out capacity m = .ok answer m' := by
  cases hattached : m.attached? with
  | none => exact ⟨_, _, getProperty_detached f hattached m.world _ _ _ _⟩
  | some c =>
    rw [getProperty_eq hattached]
    split
    · obtain ⟨answer, m', hcopy, -⟩ := writeText_copies f out capacity _ m
      exact ⟨answer, m', hcopy⟩
    · exact ⟨_, _, rfl⟩

theorem subjectId_returns (out capacity : Int32) :
    ∃ answer m', Step.subjectId f out capacity m = .ok answer m' := by
  cases hattached : m.attached? with
  | none => exact ⟨_, _, subjectId_detached f hattached m.world _ _⟩
  | some c =>
    rw [subjectId_eq hattached]
    obtain ⟨answer, m', hcopy, -⟩ := writeText_copies f out capacity _ m
    exact ⟨answer, m', hcopy⟩

/-- Guest code always halts, and a passage leads there. -/
theorem exists_passage {α : Type} (code : Code α) : Completes f code m := by
  -- code that does not halt takes a step to a part of itself
  induction code generalizing m with
  | done result => exact (Halts.done result m).completes
  | trap cause => exact (Halts.trap cause m).completes
  | outOfFuel => exact (Halts.outOfFuel m).completes
  | burn units next ih =>
    by_cases hfuel : units < m.fuel
    · exact (Advances.burn hfuel).completes (ih _)
    · exact (Halts.burnt hfuel).completes
  | load address next ih => exact (Advances.load address next m).completes (ih _ _)
  | store address byte next ih =>
    cases hwrite : m.memory.write? address [byte] with
    | some memory => exact (Advances.stored hwrite).completes (ih true _)
    | none => exact (Advances.notStored hwrite).completes (ih false _)
  | grow more next ih =>
    cases hgrow : m.memory.grow? more with
    | some memory => exact (Advances.grown hgrow).completes (ih _ _)
    | none => exact (Advances.notGrown hgrow).completes (ih none _)
  | readRegister number next ih =>
    exact (Advances.readRegister number next m).completes (ih _ _)
  | writeRegister number value next ih =>
    exact (Advances.writeRegister number value next m).completes (ih _)
  | log start length next ih =>
    obtain ⟨m', hlog⟩ := log_returns f m start length
    exact (Asks.log hlog).completes (ih m')
  | sendMessage start length next ih =>
    cases hsend : Step.sendMessage f start length m with
    | ok u m' => exact (Asks.sendMessage hsend).completes (ih m')
    | error stop m' => exact (Halts.sendMessage hsend).completes
  | runCommand start length next ih =>
    cases hrun : Step.runCommand f start length m with
    | ok u m' => exact (Asks.runCommand hrun).completes (ih m')
    | error stop m' => exact (Halts.runCommand hrun).completes
  | setProperty keyStart keyLength valueStart valueLength next ih =>
    obtain ⟨m', hset⟩ := setProperty_returns f m keyStart keyLength valueStart valueLength
    exact (Asks.setProperty hset).completes (ih m')
  | getProperty keyStart keyLength out capacity next ih =>
    obtain ⟨answer, m', hget⟩ := getProperty_returns f m keyStart keyLength out capacity
    exact (Asks.getProperty hget).completes (ih answer m')
  | subjectId out capacity next ih =>
    obtain ⟨answer, m', hid⟩ := subjectId_returns f m out capacity
    exact (Asks.subjectId hid).completes (ih answer m')

end Returning

/-! ### What the calls of the host do -/

section Effects

variable {α : Type} {f : Frame} {c : ContextId} {code code' last : Code α} {m m' m'' : Machine}
  {call : HostCall} {calls : List HostCall} {ending : Except Stop α}

/-- A trigger of a context on a platform that does not fail. -/
structure Machine.Attending (m : Machine) (c : ContextId) : Prop where
  attached : m.attached? = some c
  serves : m.world.Serves

theorem deliver_eq (h : m.world.Serves) (d : Delivery) :
    Step.deliver d m = .ok () (m.changed (delivered · [d])) := by
  unfold Step.deliver
  rw [get_bind_apply, h]
  rfl

theorem sendAll_eq (text : String) (targets : List Subject) (m : Machine)
    (h : m.world.Serves) :
    sendAll text targets m = .ok () (m.changed (delivered · (targets.map (.message · text)))) := by
  induction targets generalizing m with
  | nil => rfl
  | cons target rest ih =>
    rw [sendAll, bind_apply, deliver_eq h]
    refine (ih (m.changed (delivered · [.message target text])) h).trans ?_
    simp [Machine.changed, delivered]

/-! The functions of the host that act do to the world what they are called for, and nothing else
    to the machine. -/

theorem log_performs (f : Frame) (c : ContextId) (start length : Int32) (m : Machine) :
    Step.log f start length m = .ok () (m.changed
      (HostCall.perform f.label c · (.log (f.text? m.memory start length)))) := by
  rw [log_eq]
  cases f.text? m.memory start length <;> rfl

theorem sendMessage_performs (hm : m.Attending c) (start length : Int32) :
    Step.sendMessage f start length m = .ok () (m.changed
      (HostCall.perform f.label c · (.sendMessage (f.text? m.memory start length)))) := by
  rw [sendMessage_eq hm.attached]
  cases f.text? m.memory start length with
  | some text => exact sendAll_eq text (m.world.context c).recipients m hm.serves
  | none => rfl

theorem runCommand_performs (hm : m.Attending c) (start length : Int32) :
    Step.runCommand f start length m = .ok () (m.changed
      (HostCall.perform f.label c · (.runCommand (f.text? m.memory start length)))) := by
  rw [runCommand_eq hm.attached]
  cases f.text? m.memory start length with
  | some text => exact deliver_eq hm.serves (.command (m.world.context c).subject text)
  | none => rfl

theorem setProperty_performs (hm : m.Attending c)
    (keyStart keyLength valueStart valueLength : Int32) :
    Step.setProperty f keyStart keyLength valueStart valueLength m = .ok () (m.changed
      (HostCall.perform f.label c · (.setProperty (f.text? m.memory keyStart keyLength)
        (f.text? m.memory valueStart valueLength)))) := by
  rw [setProperty_eq hm.attached]
  cases f.text? m.memory keyStart keyLength with
  | none => rfl
  | some key => cases f.text? m.memory valueStart valueLength <;> rfl

section Performing

variable (label : String) (c : ContextId) (w : World) (call : HostCall)

theorem HostCall.perform_guests : (call.perform label c w).guests = w.guests := by
  unfold perform
  split <;> rfl

theorem HostCall.perform_platform : (call.perform label c w).platform = w.platform := by
  unfold perform
  split <;> rfl

end Performing

theorem Machine.Attending.performed (hm : m.Attending c) (call : HostCall) :
    (m.changed (HostCall.perform f.label c · call)).Attending c := by
  refine ⟨hm.attached, fun request => ?_⟩
  show (call.perform f.label c m.world).platform.fault request = none
  rw [HostCall.perform_platform]
  exact hm.serves request

/-- Copying a text into memory changes nothing in the world. -/
theorem Copies.effect {out capacity answer : Int32} {text : String}
    (h : Copies f out capacity text m answer m') (hm : m.Attending c) :
    m'.Attending c ∧ m'.world = m.world := by
  rw [h.same]
  exact ⟨⟨hm.attached, hm.serves⟩, rfl⟩

/-- A step of the code's own changes nothing in the world. -/
theorem Advances.effect (h : Advances code m code' m') (hm : m.Attending c) :
    m'.Attending c ∧ m'.world = m.world := by
  obtain ⟨hattached, hserves⟩ := hm
  cases h <;> exact ⟨⟨hattached, hserves⟩, rfl⟩

/-- A call of the host does to the world what it is called for. -/
theorem Asks.effect (h : Asks f code m call code' m') (hm : m.Attending c) :
    m'.Attending c ∧ m'.world = call.perform f.label c m.world := by
  cases h with
  | @log start length next m m' h =>
    rw [log_performs f c] at h
    cases h
    exact ⟨hm.performed _, rfl⟩
  | @sendMessage start length next m m' h =>
    rw [sendMessage_performs hm] at h
    cases h
    exact ⟨hm.performed _, rfl⟩
  | @runCommand start length next m m' h =>
    rw [runCommand_performs hm] at h
    cases h
    exact ⟨hm.performed _, rfl⟩
  | @setProperty keyStart keyLength valueStart valueLength next m m' h =>
    rw [setProperty_performs hm] at h
    cases h
    exact ⟨hm.performed _, rfl⟩
  -- the other two functions write to memory at most
  | @getProperty keyStart keyLength out capacity answer next m m' h =>
    rw [getProperty_eq hm.attached] at h
    split at h
    · rename_i text htext
      obtain ⟨answer', m₁, hcopy, hcopies⟩ := writeText_copies f out capacity text m
      rw [hcopy] at h
      cases h
      exact hcopies.effect hm
    · cases h
      exact ⟨hm, rfl⟩
  | @subjectId out capacity answer next m m' h =>
    rw [subjectId_eq hm.attached] at h
    obtain ⟨answer', m₁, hcopy, hcopies⟩ :=
      writeText_copies f out capacity (m.world.context c).subject.id m
    rw [hcopy] at h
    cases h
    exact hcopies.effect hm

/-- The calls of a passage act on the world one after the other, and nothing else does. -/
theorem Passage.effect (h : Passage f code m calls last m') (hm : m.Attending c) :
    m'.Attending c ∧ m'.world = calls.foldl (HostCall.perform f.label c) m.world := by
  induction h with
  | refl code m => exact ⟨hm, rfl⟩
  | own h rest ih =>
    obtain ⟨hattending, hworld⟩ := h.effect hm
    rw [← hworld]
    exact ih hattending
  | host h rest ih =>
    obtain ⟨hattending, hworld⟩ := h.effect hm
    rw [List.foldl_cons, ← hworld]
    exact ih hattending

/-- Code that halts leaves the world as it is, and has not panicked. -/
theorem Halts.effect (h : Halts f code m ending m') (hm : m.Attending c) :
    m'.Attending c ∧ m'.world = m.world ∧ ∀ message, ending ≠ .error (.panicked message) := by
  cases h with
  | done => exact ⟨hm, rfl, nofun⟩
  | trap => exact ⟨hm, rfl, nofun⟩
  | outOfFuel => exact ⟨⟨hm.attached, hm.serves⟩, rfl, nofun⟩
  | burnt h => exact ⟨⟨hm.attached, hm.serves⟩, rfl, nofun⟩
  | @sendMessage start length next m m' stop h =>
    rw [sendMessage_performs hm] at h
    cases h
  | @runCommand start length next m m' stop h =>
    rw [runCommand_performs hm] at h
    cases h

end Effects

end Guest

end RuleEngine
