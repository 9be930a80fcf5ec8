/-
  RuleEngine/Proofs/Guest/Detached.lean
  =====================================
  **Guests outside of a trigger.**

  A guest reaches the world only through the host functions, and these act on the context
  that is attached to its store.  With none attached, whatever code runs comes to the same
  in every world and leaves behind log lines and remarks alone (`Detached`): it cannot tell
  one world from another, nor change one otherwise.  That is how a module runs while it is
  loaded (`loadIn_spec`) and while a value is validated (`detached_call`).

  What a call with a context attached sees is told in `Proofs/Guest/Attached.lean`.
-/
import RuleEngine.Guest.Load
import RuleEngine.Rule.Compile

namespace RuleEngine

/-- A notice that a guest causes itself: a log line of it, or the remark that it called the
    host outside of a trigger. -/
def Notice.FromGuest (n : Notice) : Prop :=
  (∃ label text, n = .guestLog label text) ∨ ∃ label, n = .guestDetached label

theorem World.foldl_report_guests (notices : List Notice) (w : World) :
    (notices.foldl World.report w).guests = w.guests := by
  induction notices generalizing w with
  | nil => rfl
  | cons n rest ih => exact ih _

namespace Guest

/-! ### Steps that no world shows through -/

section Detached

variable {ε α β : Type} {s s' : Store}

def ended (ending : Except ε α) (m : Machine) : EStateM.Result ε Machine α :=
  match ending with
  | .ok a => .ok a m
  | .error e => .error e m

/-- From a store on, a step comes to the same in every world, and all it does to the world
    are notices of a guest; no context is attached after it. -/
def Detached (x : EStateM ε Machine α) (s : Store) : Prop :=
  ∃ (ending : Except ε α) (s' : Store) (ns : List Notice), s'.attached? = none ∧
    (∀ n ∈ ns, n.FromGuest) ∧ ∀ w, x ⟨s, w⟩ = ended ending ⟨s', ns.foldl World.report w⟩

theorem bind_apply (x : EStateM ε Machine α) (f : α → EStateM ε Machine β) (m : Machine) :
    (x >>= f) m =
      match x m with
      | .ok a m' => f a m'
      | .error e m' => .error e m' := by
  show EStateM.bind x f m = _
  unfold EStateM.bind
  cases x m <;> rfl

/-- A step that reads the machine first. -/
theorem get_bind_apply (f : Machine → EStateM ε Machine α) (m : Machine) :
    (get >>= f) m = f m m := rfl

theorem detached_pure (hs : s.attached? = none) (a : α) :
    Detached (pure a : EStateM ε Machine α) s :=
  ⟨.ok a, s, [], hs, nofun, fun _ => rfl⟩

theorem detached_throw (hs : s.attached? = none) (e : ε) :
    Detached (throw e : EStateM ε Machine α) s :=
  ⟨.error e, s, [], hs, nofun, fun _ => rfl⟩

/-- A step that goes on as another one from another store. -/
theorem Detached.of_eq {x y : EStateM ε Machine α} (hy : Detached y s')
    (h : ∀ w, x ⟨s, w⟩ = y ⟨s', w⟩) : Detached x s := by
  obtain ⟨ending, s'', ns, hs'', hns, hy⟩ := hy
  exact ⟨ending, s'', ns, hs'', hns, fun w => (h w).trans (hy w)⟩

/-- A step that reads the store first. -/
theorem detached_of_get {f : Machine → EStateM ε Machine α} (hf : ∀ w, f ⟨s, w⟩ = f ⟨s, {}⟩)
    (h : Detached (f ⟨s, {}⟩) s) : Detached (get >>= f) s := by
  refine h.of_eq fun w => ?_
  rw [get_bind_apply, hf]

/-- A step that reports something of a guest first. -/
theorem Detached.of_report {x y : EStateM ε Machine α} (hy : Detached y s') {n : Notice}
    (hn : n.FromGuest) (h : ∀ w, x ⟨s, w⟩ = y ⟨s', w.report n⟩) : Detached x s := by
  obtain ⟨ending, s'', ns, hs'', hns, hy⟩ := hy
  refine ⟨ending, s'', n :: ns, hs'', ?_, fun w => (h w).trans (hy _)⟩
  intro n' hn'
  rcases List.mem_cons.mp hn' with rfl | hn'
  · exact hn
  · exact hns n' hn'

/-- A sequence of steps is detached if each step is. -/
theorem Detached.bind {x : EStateM ε Machine α} {f : α → EStateM ε Machine β} (hx : Detached x s)
    (hf : ∀ a s', s'.attached? = none → Detached (f a) s') : Detached (x >>= f) s := by
  obtain ⟨ending, s', ns, hs', hns, hx⟩ := hx
  cases ending with
  | error e =>
    refine ⟨.error e, s', ns, hs', hns, fun w => ?_⟩
    rw [bind_apply, hx]
    rfl
  | ok a =>
    obtain ⟨ending, s'', more, hs'', hmore, hf⟩ := hf a s' hs'
    refine ⟨ending, s'', ns ++ more, hs'', ?_, fun w => ?_⟩
    · intro n hn
      rcases List.mem_append.mp hn with hn | hn
      · exact hns n hn
      · exact hmore n hn
    · rw [bind_apply, hx, List.foldl_append]
      exact hf _

end Detached

/-! ### Host functions without a context -/

section Host

variable (f : Frame) {s : Store} (hs : s.attached? = none) (w : World)

/-- Without an attached context, asking for it is reported. -/
theorem attached_detached (hs : s.attached? = none) (w : World) :
    Step.attached f ⟨s, w⟩ = .ok none ⟨s, w.report (.guestDetached f.label)⟩ := by
  obtain ⟨memory, heap, registers, attached?⟩ := s
  cases hs
  rfl

/-- Memory is read without regard to the world. -/
theorem readText_apply (start length : Int32) (s : Store) :
    ∃ text?, ∀ w, Step.readText f start length ⟨s, w⟩ = .ok text? ⟨s, w⟩ := by
  unfold Step.readText
  cases f.exportsMemory with
  | true =>
    exact ⟨(s.memory.read? (unsigned start) (unsigned length)).map Text.decodeLenient, fun _ => rfl⟩
  | false => exact ⟨none, fun _ => rfl⟩

/-- A log line is all that the host makes of a text, with a context or without. -/
theorem log_apply (start length : Int32) (s : Store) :
    (∀ w, Step.log f start length ⟨s, w⟩ = .ok () ⟨s, w⟩) ∨
      ∃ text, ∀ w,
        Step.log f start length ⟨s, w⟩ = .ok () ⟨s, w.report (.guestLog f.label text)⟩ := by
  obtain ⟨text?, ht⟩ := readText_apply f start length s
  unfold Step.log
  simp only [bind_apply, ht]
  cases text? with
  | none => exact .inl fun _ => rfl
  | some text => exact .inr ⟨text, fun _ => rfl⟩

include hs

theorem sendMessage_detached (start length : Int32) :
    Step.sendMessage f start length ⟨s, w⟩ =
      .ok () ⟨s, w.report (.guestDetached f.label)⟩ := by
  obtain ⟨text?, ht⟩ := readText_apply f start length s
  unfold Step.sendMessage
  rw [bind_apply, attached_detached f hs]
  simp only [bind_apply, ht]
  rfl

theorem runCommand_detached (start length : Int32) :
    Step.runCommand f start length ⟨s, w⟩ =
      .ok () ⟨s, w.report (.guestDetached f.label)⟩ := by
  obtain ⟨text?, ht⟩ := readText_apply f start length s
  unfold Step.runCommand
  rw [bind_apply, attached_detached f hs]
  simp only [bind_apply, ht]
  rfl

theorem setProperty_detached (keyStart keyLength valueStart valueLength : Int32) :
    Step.setProperty f keyStart keyLength valueStart valueLength ⟨s, w⟩ =
      .ok () ⟨s, w.report (.guestDetached f.label)⟩ := by
  unfold Step.setProperty
  rw [bind_apply, attached_detached f hs]
  rfl

theorem getProperty_detached (keyStart keyLength out capacity : Int32) :
    Step.getProperty f keyStart keyLength out capacity ⟨s, w⟩ =
      .ok (-1) ⟨s, w.report (.guestDetached f.label)⟩ := by
  unfold Step.getProperty
  rw [bind_apply, attached_detached f hs]
  rfl

theorem subjectId_detached (out capacity : Int32) :
    Step.subjectId f out capacity ⟨s, w⟩ =
      .ok (-1) ⟨s, w.report (.guestDetached f.label)⟩ := by
  unfold Step.subjectId
  rw [bind_apply, attached_detached f hs]
  rfl

end Host

/-! ### Code without a context -/

section Code

variable {α : Type} (f : Frame)

/-- Storing a byte outside of memory is answered, and no trap. -/
theorem runCode_store (address : Nat) (byte : UInt8) (next : Bool → Code α) (s : Store)
    (w : World) :
    Step.runCode f (.store address byte next) ⟨s, w⟩ =
      match s.memory.write? address [byte] with
      | some memory => Step.runCode f (next true) ⟨{ s with memory }, w⟩
      | none => Step.runCode f (next false) ⟨s, w⟩ := by
  rw [Step.runCode, bind_apply]
  show (match s.memory.write? address [byte] with | some memory => _ | none => _ : Step α) _ = _
  cases s.memory.write? address [byte] <;> rfl

theorem runCode_grow (more : Nat) (next : Option Nat → Code α) (s : Store) (w : World) :
    Step.runCode f (.grow more next) ⟨s, w⟩ =
      match s.memory.grow? more with
      | some memory => Step.runCode f (next (some s.memory.pages)) ⟨{ s with memory }, w⟩
      | none => Step.runCode f (next none) ⟨s, w⟩ := by
  rw [Step.runCode, bind_apply]
  show (match s.memory.grow? more with | some grown => _ | none => _ : Step α) _ = _
  cases s.memory.grow? more <;> rfl

/-- Fuel has to be left when some of it is burnt. -/
theorem runCode_burn (units : Nat) (next : Code α) (s : Store) (w : World) :
    Step.runCode f (.burn units next) ⟨s, w⟩ =
      if units < s.fuel then Step.runCode f next ⟨{ s with fuel := s.fuel - units }, w⟩
      else Step.runDry ⟨s, w⟩ := by
  rw [Step.runCode, get_bind_apply]
  split <;> rfl

theorem detached_runDry {s : Store} (hs : s.attached? = none) :
    Detached (Step.runDry : Step α) s :=
  (detached_throw (s := { s with fuel := 0 }) hs .outOfFuel).of_eq fun _ => rfl

theorem fromGuest_detached : (Notice.guestDetached f.label).FromGuest := .inr ⟨_, rfl⟩

/-- Guest code that runs without a context does nothing to the world but report. -/
theorem detached_runCode (code : Code α) {s : Store} (hs : s.attached? = none) :
    Detached (Step.runCode f code) s := by
  -- each step of the code leaves what is left to run with another store, answer or notice
  induction code generalizing s with
  | done result => exact detached_pure hs result
  | trap cause => exact detached_throw hs _
  | outOfFuel => exact detached_runDry hs
  | burn units next ih =>
    by_cases hfuel : units < s.fuel
    · refine (ih (s := { s with fuel := s.fuel - units }) hs).of_eq fun w => ?_
      rw [runCode_burn, if_pos hfuel]
    · refine (detached_runDry hs).of_eq fun w => ?_
      rw [runCode_burn, if_neg hfuel]
  | load address next ih => exact (ih (s.memory.byte? address) hs).of_eq fun w => rfl
  | store address byte next ih =>
    cases hw : s.memory.write? address [byte] with
    | some memory =>
      refine (ih true (s := { s with memory }) hs).of_eq fun w => ?_
      rw [runCode_store, hw]
    | none =>
      refine (ih false hs).of_eq fun w => ?_
      rw [runCode_store, hw]
  | grow more next ih =>
    cases hg : s.memory.grow? more with
    | some memory =>
      refine (ih (some s.memory.pages) (s := { s with memory }) hs).of_eq fun w => ?_
      rw [runCode_grow, hg]
    | none =>
      refine (ih none hs).of_eq fun w => ?_
      rw [runCode_grow, hg]
  | readRegister number next ih => exact (ih (s.registers number) hs).of_eq fun w => rfl
  | writeRegister number value next ih =>
    exact (ih (s := { s with registers := s.registers.write number value }) hs).of_eq fun w => rfl
  | log start length next ih =>
    rcases log_apply f start length s with hlog | ⟨text, hlog⟩
    · refine (ih hs).of_eq fun w => ?_
      rw [Step.runCode, bind_apply, hlog]
    · refine (ih hs).of_report (.inl ⟨f.label, text, rfl⟩) fun w => ?_
      rw [Step.runCode, bind_apply, hlog]
  | sendMessage start length next ih =>
    refine (ih hs).of_report (fromGuest_detached f) fun w => ?_
    rw [Step.runCode, bind_apply, sendMessage_detached f hs]
  | runCommand start length next ih =>
    refine (ih hs).of_report (fromGuest_detached f) fun w => ?_
    rw [Step.runCode, bind_apply, runCommand_detached f hs]
  | setProperty keyStart keyLength valueStart valueLength next ih =>
    refine (ih hs).of_report (fromGuest_detached f) fun w => ?_
    rw [Step.runCode, bind_apply, setProperty_detached f hs]
  | getProperty keyStart keyLength out capacity next ih =>
    refine (ih (-1) hs).of_report (fromGuest_detached f) fun w => ?_
    rw [Step.runCode, bind_apply, getProperty_detached f hs]
  | subjectId out capacity next ih =>
    refine (ih (-1) hs).of_report (fromGuest_detached f) fun w => ?_
    rw [Step.runCode, bind_apply, subjectId_detached f hs]

theorem detached_reserve (a : Allocator) (length : Int32) {s : Store}
    (hs : s.attached? = none) : Detached (Step.reserve f a length) s := by
  cases a with
  | bump =>
    exact (detached_pure (s := { s with heap := s.heap + length }) hs s.heap).of_eq fun _ => rfl
  | fixed address => exact detached_pure hs address
  | trapping => exact detached_throw hs _
  | computes code =>
    obtain ⟨ending, s', ns, hs', hns, hrun⟩ := detached_runCode f (code length) hs
    cases ending with
    | ok address =>
      refine ⟨.ok address, s', ns, hs', hns, fun w => ?_⟩
      simp only [Step.reserve, hrun, ended]
    | error stop =>
      cases stop with
      | trapped cause =>
        refine ⟨.error (.trapped s!"alloc trapped: {cause}"), s', ns, hs', hns, fun w => ?_⟩
        simp only [Step.reserve, hrun, ended]
      | outOfFuel =>
        refine ⟨.error .outOfFuel, s', ns, hs', hns, fun w => ?_⟩
        simp only [Step.reserve, hrun, ended]
      | panicked message =>
        refine ⟨.error (.panicked message), s', ns, hs', hns, fun w => ?_⟩
        simp only [Step.reserve, hrun, ended]

theorem writePayload_apply (address : Int32) (bytes : List UInt8) (s : Store) (w : World) :
    Step.writePayload address bytes ⟨s, w⟩ =
      match s.memory.write? (unsigned address) bytes with
      | some memory => .ok () ⟨{ s with memory }, w⟩
      | none => .error (.trapped "alloc returned a pointer outside of memory") ⟨s, w⟩ := by
  show (match s.memory.write? (unsigned address) bytes with
    | some memory => _ | none => _ : Step Unit) _ = _
  cases s.memory.write? (unsigned address) bytes <;> rfl

theorem detached_writePayload (address : Int32) (bytes : List UInt8) {s : Store}
    (hs : s.attached? = none) : Detached (Step.writePayload address bytes) s := by
  cases hm : s.memory.write? (unsigned address) bytes with
  | some memory =>
    refine (detached_pure (s := { s with memory }) hs ()).of_eq fun w => ?_
    rw [writePayload_apply, hm]
    rfl
  | none =>
    have hthrow : Detached (Step.trap "alloc returned a pointer outside of memory" : Step Unit) s :=
      detached_throw hs _
    refine hthrow.of_eq fun w => ?_
    rw [writePayload_apply, hm]
    rfl

theorem detached_placePayload (alloc? : Option Allocator) (payload : String) {s : Store}
    (hs : s.attached? = none) : Detached (Step.placePayload f alloc? payload) s := by
  unfold Step.placePayload
  cases alloc? with
  | none => exact detached_pure hs _
  | some a =>
    dsimp only
    split
    · exact detached_pure hs _
    · split
      · exact detached_throw hs _
      · refine (detached_reserve f a _ hs).bind fun address s' hs' => ?_
        exact (detached_writePayload address _ hs').bind fun _ _ hs'' => detached_pure hs'' _

theorem Detached.detaching {x : Step α} {s : Store} (hx : Detached x s) :
    Detached (Step.detaching x) s := by
  obtain ⟨ending, s', ns, hs', hns, hrun⟩ := hx
  refine ⟨ending, s', ns, hs', hns, fun w => ?_⟩
  have hsame : ({ s' with attached? := none } : Store) = s' := by
    rw [← hs']
  unfold Step.detaching
  rw [hrun]
  cases ending with
  | ok a => simp only [ended, hsame]
  | error stop => cases stop <;> simp only [ended, hsame]

/-- A call takes its fuel, attaches its context, runs, and takes the context off. -/
theorem call_apply (label : String) (alloc? : Option Allocator) (fuel : Nat)
    (context? : Option ContextId) (program : Program) (payload : String) (m : Machine) :
    Step.call label alloc? fuel context? program payload m =
      Step.detaching (Step.placePayload { label } alloc? payload >>= fun arguments =>
        Step.runCode { label } (program.code arguments.1 arguments.2))
        { m with fuel, attached? := context? } := rfl

/-- A call with no context attached, whatever was attached before it. -/
theorem detached_call (label : String) (alloc? : Option Allocator) (fuel : Nat)
    (program : Program) (payload : String) (s : Store) :
    Detached (Step.call label alloc? fuel none program payload) s := by
  have hrun : Detached (Step.placePayload { label } alloc? payload >>= fun arguments =>
      Step.runCode { label } (program.code arguments.1 arguments.2))
      { s with fuel, attached? := none } :=
    (detached_placePayload { label } alloc? payload rfl).bind fun arguments s' hs' =>
      detached_runCode { label } (program.code arguments.1 arguments.2) hs'
  refine hrun.detaching.of_eq fun w => ?_
  rw [call_apply]

end Code

/-! ### Loading -/

section Loading

variable {α : Type} {s : Store} (f : Frame)

theorem detached_ofExcept (hs : s.attached? = none) (result : Except ExpansionError α) :
    Detached (Loading.ofExcept result) s := by
  cases result with
  | ok value => exact detached_pure hs value
  | error cause => exact detached_throw hs cause

theorem detached_ensure (hs : s.attached? = none) (holds : Bool) (cause : ExpansionError) :
    Detached (Loading.ensure holds cause) s := by
  cases holds with
  | true => exact detached_pure hs ()
  | false => exact detached_throw hs cause

theorem detached_loading_runCode (error : String → ExpansionError) (code : Code α)
    (hs : s.attached? = none) : Detached (Loading.runCode f error code) s := by
  obtain ⟨ending, s', ns, hs', hns, hrun⟩ := detached_runCode f code hs
  cases ending with
  | ok value =>
    refine ⟨.ok value, s', ns, hs', hns, fun w => ?_⟩
    simp only [Loading.runCode, hrun, ended]
  | error stop =>
    refine ⟨.error (error stop.text), s', ns, hs', hns, fun w => ?_⟩
    simp only [Loading.runCode, hrun, ended]

theorem detached_answered (name : String) (answer : Answer α) (hs : s.attached? = none) :
    Detached (Loading.answered f name answer) s := by
  cases answer with
  | returns value => exact detached_pure hs value
  | traps => exact detached_throw hs _
  | computes code =>
    exact detached_loading_runCode f (fun cause => .invalidMetadata s!"{name}: {cause}") code hs

theorem detached_metadata (name : String) (e : Export (Answer Packed)) (hs : s.attached? = none) :
    Detached (Loading.metadata f name e) s := by
  unfold Loading.metadata
  refine (detached_ofExcept hs _).bind fun answer s' hs' => ?_
  refine (detached_answered f name answer hs').bind fun packed s'' hs'' => ?_
  refine detached_of_get (fun w => rfl) ?_
  split
  · exact detached_throw hs'' _
  · split
    · exact detached_pure hs'' _
    · exact detached_throw hs'' _

theorem detached_instantiate (m : Module) (hs : s.attached? = none) :
    Detached (Loading.instantiate m) s := by
  unfold Loading.instantiate
  split
  · exact detached_throw hs _
  · split
    · exact detached_throw hs _
    · rename_i memory _
      have hmodify :
          Detached (modify ({ · with memory, registers := m.registers }) : Loading Unit) s :=
        (detached_pure (s := { s with memory, registers := m.registers }) hs ()).of_eq fun w => rfl
      refine hmodify.bind fun _ s₁ h₁ => ?_
      refine (detached_ensure h₁ _ _).bind fun _ s₂ h₂ => ?_
      exact detached_loading_runCode _ _ _ h₂

theorem detached_kindOf (m : Module) (hs : s.attached? = none) :
    Detached (Loading.kindOf f m) s := by
  unfold Loading.kindOf
  refine (detached_ofExcept hs _).bind fun answer? s' hs' => ?_
  cases answer? with
  | none => exact detached_pure hs' _
  | some answer =>
    refine (detached_answered f _ answer hs').bind fun code s'' hs'' => ?_
    split
    · exact detached_pure hs'' _
    · exact detached_throw hs'' _

theorem detached_described (m : Module) (fuel : Nat) (hs : s.attached? = none) :
    Detached (m.described fuel) s := by
  unfold Module.described
  refine (detached_instantiate m hs).bind fun _ s₁ h₁ => ?_
  refine (detached_ensure h₁ _ _).bind fun _ s₂ h₂ => ?_
  refine (detached_metadata _ _ _ h₂).bind fun typeKey s₃ h₃ => ?_
  refine (detached_ensure h₃ _ _).bind fun _ s₄ h₄ => ?_
  refine (detached_metadata _ _ _ h₄).bind fun version s₅ h₅ => ?_
  refine (detached_metadata _ _ _ h₅).bind fun author s₆ h₆ => ?_
  refine (detached_kindOf _ m h₆).bind fun kind s₇ h₇ => ?_
  refine (detached_ofExcept h₇ _).bind fun entry s₈ h₈ => ?_
  refine (detached_ofExcept h₈ _).bind fun alloc? s₉ h₉ => ?_
  exact (detached_ofExcept h₉ _).bind fun validate? s₁₀ h₁₀ => detached_pure h₁₀ _

/-- A module that has told what it adds is loaded with the store it has then. -/
theorem Module.loadIn_of_described {m : Module} {fuel : Nat} {guest : Instance} {w : World}
    {machine : Machine}
    (h : m.described fuel ⟨{ memory := .ofPages 0, fuel }, w⟩ = .ok guest machine) :
    m.loadIn w fuel = (.ok (guest.withStore machine.toStore), machine.world) := by
  unfold Module.loadIn Module.loading
  rw [bind_apply, h]
  rfl

/-- A module is loaded as the same guest in every world, with no context attached to it, and
    the world is left with notices of the guest. -/
theorem Module.loadIn_spec (m : Module) (fuel : Nat) :
    ∃ (result : Except ExpansionError Instance) (ns : List Notice), (∀ n ∈ ns, n.FromGuest) ∧
      (∀ guest, result = .ok guest → guest.attached? = none) ∧
      ∀ w, m.loadIn w fuel = (result, ns.foldl World.report w) := by
  obtain ⟨ending, s', ns, hs', hns, hrun⟩ :=
    detached_described m fuel (s := { memory := .ofPages 0, fuel }) rfl
  cases ending with
  | error cause =>
    refine ⟨.error cause, ns, hns, nofun, fun w => ?_⟩
    unfold Module.loadIn Module.loading
    rw [bind_apply, hrun]
    rfl
  | ok guest =>
    refine ⟨.ok (guest.withStore s'), ns, hns, ?_, fun w => ?_⟩
    · intro guest' hguest
      cases hguest
      exact hs'
    · exact Module.loadIn_of_described (hrun w)

/-- The same for the module of a file, if it holds one. -/
theorem loadIn_spec (fuel : Nat) (path : String) (content : FileContent) :
    ∃ ns : List Notice, (∀ n ∈ ns, n.FromGuest) ∧
      (∀ guest, load fuel path content = .ok guest → guest.attached? = none) ∧
      ∀ w, loadIn w fuel path content = (load fuel path content, ns.foldl World.report w) := by
  unfold load loadIn
  cases Module.ofContent path content with
  | error cause => exact ⟨[], nofun, nofun, fun w => rfl⟩
  | ok m =>
    obtain ⟨result, ns, hns, hattached, hload⟩ := m.loadIn_spec fuel
    simp only [hload]
    exact ⟨ns, hns, hattached, fun w => rfl⟩

end Loading

end Guest

end RuleEngine
