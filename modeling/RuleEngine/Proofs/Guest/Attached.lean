/-
  RuleEngine/Proofs/Guest/Attached.lean
  =====================================
  **What a call of a guest sees.**

  A call attaches the context it is given before anything else, and the host functions
  look at that context and at no other.  So the call comes to the same when something else
  of the world is changed first, and the change is still there after it (`Unseen`,
  `Overlooks`).  Of a guest's own store it sees everything but the context and the fuel that
  an earlier call may have left (`invoke_leftover`).

  At its end a call takes the context off again, however it ends (`invoke_detaches`).  Only a
  failing callback of the platform passes by that, and what is left then is replaced before
  the next call runs any code.
-/
import RuleEngine.Proofs.Guest.Detached

namespace RuleEngine

namespace World

/-- A guest that is replaced is there instead, if it was there. -/
theorem guest_setGuest (w : World) (g : GuestId) (guest : Guest.Instance) :
    (w.setGuest g guest).guest g = guest ∨
      (w.setGuest g guest).guest g = default ∧ w.setGuest g guest = w := by
  unfold setGuest World.guest
  by_cases hg : g < w.guests.size
  · left
    simp [hg]
  · right
    have hsame : w.guests.setIfInBounds g guest = w.guests :=
      Array.setIfInBounds_eq_of_size_le (Nat.le_of_not_lt hg)
    simp [hsame, hg]

theorem setGuest_setGuest (w : World) (g : GuestId) (first guest : Guest.Instance) :
    (w.setGuest g first).setGuest g guest = w.setGuest g guest := by
  simp [setGuest]

end World

namespace Guest

/-- A change of the world that does not concern the host functions while a context is
    attached: it keeps the platform and that context, and may be made before or after what
    they do. -/
structure Unseen (context? : Option ContextId) (φ : World → World) : Prop where
  platform_eq : ∀ w, (φ w).platform = w.platform
  context_eq : ∀ w, ∀ c ∈ context?, (φ w).context c = w.context c
  setContext : ∀ w, ∀ c ∈ context?, ∀ x, φ (w.setContext c x) = (φ w).setContext c x
  report : ∀ w n, φ (w.report n) = (φ w).report n
  deliver : ∀ w d, φ { w with deliveries := w.deliveries.push d } =
    { φ w with deliveries := (φ w).deliveries.push d }

theorem unseen_setGuest (context? : Option ContextId) (g : GuestId) (guest : Instance) :
    Unseen context? (·.setGuest g guest) where
  platform_eq _ := rfl
  context_eq _ _ _ := rfl
  setContext _ _ _ _ := rfl
  report _ _ := rfl
  deliver _ _ := rfl

theorem unseen_setContext {context? : Option ContextId} {other : ContextId}
    (hother : other ∉ context?) (x : Context) : Unseen context? (·.setContext other x) where
  platform_eq _ := rfl
  context_eq w c hc := by
    have hne : other ≠ c := fun heq => hother (heq ▸ hc)
    show ((w.contexts.set other x)[c]?).getD _ = (w.contexts[c]?).getD _
    rw [List.getElem?_set_ne hne]
  setContext w c hc y := by
    have hne : c ≠ other := fun heq => hother (heq ▸ hc)
    unfold World.setContext
    dsimp only
    rw [List.set_comm _ _ hne]
  report _ _ := rfl
  deliver _ _ := rfl

/-! ### Steps that overlook a change -/

def Machine.changed (φ : World → World) (m : Machine) : Machine := { m with world := φ m.world }

theorem Unseen.context_changed {φ : World → World} {m : Machine} (hφ : Unseen m.attached? φ)
    {c : ContextId} (hc : c ∈ m.attached?) : (m.changed φ).world.context c = m.world.context c :=
  hφ.context_eq m.world c hc

section Overlooks

variable {ε α β : Type} {φ : World → World} {m m' : Machine}

/-- From a machine on, a step comes to the same when the world is changed first, and keeps
    what is attached. -/
def Overlooks (φ : World → World) (x : EStateM ε Machine α) (m : Machine) : Prop :=
  ∃ (ending : Except ε α) (m' : Machine), m'.attached? = m.attached? ∧
    x m = ended ending m' ∧ x (m.changed φ) = ended ending (m'.changed φ)

theorem overlooks_pure (a : α) : Overlooks φ (pure a : EStateM ε Machine α) m :=
  ⟨.ok a, m, rfl, rfl, rfl⟩

theorem overlooks_throw (e : ε) : Overlooks φ (throw e : EStateM ε Machine α) m :=
  ⟨.error e, m, rfl, rfl, rfl⟩

/-- A step that goes on as another one from another machine. -/
theorem Overlooks.of_eq {x y : EStateM ε Machine α} (hy : Overlooks φ y m')
    (hattached : m'.attached? = m.attached?) (h : x m = y m')
    (hchanged : x (m.changed φ) = y (m'.changed φ)) : Overlooks φ x m := by
  obtain ⟨ending, m'', hm'', hy, hychanged⟩ := hy
  exact ⟨ending, m'', hm''.trans hattached, h.trans hy, hchanged.trans hychanged⟩

/-- A sequence overlooks a change if its steps do. -/
theorem Overlooks.bind {x : EStateM ε Machine α} {f : α → EStateM ε Machine β}
    (hx : Overlooks φ x m)
    (hf : ∀ a m', m'.attached? = m.attached? → Overlooks φ (f a) m') :
    Overlooks φ (x >>= f) m := by
  obtain ⟨ending, m', hm', hx, hxchanged⟩ := hx
  cases ending with
  | error e =>
    refine ⟨.error e, m', hm', ?_, ?_⟩
    · rw [bind_apply, hx]
      rfl
    · rw [bind_apply, hxchanged]
      rfl
  | ok a =>
    refine (hf a m' hm').of_eq hm' ?_ ?_
    · rw [bind_apply, hx]
      rfl
    · rw [bind_apply, hxchanged]
      rfl

/-- A step that reads the machine first, and of the world only what is not changed. -/
theorem Overlooks.of_get {f : Machine → EStateM ε Machine α} (h : Overlooks φ (f m) m)
    (hf : f (m.changed φ) = f m) : Overlooks φ (get >>= f) m := by
  refine h.of_eq rfl rfl ?_
  rw [get_bind_apply, hf]

theorem overlooks_change {g : World → World} (hg : ∀ w, φ (g w) = g (φ w)) :
    Overlooks φ (Step.change g) m := by
  refine ⟨.ok (), m.changed g, rfl, rfl, ?_⟩
  show EStateM.Result.ok () { m with world := g (φ m.world) } = _
  rw [← hg]
  rfl

theorem overlooks_report (hφ : Unseen m.attached? φ) (n : Notice) :
    Overlooks φ (Step.report n) m :=
  overlooks_change fun w => hφ.report w n

theorem overlooks_deliver (hφ : Unseen m.attached? φ) (d : Delivery) :
    Overlooks φ (Step.deliver d) m := by
  have hplatform : (m.changed φ).world.platform = m.world.platform := hφ.platform_eq m.world
  refine Overlooks.of_get ?_ ?_
  · split
    · exact overlooks_throw _
    · exact overlooks_change fun w => hφ.deliver w d
  · rw [hplatform]

end Overlooks

/-! ### Host functions -/

section Host

variable (f : Frame) {α : Type} {φ : World → World} {m : Machine}

/-- Memory is written without regard to the world. -/
theorem writeText_apply (out capacity : Int32) (text : String) (s : Store) :
    ∃ answer memory, ∀ w,
      Step.writeText f out capacity text ⟨s, w⟩ = .ok answer ⟨{ s with memory }, w⟩ := by
  unfold Step.writeText
  cases f.exportsMemory with
  | false => exact ⟨-1, s.memory, fun w => rfl⟩
  | true =>
    simp only [Bool.not_true, Bool.false_eq_true, if_false]
    split
    · exact ⟨lengthAnswer (Text.encodeUtf8 text).length, s.memory, fun w => rfl⟩
    · simp only [get_bind_apply]
      cases s.memory.write? (unsigned out) ((Text.encodeUtf8 text).take
          (min (Text.encodeUtf8 text).length (max capacity.toInt 0).toNat)) with
      | some memory => exact ⟨lengthAnswer (Text.encodeUtf8 text).length, memory, fun w => rfl⟩
      | none => exact ⟨-1, s.memory, fun w => rfl⟩

theorem overlooks_writeText (out capacity : Int32) (text : String) :
    Overlooks φ (Step.writeText f out capacity text) m := by
  obtain ⟨answer, memory, hw⟩ := writeText_apply f out capacity text m.toStore
  exact ⟨.ok answer, { m with memory }, rfl, hw m.world, hw (φ m.world)⟩

/-- A step that reads a text first. -/
theorem overlooks_of_readText {start length : Int32} {next : Option String → Step α}
    (h : ∀ text?, Overlooks φ (next text?) m) :
    Overlooks φ (Step.readText f start length >>= next) m := by
  obtain ⟨text?, ht⟩ := readText_apply f start length m.toStore
  have hchanged : Step.readText f start length (m.changed φ) = .ok text? (m.changed φ) :=
    ht (φ m.world)
  refine (h text?).of_eq rfl ?_ ?_
  · rw [bind_apply, ht m.world]
  · rw [bind_apply, hchanged]

/-- A step that asks for the attached context first. -/
theorem overlooks_of_attached (hφ : Unseen m.attached? φ) {next : Option ContextId → Step α}
    (hnone : ∀ m', m'.attached? = none → Overlooks φ (next none) m')
    (hsome : ∀ c, m.attached? = some c → Overlooks φ (next (some c)) m) :
    Overlooks φ (Step.attached f >>= next) m := by
  obtain ⟨⟨memory, heap, registers, fuel, attached?⟩, w⟩ := m
  cases attached? with
  | none =>
    have hreport : Overlooks φ (Step.report (.guestDetached f.label))
        ⟨⟨memory, heap, registers, fuel, none⟩, w⟩ := overlooks_report hφ _
    refine (hreport.bind fun _ m' hm' => hnone m' hm').of_eq rfl rfl rfl
  | some c => exact (hsome c rfl).of_eq rfl rfl rfl

theorem overlooks_log (hφ : Unseen m.attached? φ) (start length : Int32) :
    Overlooks φ (Step.log f start length) m := by
  unfold Step.log
  refine overlooks_of_readText f fun text? => ?_
  cases text? with
  | some text => exact overlooks_report hφ _
  | none => exact overlooks_pure ()

theorem overlooks_deliverAll (hφ : Unseen m.attached? φ) (text : String)
    (targets : List Subject) :
    Overlooks φ (forIn targets PUnit.unit fun target _ => do
      Step.deliver (.message target text)
      pure (.yield PUnit.unit)) m := by
  induction targets generalizing m with
  | nil => exact overlooks_pure _
  | cons target rest ih =>
    rw [List.forIn_cons]
    simp only [bind_assoc, pure_bind]
    refine (overlooks_deliver hφ _).bind fun _ m' hm' => ?_
    exact ih (hm' ▸ hφ)

theorem overlooks_sendMessage (hφ : Unseen m.attached? φ) (start length : Int32) :
    Overlooks φ (Step.sendMessage f start length) m := by
  unfold Step.sendMessage
  refine overlooks_of_attached f hφ (fun m' _ => ?_) (fun c hc => ?_)
  · exact overlooks_of_readText f fun text? => overlooks_pure ()
  · refine overlooks_of_readText f fun text? => ?_
    cases text? with
    | none => exact overlooks_pure ()
    | some text =>
      have hall := overlooks_deliverAll hφ text (m.world.context c).recipients
      refine Overlooks.of_get (hall.bind fun _ _ _ => overlooks_pure ()) ?_
      rw [hφ.context_changed hc]

theorem overlooks_runCommand (hφ : Unseen m.attached? φ) (start length : Int32) :
    Overlooks φ (Step.runCommand f start length) m := by
  unfold Step.runCommand
  refine overlooks_of_attached f hφ (fun m' _ => ?_) (fun c hc => ?_)
  · exact overlooks_of_readText f fun text? => overlooks_pure ()
  · refine overlooks_of_readText f fun text? => ?_
    cases text? with
    | none => exact overlooks_pure ()
    | some text =>
      refine Overlooks.of_get (overlooks_deliver hφ _) ?_
      rw [hφ.context_changed hc]

theorem overlooks_setProperty (hφ : Unseen m.attached? φ)
    (keyStart keyLength valueStart valueLength : Int32) :
    Overlooks φ (Step.setProperty f keyStart keyLength valueStart valueLength) m := by
  unfold Step.setProperty
  refine overlooks_of_attached f hφ (fun m' _ => overlooks_pure ()) (fun c hc => ?_)
  refine overlooks_of_readText f fun key? => overlooks_of_readText f fun value? => ?_
  cases key? with
  | none => exact overlooks_pure ()
  | some key =>
    cases value? with
    | none => exact overlooks_pure ()
    | some value =>
      refine overlooks_change fun w => ?_
      rw [hφ.setContext w c hc, hφ.context_eq w c hc]

theorem overlooks_getProperty (hφ : Unseen m.attached? φ)
    (keyStart keyLength out capacity : Int32) :
    Overlooks φ (Step.getProperty f keyStart keyLength out capacity) m := by
  unfold Step.getProperty
  refine overlooks_of_attached f hφ (fun m' _ => overlooks_pure (-1)) (fun c hc => ?_)
  refine overlooks_of_readText f fun key? => ?_
  cases key? with
  | none => exact overlooks_pure (-1)
  | some key =>
    refine Overlooks.of_get ?_ ?_
    · split
      · exact overlooks_pure (-1)
      · exact overlooks_writeText f out capacity _
    · rw [hφ.context_changed hc]

theorem overlooks_subjectId (hφ : Unseen m.attached? φ) (out capacity : Int32) :
    Overlooks φ (Step.subjectId f out capacity) m := by
  unfold Step.subjectId
  refine overlooks_of_attached f hφ (fun m' _ => overlooks_pure (-1)) (fun c hc => ?_)
  refine Overlooks.of_get (overlooks_writeText f out capacity _) ?_
  rw [hφ.context_changed hc]

end Host

/-! ### Code and calls -/

section Call

variable (f : Frame) {α : Type} {φ : World → World} {m : Machine}

theorem overlooks_runDry : Overlooks φ (Step.runDry : Step α) m :=
  ⟨.error .outOfFuel, { m with fuel := 0 }, rfl, rfl, rfl⟩

theorem overlooks_runCode (code : Code α) (hφ : Unseen m.attached? φ) :
    Overlooks φ (Step.runCode f code) m := by
  -- what a host function does first is overlooked, and so is what is left of the code
  induction code generalizing m with
  | done result => exact overlooks_pure result
  | trap cause => exact overlooks_throw _
  | outOfFuel => exact overlooks_runDry
  | burn units next ih =>
    obtain ⟨s, w⟩ := m
    by_cases hfuel : units < s.fuel
    · refine (ih (m := ⟨{ s with fuel := s.fuel - units }, w⟩) hφ).of_eq rfl ?_ ?_
      · rw [runCode_burn, if_pos hfuel]
      · show Step.runCode f _ ⟨s, φ w⟩ = _
        rw [runCode_burn, if_pos hfuel]
        rfl
    · refine (overlooks_runDry (m := ⟨s, w⟩)).of_eq rfl ?_ ?_
      · rw [runCode_burn, if_neg hfuel]
      · show Step.runCode f _ ⟨s, φ w⟩ = _
        rw [runCode_burn, if_neg hfuel]
        rfl
  | load address next ih => exact (ih (m.memory.byte? address) hφ).of_eq rfl rfl rfl
  | store address byte next ih =>
    obtain ⟨s, w⟩ := m
    cases hw : s.memory.write? address [byte] with
    | some memory =>
      refine (ih true (m := ⟨{ s with memory }, w⟩) hφ).of_eq rfl ?_ ?_
      · rw [runCode_store, hw]
      · show Step.runCode f _ ⟨s, φ w⟩ = _
        rw [runCode_store, hw]
        rfl
    | none =>
      refine (ih false (m := ⟨s, w⟩) hφ).of_eq rfl ?_ ?_
      · rw [runCode_store, hw]
      · show Step.runCode f _ ⟨s, φ w⟩ = _
        rw [runCode_store, hw]
        rfl
  | grow more next ih =>
    obtain ⟨s, w⟩ := m
    cases hg : s.memory.grow? more with
    | some memory =>
      refine (ih (some s.memory.pages) (m := ⟨{ s with memory }, w⟩) hφ).of_eq rfl ?_ ?_
      · rw [runCode_grow, hg]
      · show Step.runCode f _ ⟨s, φ w⟩ = _
        rw [runCode_grow, hg]
        rfl
    | none =>
      refine (ih none (m := ⟨s, w⟩) hφ).of_eq rfl ?_ ?_
      · rw [runCode_grow, hg]
      · show Step.runCode f _ ⟨s, φ w⟩ = _
        rw [runCode_grow, hg]
        rfl
  | readRegister number next ih => exact (ih (m.registers number) hφ).of_eq rfl rfl rfl
  | writeRegister number value next ih =>
    exact (ih (m := { m with registers := m.registers.write number value }) hφ).of_eq rfl rfl rfl
  | log start length next ih =>
    exact (overlooks_log f hφ start length).bind fun _ m' hm' => ih (hm' ▸ hφ)
  | sendMessage start length next ih =>
    exact (overlooks_sendMessage f hφ start length).bind fun _ m' hm' => ih (hm' ▸ hφ)
  | runCommand start length next ih =>
    exact (overlooks_runCommand f hφ start length).bind fun _ m' hm' => ih (hm' ▸ hφ)
  | setProperty keyStart keyLength valueStart valueLength next ih =>
    exact (overlooks_setProperty f hφ keyStart keyLength valueStart valueLength).bind
      fun _ m' hm' => ih (hm' ▸ hφ)
  | getProperty keyStart keyLength out capacity next ih =>
    exact (overlooks_getProperty f hφ keyStart keyLength out capacity).bind
      fun length m' hm' => ih length (hm' ▸ hφ)
  | subjectId out capacity next ih =>
    exact (overlooks_subjectId f hφ out capacity).bind fun length m' hm' => ih length (hm' ▸ hφ)

theorem overlooks_reserve (a : Allocator) (length : Int32) (hφ : Unseen m.attached? φ) :
    Overlooks φ (Step.reserve f a length) m := by
  cases a with
  | bump =>
    have hpure : Overlooks φ (pure m.heap : Step Int32) { m with heap := m.heap + length } :=
      overlooks_pure _
    exact hpure.of_eq rfl rfl rfl
  | fixed address => exact overlooks_pure address
  | trapping => exact overlooks_throw _
  | computes code =>
    obtain ⟨ending, m', hm', hrun, hchanged⟩ := overlooks_runCode f (code length) hφ
    rcases ending with (cause | _ | message) | address
    · refine ⟨.error (.trapped s!"alloc trapped: {cause}"), m', hm', ?_, ?_⟩
      · simp only [Step.reserve, hrun, ended]
      · simp only [Step.reserve, hchanged, ended]
    · refine ⟨.error .outOfFuel, m', hm', ?_, ?_⟩
      · simp only [Step.reserve, hrun, ended]
      · simp only [Step.reserve, hchanged, ended]
    · refine ⟨.error (.panicked message), m', hm', ?_, ?_⟩
      · simp only [Step.reserve, hrun, ended]
      · simp only [Step.reserve, hchanged, ended]
    · refine ⟨.ok address, m', hm', ?_, ?_⟩
      · simp only [Step.reserve, hrun, ended]
      · simp only [Step.reserve, hchanged, ended]

theorem overlooks_writePayload (address : Int32) (bytes : List UInt8) :
    Overlooks φ (Step.writePayload address bytes) m := by
  obtain ⟨s, w⟩ := m
  cases hw : s.memory.write? (unsigned address) bytes with
  | some memory =>
    refine ⟨.ok (), ⟨{ s with memory }, w⟩, rfl, ?_, ?_⟩
    · rw [writePayload_apply, hw]
      rfl
    · show Step.writePayload address bytes ⟨s, φ w⟩ = _
      rw [writePayload_apply, hw]
      rfl
  | none =>
    refine ⟨.error (.trapped "alloc returned a pointer outside of memory"), ⟨s, w⟩, rfl, ?_, ?_⟩
    · rw [writePayload_apply, hw]
      rfl
    · show Step.writePayload address bytes ⟨s, φ w⟩ = _
      rw [writePayload_apply, hw]
      rfl

theorem overlooks_placePayload (alloc? : Option Allocator) (payload : String)
    (hφ : Unseen m.attached? φ) : Overlooks φ (Step.placePayload f alloc? payload) m := by
  unfold Step.placePayload
  cases alloc? with
  | none => exact overlooks_pure _
  | some a =>
    dsimp only
    split
    · exact overlooks_pure _
    · split
      · exact overlooks_throw _
      · refine (overlooks_reserve f a _ hφ).bind fun address m' _ => ?_
        exact (overlooks_writePayload address _).bind fun _ _ _ => overlooks_pure _

/-- Taking the context off is overlooked like the step before it, and done unless a callback
    of the platform failed. -/
theorem Overlooks.detaching {x : Step α} (hx : Overlooks φ x m) :
    ∃ (ending : Except Stop α) (m' : Machine),
      ((∀ message, ending ≠ .error (.panicked message)) → m'.attached? = none) ∧
      Step.detaching x m = ended ending m' ∧
      Step.detaching x (m.changed φ) = ended ending (m'.changed φ) := by
  obtain ⟨ending, m', -, hrun, hchanged⟩ := hx
  unfold Step.detaching
  rw [hrun, hchanged]
  rcases ending with (cause | _ | message) | a
  · exact ⟨.error (.trapped cause), { m' with attached? := none }, fun _ => rfl, rfl, rfl⟩
  · exact ⟨.error .outOfFuel, { m' with attached? := none }, fun _ => rfl, rfl, rfl⟩
  · exact ⟨.error (.panicked message), m', fun h => absurd rfl (h message), rfl, rfl⟩
  · exact ⟨.ok a, { m' with attached? := none }, fun _ => rfl, rfl, rfl⟩

/-- A call comes to the same whether or not the world is changed in a way that it cannot see, and
    afterwards no context is attached. -/
theorem call_spec (label : String) (alloc? : Option Allocator) (fuel : Nat)
    {context? : Option ContextId} (program : Program) (payload : String)
    (hφ : Unseen context? φ) (m : Machine) :
    ∃ (ending : Except Stop Int32) (m' : Machine),
      ((∀ message, ending ≠ .error (.panicked message)) → m'.attached? = none) ∧
      Step.call label alloc? fuel context? program payload m = ended ending m' ∧
      Step.call label alloc? fuel context? program payload (m.changed φ) =
        ended ending (m'.changed φ) := by
  have hbody : Overlooks φ (Step.placePayload { label } alloc? payload >>= fun arguments =>
      Step.runCode { label } (program.code arguments.1 arguments.2))
      { m with fuel, attached? := context? } :=
    (overlooks_placePayload { label } alloc? payload hφ).bind fun arguments m' hm' =>
      overlooks_runCode { label } (program.code arguments.1 arguments.2) (hm' ▸ hφ)
  exact hbody.detaching

end Call

/-! ### Calls of the guests of a world -/

/-- A guest that is replaced by itself with another store is the same but for its store. -/
theorem guest_setGuest_withStore (w : World) (g : GuestId) (s : Store) :
    ∃ s', (w.setGuest g ((w.guest g).withStore s)).guest g = (w.guest g).withStore s' := by
  rcases w.guest_setGuest g ((w.guest g).withStore s) with hleft | ⟨-, hsame⟩
  · exact ⟨s, hleft⟩
  · rw [hsame]
    exact ⟨((w.guest g).machine w).toStore, rfl⟩

section Invoke

variable {w : World} {g : GuestId} {context? : Option ContextId} {program : Program}
  {payload : String}

/-- What a call from outside comes to is what the call on the guest's machine ends with. -/
theorem invoke_of_call {ending : Except Stop Int32} {m : Machine}
    (h : Step.call (w.guest g).typeKey (w.guest g).alloc? (w.guest g).fuel context? program payload
      ((w.guest g).machine w) = ended ending m) :
    invoke w g context? program payload =
      (ending, m.world.setGuest g ((w.guest g).withStore m.toStore)) := by
  unfold invoke
  dsimp only
  rw [h]
  cases ending <;> rfl

/-- A call comes to the same when the world is changed first in a way that concerns neither
    the guest nor the context of the call. -/
theorem invoke_changed (φ : World → World) (w : World) (hφ : Unseen context? φ)
    (hguest : ∀ w, (φ w).guest g = w.guest g)
    (hset : ∀ w x, φ (w.setGuest g x) = (φ w).setGuest g x) :
    invoke (φ w) g context? program payload =
      ((invoke w g context? program payload).1, φ (invoke w g context? program payload).2) := by
  obtain ⟨ending, m, -, hcall, hchanged⟩ := call_spec (w.guest g).typeKey (w.guest g).alloc?
    (w.guest g).fuel program payload hφ ((w.guest g).machine w)
  rw [invoke_of_call hcall]
  dsimp only
  rw [hset, ← hguest w]
  refine invoke_of_call (w := φ w) (m := m.changed φ) ?_
  rw [hguest]
  exact hchanged

/-- A call does not see a context that it is not given, and leaves it as it is. -/
theorem invoke_setContext {other : ContextId} (hother : other ∉ context?) (x : Context) :
    invoke (w.setContext other x) g context? program payload =
      ((invoke w g context? program payload).1,
        (invoke w g context? program payload).2.setContext other x) := by
  have hφ := unseen_setContext hother x
  have hguest : ∀ w : World, (w.setContext other x).guest g = w.guest g := fun w => rfl
  have hset : ∀ (w : World) guest,
      (w.setGuest g guest).setContext other x = (w.setContext other x).setGuest g guest :=
    fun w guest => rfl
  exact invoke_changed (·.setContext other x) w hφ hguest hset

/-- What an earlier call left of its fuel and attached to a guest is replaced before the next
    one begins. -/
theorem invoke_leftover (w : World) (g : GuestId) (fuelLeft : Nat)
    (left? context? : Option ContextId) (program : Program) (payload : String) :
    invoke (w.setGuest g { w.guest g with fuelLeft, attached? := left? }) g context? program
        payload =
      invoke w g context? program payload := by
  let left : Instance := { w.guest g with fuelLeft, attached? := left? }
  show invoke (w.setGuest g left) g context? program payload = _
  rcases w.guest_setGuest g left with hguest | ⟨-, hsame⟩
  · obtain ⟨ending, m, -, hcall, hchanged⟩ := call_spec (w.guest g).typeKey (w.guest g).alloc?
      (w.guest g).fuel program payload (unseen_setGuest context? g left) ((w.guest g).machine w)
    have hcall' : Step.call ((w.setGuest g left).guest g).typeKey
        ((w.setGuest g left).guest g).alloc? ((w.setGuest g left).guest g).fuel context? program
        payload (((w.setGuest g left).guest g).machine (w.setGuest g left)) =
        ended ending (m.changed (·.setGuest g left)) := by
      rw [hguest]
      exact hchanged
    rw [invoke_of_call hcall, invoke_of_call hcall', hguest]
    show (_, (m.world.setGuest g left).setGuest g _) = _
    rw [World.setGuest_setGuest]
    rfl
  · rw [hsame]

/-- What an earlier call left attached to a guest does not reach the next one. -/
theorem invoke_attached (w : World) (g : GuestId) (left? context? : Option ContextId)
    (program : Program) (payload : String) :
    invoke (w.setGuest g { w.guest g with attached? := left? }) g context? program payload =
      invoke w g context? program payload :=
  invoke_leftover w g (w.guest g).fuelLeft left? context? program payload

/-- After a call no context is attached to the guest, unless a callback of the platform
    failed. -/
theorem invoke_detaches
    (h : ∀ message, (invoke w g context? program payload).1 ≠ .error (.panicked message)) :
    ((invoke w g context? program payload).2.guest g).attached? = none := by
  obtain ⟨ending, m, hattached, hcall, -⟩ := call_spec (w.guest g).typeKey (w.guest g).alloc?
    (w.guest g).fuel program payload (unseen_setGuest context? g default) ((w.guest g).machine w)
  rw [invoke_of_call hcall] at h ⊢
  rcases m.world.guest_setGuest g ((w.guest g).withStore m.toStore) with hguest | ⟨hguest, -⟩
  · rw [hguest]
    exact hattached h
  · rw [hguest]
    rfl

end Invoke

end Guest

end RuleEngine
