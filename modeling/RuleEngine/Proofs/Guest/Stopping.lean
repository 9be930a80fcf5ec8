/-
  RuleEngine/Proofs/Guest/Stopping.lean
  =====================================
  **Guests that stop.**

  A rule of a guest renders its payload, which changes nothing (`Payload.render_cases`), and
  calls the guest once.  If the call stops before its end, it stops for good, but what the
  host was called for until then has been done.  The rule reports the stop and goes on: an
  action counts as done and a requirement as not met (`stopped_call_fails_safe`).  The next
  call of the guest has all of its fuel again, and no context but its own.
-/
import RuleEngine.Proofs.Guest.Visit
import RuleEngine.Proofs.Rule.Reading

namespace RuleEngine

/-! ### Payloads -/

def Payload.textIn (scope : Scope) : Payload → String
  | .text template => template.render scope
  | .json value => value

section Rendering

variable (c : ContextId) (st : EngineState)

theorem Run.resolve_cases (target : Reference) :
    Run.resolve c target st = .ok () st ∨
      ∃ message, Run.resolve c target st = .error message st ∧ st.world.Faults message := by
  cases target with
  | property key => exact .inl rfl
  | placeholder name =>
    cases hfault : st.world.platform.fault (.placeholder (st.world.context c).subject name) with
    | none =>
      left
      exact Run.call_of_no_fault hfault
    | some message =>
      right
      exact ⟨message, Run.call_of_fault hfault, _, name, hfault⟩

/-- Resolving references changes nothing, or stops where the platform fails. -/
theorem Run.resolveAll_cases (targets : List Reference) :
    (forIn targets PUnit.unit fun target _ => do
      Run.resolve c target
      pure (.yield PUnit.unit) : Run PUnit) st = .ok PUnit.unit st ∨
    ∃ message, (forIn targets PUnit.unit fun target _ => do
      Run.resolve c target
      pure (.yield PUnit.unit) : Run PUnit) st = .error message st ∧
      st.world.Faults message := by
  induction targets with
  | nil => exact .inl rfl
  | cons target rest ih =>
    rw [List.forIn_cons]
    simp only [Run.bind_apply]
    rcases Run.resolve_cases c st target with hok | ⟨message, herror, hfaults⟩
    · rw [hok]
      exact ih
    · rw [herror]
      exact .inr ⟨message, rfl, hfaults⟩

/-- A payload is rendered at this moment, and nothing changes; if that fails then a
    placeholder does. -/
theorem Payload.render_cases (p : Payload) :
    p.render c st = .ok (p.textIn (st.world.scope c)) st ∨
      ∃ message, p.render c st = .error message st ∧ st.world.Faults message := by
  cases p with
  | json value => exact .inl rfl
  | text template =>
    show Run.render c template st = _ ∨ ∃ message, Run.render c template st = _ ∧ _
    unfold Run.render
    rw [Run.bind_apply]
    rcases Run.resolveAll_cases c st template.references with hok | ⟨message, herror, hfaults⟩
    · rw [hok]
      exact .inl rfl
    · rw [herror]
      exact .inr ⟨message, rfl, hfaults⟩

theorem Payload.render_eq (p : Payload) (h : st.world.Serves) :
    p.render c st = .ok (p.textIn (st.world.scope c)) st := by
  rcases p.render_cases c st with hok | ⟨message, -, subject, name, hfault⟩
  · exact hok
  · rw [h] at hfault
    cases hfault

end Rendering

/-! ### Warnings -/

def Notice.warnsOfExpansion (n : Notice) : Bool := n.level == .warn && n.target == .expansions

def World.expansionWarnings (w : World) : List Notice :=
  w.notices.toList.filter Notice.warnsOfExpansion

theorem World.expansionWarnings_report (w : World) (n : Notice) :
    (w.report n).expansionWarnings =
      w.expansionWarnings ++ if n.warnsOfExpansion then [n] else [] := by
  unfold expansionWarnings report
  rw [Array.toList_push, List.filter_append, List.filter_singleton]
  cases n.warnsOfExpansion <;> rfl

namespace Guest

theorem warnsOfExpansion_stopNotice (guest : Instance) (stop : Stop) :
    (stopNotice guest stop).warnsOfExpansion = true := by
  cases stop <;> rfl

section Performing

variable (label : String) (c : ContextId) (calls : List HostCall) (w : World) (g : GuestId)

theorem HostCall.perform_expansionWarnings (call : HostCall) :
    (call.perform label c w).expansionWarnings = w.expansionWarnings := by
  unfold perform
  split
  · rw [World.expansionWarnings_report]
    exact List.append_nil _
  · rfl
  · rfl
  · rfl
  · rfl

theorem foldl_perform_expansionWarnings :
    (calls.foldl (HostCall.perform label c) w).expansionWarnings = w.expansionWarnings := by
  induction calls generalizing w with
  | nil => rfl
  | cons call rest ih => rw [List.foldl_cons, ih, HostCall.perform_expansionWarnings]

theorem foldl_perform_guest :
    (calls.foldl (HostCall.perform label c) w).guest g = w.guest g := by
  induction calls generalizing w with
  | nil => rfl
  | cons call rest ih =>
    rw [List.foldl_cons, ih]
    unfold World.guest
    rw [HostCall.perform_guests]

end Performing

/-- The world in which a guest has called the host for some things, one after the other, and has
    been left with a store. -/
def afterCalls (w : World) (c : ContextId) (g : GuestId) (calls : List HostCall) (s : Store) :
    World :=
  (calls.foldl (HostCall.perform (w.guest g).typeKey c) w).setGuest g ((w.guest g).withStore s)

section AfterCalls

variable (w : World) (c : ContextId) (g : GuestId) (calls : List HostCall) (s : Store)

theorem afterCalls_expansionWarnings :
    (afterCalls w c g calls s).expansionWarnings = w.expansionWarnings :=
  foldl_perform_expansionWarnings (w.guest g).typeKey c calls w

theorem afterCalls_guest : ∃ s', (afterCalls w c g calls s).guest g = (w.guest g).withStore s' := by
  have hguest : (calls.foldl (HostCall.perform (w.guest g).typeKey c) w).guest g = w.guest g :=
    foldl_perform_guest (w.guest g).typeKey c calls w g
  obtain ⟨s', hleft⟩ :=
    guest_setGuest_withStore (calls.foldl (HostCall.perform (w.guest g).typeKey c) w) g s
  rw [hguest] at hleft
  exact ⟨s', hleft⟩

end AfterCalls

/-! ### Calls of the guests of a world -/

/-- What the code of a guest works on when a call begins: its store with all of its fuel and
    with the context of the call. -/
def Instance.ready (guest : Instance) (context? : Option ContextId) (w : World) : Machine :=
  { guest.machine w with fuel := guest.fuel, attached? := context? }

section Invoke

variable {w : World} {g : GuestId} {context? : Option ContextId} {program : Program}
  {text : String} {calls : List HostCall} {ending : Except Stop Int32} {m : Machine}

/-- What a visit comes to is what the call does; at its end the context is taken off, unless
    a callback of the platform has failed. -/
theorem Visit.invoke_eq
    (h : Visit { label := (w.guest g).typeKey } (w.guest g).alloc? program
      (Text.encodeUtf8 text) ((w.guest g).ready context? w) calls ending m) :
    ∃ m', invoke w g context? program text =
        (ending, m'.world.setGuest g ((w.guest g).withStore m'.toStore)) ∧
      ((∀ message, ending ≠ .error (.panicked message)) → m' = { m with attached? := none }) := by
  have hcall := Visit.call_eq (m := (w.guest g).machine w) h
  unfold Step.detaching at hcall
  rcases ending with (cause | _ | message) | code
  · exact ⟨{ m with attached? := none }, invoke_of_call hcall, fun _ => rfl⟩
  · exact ⟨{ m with attached? := none }, invoke_of_call hcall, fun _ => rfl⟩
  · exact ⟨m, invoke_of_call hcall, fun hpanicked => absurd rfl (hpanicked message)⟩
  · exact ⟨{ m with attached? := none }, invoke_of_call hcall, fun _ => rfl⟩

/-- What a call in a trigger does where the platform does not fail: its calls of the host act
    on the world one after the other, and the guest keeps its store, with nothing attached. -/
theorem invoke_effect {c : ContextId} (hserves : w.Serves) (g : GuestId) (program : Program)
    (text : String) :
    ∃ calls ending m,
      Visit { label := (w.guest g).typeKey } (w.guest g).alloc? program (Text.encodeUtf8 text)
        ((w.guest g).ready (some c) w) calls ending m ∧
      (∀ message, ending ≠ .error (.panicked message)) ∧
      invoke w g (some c) program text =
        (ending, afterCalls w c g calls { m.toStore with attached? := none }) := by
  obtain ⟨calls, ending, m, hvisit⟩ := exists_visit { label := (w.guest g).typeKey }
    (w.guest g).alloc? program (Text.encodeUtf8 text) ((w.guest g).ready (some c) w)
  obtain ⟨m', hinvoke, hdetached⟩ := hvisit.invoke_eq
  have hready : ((w.guest g).ready (some c) w).Attending c := ⟨rfl, hserves⟩
  obtain ⟨hworld, hnotPanicked⟩ := hvisit.effect hready
  obtain rfl := hdetached hnotPanicked
  refine ⟨calls, ending, m, hvisit, hnotPanicked, ?_⟩
  rw [hinvoke]
  show (_, m.world.setGuest g _) = _
  rw [hworld]
  rfl

end Invoke

/-! ### Rules of guests -/

/-- A step that calls the program of a guest once, with a text and in a context, and comes to
    what the call comes to.  A call that stops is reported. -/
structure CallsOnce {α : Type} (c : ContextId) (g : GuestId) (text : String) (st : EngineState)
    (x : Run α) (answer : Int32 → α) (fallback : α) : Prop where
  returned : ∀ code w,
    invoke st.world g (some c) (st.world.guest g).entry text = (.ok code, w) →
    x st = .ok (answer code) { st with world := w }
  stopped : ∀ stop w, (∀ message, stop ≠ .panicked message) →
    invoke st.world g (some c) (st.world.guest g).entry text = (.error stop, w) →
    x st = .ok fallback { st with world := w.report (stopNotice (w.guest g) stop) }
  panicked : ∀ message w,
    invoke st.world g (some c) (st.world.guest g).entry text = (.error (.panicked message), w) →
    x st = .error message { st with world := w }

section Rules

variable {α β : Type} {st : EngineState} {c : ContextId} {g : GuestId} {text : String}

theorem run_guest_callsOnce (c : ContextId) (g : GuestId) (text : String) (st : EngineState) :
    CallsOnce c g text st (Run.guest c g text) some none := by
  have hask : Run.ask id st = .ok st.world st := rfl
  constructor
  · intro code w h
    unfold Run.guest
    rw [Run.bind_apply, hask]
    dsimp only
    rw [h]
    rfl
  · intro stop w hstop h
    unfold Run.guest
    rw [Run.bind_apply, hask]
    dsimp only
    rw [h]
    cases stop with
    | trapped cause => rfl
    | outOfFuel => rfl
    | panicked message => exact absurd rfl (hstop message)
  · intro message w h
    unfold Run.guest
    rw [Run.bind_apply, hask]
    dsimp only
    rw [h]
    rfl

/-- A step that renders a payload, calls the guest and makes something of the answer. -/
theorem CallsOnce.rendered {x : String → Run α} {payload : Payload} {answer : Int32 → α}
    {fallback : α} (hx : CallsOnce c g text st (x text) answer fallback)
    (hrender : payload.render c st = .ok text st) (f : α → β) :
    CallsOnce c g text st (do return f (← x (← payload.render c))) (f ∘ answer)
      (f fallback) := by
  constructor
  · intro code w h
    rw [Run.bind_apply, hrender]
    dsimp only
    rw [Run.bind_apply, hx.returned code w h]
    rfl
  · intro stop w hstop h
    rw [Run.bind_apply, hrender]
    dsimp only
    rw [Run.bind_apply, hx.stopped stop w hstop h]
    rfl
  · intro message w h
    rw [Run.bind_apply, hrender]
    dsimp only
    rw [Run.bind_apply, hx.panicked message w h]

theorem action_callsOnce {payload : Payload} (hrender : payload.render c st = .ok text st) :
    CallsOnce c g text st ((ActionBody.guest g payload).run c) (fun _ => ()) () := by
  rw [ActionBody.run]
  exact (run_guest_callsOnce c g text st).rendered hrender fun _ => ()

theorem requirement_callsOnce {payload : Payload} (hrender : payload.render c st = .ok text st)
    (sideEffects : Bool) :
    CallsOnce c g text st ((RequirementBody.guest g payload).check c sideEffects) (· != 0)
      false := by
  rw [RequirementBody.check]
  exact (run_guest_callsOnce c g text st).rendered hrender (·.any (· != 0))

end Rules

/-- A rule whose guest stops before its end fails safe, if the platform does not fail.

    The call goes through some calls of the host, and what these did is all that it did to the
    world, apart from the store of the guest.  The stop is reported, which is the only warning
    about expansions.  The action is done, so that the next one of its list is triggered, and
    the requirement is not met.  Every next call of the guest begins with all of its fuel and
    with no context but the one it is given. -/
theorem stopped_call_fails_safe {st : EngineState} {c : ContextId} {g : GuestId}
    {payload : Payload} {stop : Stop} (hserves : st.world.Serves)
    (hstop : (invoke st.world g (some c) (st.world.guest g).entry
      (payload.textIn (st.world.scope c))).1 = .error stop) :
    let guest := st.world.guest g
    ∃ (calls : List HostCall) (m : Machine) (stopped : EngineState),
      Visit { label := guest.typeKey } guest.alloc? guest.entry
          (Text.encodeUtf8 (payload.textIn (st.world.scope c))) (guest.ready (some c) st.world)
          calls (.error stop) m ∧
      stopped.scheduler = st.scheduler ∧
      stopped.world = (afterCalls st.world c g calls { m.toStore with attached? := none }).report
        (stopNotice guest stop) ∧
      stopped.world.expansionWarnings =
        st.world.expansionWarnings ++ [stopNotice guest stop] ∧
      (ActionBody.guest g payload).run c st = .ok () stopped ∧
      (∀ typeKey chance rest st₀, Action.admitted c typeKey chance st₀ = .ok true st →
        triggerAll c (.mk typeKey chance (.guest g payload) :: rest) st₀ =
          triggerAll c rest stopped) ∧
      (∀ sideEffects,
        (RequirementBody.guest g payload).check c sideEffects st = .ok false stopped) ∧
      (stopped.world.guest g).fuel = guest.fuel ∧
      ∀ context? program text, ∃ calls ending m,
        Visit { label := (stopped.world.guest g).typeKey } (stopped.world.guest g).alloc? program
          (Text.encodeUtf8 text) ((stopped.world.guest g).ready context? stopped.world)
          calls ending m ∧
        (invoke stopped.world g context? program text).1 = ending := by
  intro guest
  obtain ⟨calls, ending, m, hvisit, hnotPanicked, hinvoke⟩ :=
    invoke_effect (c := c) hserves g guest.entry (payload.textIn (st.world.scope c))
  obtain rfl : ending = .error stop := by
    rw [hinvoke] at hstop
    exact hstop
  let after := afterCalls st.world c g calls { m.toStore with attached? := none }
  let stopped : EngineState := { st with world := after.report (stopNotice guest stop) }
  -- the guest that is reported is the one that was called, but for its store
  obtain ⟨s, hleft⟩ :=
    afterCalls_guest st.world c g calls { m.toStore with attached? := none }
  have hnotice : stopNotice (after.guest g) stop = stopNotice guest stop := by
    rw [hleft]
    cases stop <;> rfl
  have hfuel : (stopped.world.guest g).fuel = guest.fuel := by
    show (after.guest g).fuel = guest.fuel
    rw [hleft]
    rfl
  have hnever : ∀ message, stop ≠ .panicked message :=
    fun message heq => hnotPanicked message (congrArg Except.error heq)
  have hrender := payload.render_eq c st hserves
  have haction : (ActionBody.guest g payload).run c st = .ok () stopped := by
    rw [(action_callsOnce hrender).stopped stop after hnever hinvoke, hnotice]
  refine ⟨calls, m, stopped, hvisit, rfl, rfl, ?_, haction, ?_, ?_, hfuel, ?_⟩
  · show (after.report (stopNotice guest stop)).expansionWarnings = _
    rw [World.expansionWarnings_report, warnsOfExpansion_stopNotice, if_pos rfl]
    exact congrArg (· ++ _) (afterCalls_expansionWarnings st.world c g calls _)
  · intro typeKey chance rest st₀ hadmitted
    rw [triggerAll, Run.bind_apply, Action.trigger, Run.bind_apply, hadmitted]
    dsimp only
    rw [if_pos rfl, haction]
  · intro sideEffects
    rw [(requirement_callsOnce hrender sideEffects).stopped stop after hnever hinvoke, hnotice]
  · intro context? program text
    let next := stopped.world.guest g
    obtain ⟨calls', ending', m', hnext⟩ := exists_visit { label := next.typeKey } next.alloc?
      program (Text.encodeUtf8 text) (next.ready context? stopped.world)
    obtain ⟨m'', hinvoke', -⟩ := hnext.invoke_eq
    exact ⟨calls', ending', m', hnext, congrArg Prod.fst hinvoke'⟩

/-- A guest that sends a message and then runs in circles. -/
def dizzyGuest : Instance :=
  { typeKey := "dizzy", version := "1", author := "", kind := .action,
    entry := [.sendMessage (.literal 0) (.literal 0), .spin], validate? := none,
    alloc? := some .bump, fuel := 5, memory := .ofPages 0 }

def dizzyState : EngineState :=
  { world := { contexts := [{ subject := .ofName "ann" }], guests := #[dizzyGuest] } }

theorem stopped_call_fails_safe_dizzyGuest :
    ∃ stopped, (ActionBody.guest 0 (.json "")).run 0 dizzyState = .ok () stopped ∧
      stopped.world.expansionWarnings = [.guestOutOfFuel "dizzy" 5] ∧
      stopped.world.deliveries.size = 1 ∧ (stopped.world.guest 0).fuel = 5 := by
  have hstop : (invoke dizzyState.world 0 (some 0) (dizzyState.world.guest 0).entry
      (Payload.textIn (dizzyState.world.scope 0) (.json ""))).1 = .error .outOfFuel := by
    decide +kernel
  obtain ⟨calls, m, stopped, -, -, -, hwarnings, haction, -, -, hfuel, -⟩ :=
    stopped_call_fails_safe (fun _ => rfl) hstop
  have hsent : (((ActionBody.guest 0 (.json "")).run 0).after
      dizzyState).world.deliveries.size = 1 := by
    decide +kernel
  unfold Run.after at hsent
  rw [haction] at hsent
  exact ⟨stopped, haction, hwarnings, hsent, hfuel⟩

end Guest

end RuleEngine
