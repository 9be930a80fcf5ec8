/-
  RuleEngine/Proofs/Guest/Boundary.lean
  =====================================
  **What guests reach.**

  Guests act on the world while a rule is triggered and at no other time.  Loading a module
  and making a rule of a node come to the same in every world and leave behind notices of
  the guest, whatever its code asks of the host; a call sees the context it is given, no
  other one, and none that an earlier call left.
-/
import RuleEngine.Proofs.Expansion.Install
import RuleEngine.Proofs.Guest.Attached
import RuleEngine.Proofs.Rule.Compiling

namespace RuleEngine

theorem World.setGuest_self (w : World) (g : GuestId) : w.setGuest g (w.guest g) = w := by
  unfold setGuest World.guest
  by_cases hg : g < w.guests.size
  · have hsame : w.guests.setIfInBounds g w.guests[g] = w.guests := by
      simp [Array.setIfInBounds, hg]
    simp [hg, hsame]
  · rw [Array.setIfInBounds_eq_of_size_le (Nat.le_of_not_lt hg)]

/-! ### Host functions -/

/-- What the host functions do from a store: those which act on a context report that there
    is none, and answer so. -/
structure Guest.Deaf (f : Frame) (s : Store) : Prop where
  sendMessage : ∀ start length w, Step.sendMessage f start length ⟨s, w⟩ =
    .ok () ⟨s, w.report (.guestDetached f.label)⟩
  runCommand : ∀ start length w, Step.runCommand f start length ⟨s, w⟩ =
    .ok () ⟨s, w.report (.guestDetached f.label)⟩
  setProperty : ∀ keyStart keyLength valueStart valueLength w,
    Step.setProperty f keyStart keyLength valueStart valueLength ⟨s, w⟩ =
      .ok () ⟨s, w.report (.guestDetached f.label)⟩
  getProperty : ∀ keyStart keyLength out capacity w,
    Step.getProperty f keyStart keyLength out capacity ⟨s, w⟩ =
      .ok (-1) ⟨s, w.report (.guestDetached f.label)⟩
  subjectId : ∀ out capacity w, Step.subjectId f out capacity ⟨s, w⟩ =
    .ok (-1) ⟨s, w.report (.guestDetached f.label)⟩
  log : ∀ start length, (∀ w, Step.log f start length ⟨s, w⟩ = .ok () ⟨s, w⟩) ∨
    ∃ text, ∀ w, Step.log f start length ⟨s, w⟩ = .ok () ⟨s, w.report (.guestLog f.label text)⟩

theorem Guest.deaf_of_detached (f : Frame) {s : Store} (hs : s.attached? = none) :
    Deaf f s where
  sendMessage start length w := sendMessage_detached f hs w start length
  runCommand start length w := runCommand_detached f hs w start length
  setProperty keyStart keyLength valueStart valueLength w :=
    setProperty_detached f hs w keyStart keyLength valueStart valueLength
  getProperty keyStart keyLength out capacity w :=
    getProperty_detached f hs w keyStart keyLength out capacity
  subjectId out capacity w := subjectId_detached f hs w out capacity
  log start length := log_apply f start length s

/-! ### Factories -/

/-- A call without a context comes to the same in every world; all it leaves in the world are
    notices of the guest and its store. -/
theorem Guest.invoke_detached (g : GuestId) (guest : Instance) (program : Program)
    (text : String) :
    ∃ (ending : Except Stop Int32) (s' : Store) (ns : List Notice),
      s'.attached? = none ∧ (∀ n ∈ ns, n.FromGuest) ∧
      ∀ w, w.guest g = guest →
        invoke w g none program text =
          (ending, (ns.foldl World.report w).setGuest g (guest.withStore s')) := by
  obtain ⟨ending, s', ns, hs', hns, hcall⟩ := detached_call guest.typeKey guest.alloc? guest.fuel
    program text (guest.machine {}).toStore
  refine ⟨ending, s', ns, hs', hns, ?_⟩
  rintro w rfl
  exact invoke_of_call (m := ⟨s', ns.foldl World.report w⟩) (hcall w)

/-- The guest that such a call leaves is asked about values as the one before it. -/
theorem Guest.validate?_invoke (w : World) (g : GuestId) (program : Program) (text : String) :
    ((invoke w g none program text).2.guest g).validate? = (w.guest g).validate? := by
  obtain ⟨ending, s', ns, -, -, hinvoke⟩ := invoke_detached g (w.guest g) program text
  rw [hinvoke w rfl]
  have hguest : (ns.foldl World.report w).guest g = w.guest g := by
    unfold World.guest
    rw [World.foldl_report_guests]
  obtain ⟨s'', hleft⟩ := guest_setGuest_withStore (ns.foldl World.report w) g s'
  rw [hguest] at hleft
  dsimp only
  rw [hleft]
  rfl

/-- A guest that is asked about a value answers the same in every world, and keeps nothing
    attached. -/
theorem Guest.validate_spec (g : GuestId) (guest : Instance) (source : String) :
    ∃ (reason? : Option String) (guest' : Instance) (ns : List Notice),
      guest'.attached? = none ∧ (∀ n ∈ ns, n.FromGuest) ∧
      ∀ w, w.guest g = guest →
        validate w g source = (reason?, (ns.foldl World.report w).setGuest g guest') := by
  obtain ⟨ending, s', ns, hs', hns, hinvoke⟩ :=
    invoke_detached g guest (guest.validate?.getD []) source
  have hvalidate : ∀ w, w.guest g = guest →
      (((ns.foldl World.report w).setGuest g (guest.withStore s')).guest g).validate? =
        guest.validate? := by
    rintro w rfl
    rw [← validate?_invoke w g ((w.guest g).validate?.getD []) source, hinvoke w rfl]
  cases ending with
  | ok code =>
    refine ⟨if guest.validate?.isNone || code == 0 then none
      else some s!"value rejected with code {code.toInt}", guest.withStore s', ns, hs', hns, ?_⟩
    intro w hw
    unfold validate
    rw [hw]
    dsimp only
    rw [hinvoke w hw]
    dsimp only
    rw [hvalidate w hw]
  | error stop =>
    refine ⟨some s!"validate failed: {stop.text}", guest.withStore s', ns, hs', hns, ?_⟩
    intro w hw
    unfold validate
    rw [hw]
    dsimp only
    rw [hinvoke w hw]

section Factory

variable {α β : Type} {id : GuestId}

/-- A step of a factory that at most asks a guest: what it comes to is decided by the guest
    alone, and all it leaves in the world are notices of the guest and its store. -/
def Make.OnlyAsks (id : GuestId) (x : Make α) : Prop :=
  ∀ guest : Guest.Instance,
    ∃ (result : Except Refusal α) (guest' : Guest.Instance) (ns : List Notice),
      (guest'.attached? = none ∨ guest' = guest) ∧ (∀ n ∈ ns, n.FromGuest) ∧
      ∀ w, w.guest id = guest → x w = (result, (ns.foldl World.report w).setGuest id guest')

theorem Make.onlyAsks_of_ended {x : Make α} {result : Except Refusal α}
    (h : ∀ w, x w = (result, w)) : x.OnlyAsks id := by
  intro guest
  refine ⟨result, guest, [], .inr rfl, nofun, ?_⟩
  rintro w rfl
  rw [h]
  show _ = (result, w.setGuest id (w.guest id))
  rw [World.setGuest_self]

theorem Make.OnlyAsks.map {x : Make α} (h : x.OnlyAsks id) (f : α → β) :
    Make.OnlyAsks id (do return f (← x)) := by
  intro guest
  obtain ⟨result, guest', ns, hguest', hns, hx⟩ := h guest
  refine ⟨result.map f, guest', ns, hguest', hns, fun w hw => ?_⟩
  rw [Make.bind_apply, hx w hw]
  cases result <;> rfl

/-- A payload that the guest is shown. -/
theorem guestPayload_asked (id : GuestId) (payload : Payload) (w : World) :
    (do
      let (reason?, w) := Guest.validate (← get) id payload.source
      set w
      match reason? with
      | some reason => Make.fail (.rejected reason)
      | none => return payload : Make Payload) w =
      match Guest.validate w id payload.source with
      | (some reason, w') => (.error (.error (.rejected reason)), w')
      | (none, w') => (.ok payload, w') := by
  show (match (Guest.validate w id payload.source).1 with
    | some reason => Make.fail (.rejected reason)
    | none => return payload : Make Payload) (Guest.validate w id payload.source).2 = _
  rcases Guest.validate w id payload.source with ⟨_ | reason, w'⟩ <;> rfl

theorem guestPayload_shown (payload : Payload) :
    Make.OnlyAsks id (do
      let (reason?, w) := Guest.validate (← get) id payload.source
      set w
      match reason? with
      | some reason => Make.fail (.rejected reason)
      | none => return payload) := by
  intro guest
  obtain ⟨reason?, guest', ns, hguest', hns, hvalidate⟩ :=
    Guest.validate_spec id guest payload.source
  cases reason? with
  | some reason =>
    refine ⟨.error (.error (.rejected reason)), guest', ns, .inl hguest', hns, fun w hw => ?_⟩
    rw [guestPayload_asked, hvalidate w hw]
  | none =>
    refine ⟨.ok payload, guest', ns, .inl hguest', hns, fun w hw => ?_⟩
    rw [guestPayload_asked, hvalidate w hw]

theorem guestPayload_onlyAsks (id : GuestId) (value : Node) :
    (guestPayload id value).OnlyAsks id := by
  unfold guestPayload
  cases value.asText? with
  | none => exact guestPayload_shown (.json value.json)
  | some text =>
    dsimp only
    cases CompileError.liftTemplate (TextTemplate.compile text) with
    | error cause =>
      have hfail : Make.OnlyAsks id (Make.fail cause : Make Payload) :=
        Make.onlyAsks_of_ended fun w => rfl
      exact hfail
    | ok template => exact guestPayload_shown (.text template)

theorem makeAction_onlyAsks (r : Registry) (id : GuestId) (value : Node) :
    (makeAction r (.guestAction id) value).OnlyAsks id := by
  rw [makeAction]
  exact (guestPayload_onlyAsks id value).map (ActionBody.guest id)

theorem makeRequirement_onlyAsks (r : Registry) (sideEffects : Bool) (id : GuestId)
    (value : Node) : (makeRequirement r sideEffects (.guestRequirement id) value).OnlyAsks id := by
  rw [makeRequirement]
  exact (guestPayload_onlyAsks id value).map (RequirementBody.guest id)

end Factory

/-! ### Installing -/

/-- Loading an artifact adds its guest to the world and reports; it does nothing else there. -/
theorem Engine.loadArtifact_world (e : Engine) (fuel : Nat) (path : String)
    (content : FileContent) :
    ∃ (ns : List Notice) (guests : Array Guest.Instance),
      (e.loadArtifact fuel path content).2.state.world =
        { ns.foldl World.report e.state.world with guests } := by
  obtain ⟨ns, -, -, hload⟩ := Guest.loadIn_spec fuel path content
  unfold loadArtifact
  rw [hload]
  cases Guest.load fuel path content with
  | error cause => exact ⟨ns, (ns.foldl World.report e.state.world).guests, rfl⟩
  | ok guest =>
    refine ⟨ns ++ [.guestLoaded guest.kind guest.typeKey guest.version guest.author],
      (ns.foldl World.report e.state.world).guests.push guest, ?_⟩
    rw [List.foldl_append]
    rfl

/-! ### The boundary -/

/-- Guests reach the world only in a trigger, and then only its own context.

    A file is loaded as the same guest in every world, and the world is left with notices of
    the guest; an engine that loads an artifact gains its guest and notices.  A factory asks
    the guest and does nothing else.  The host functions that act on a context report that
    there is none.  After a call nothing is attached to the guest, unless a callback of the
    platform failed; the next call does not see what is, nor any context that it is not
    given. -/
theorem guests_reach_their_trigger_only :
    (∀ fuel path content, ∃ ns : List Notice, (∀ n ∈ ns, n.FromGuest) ∧
      (∀ guest, Guest.load fuel path content = .ok guest → guest.attached? = none) ∧
      ∀ w, Guest.loadIn w fuel path content =
        (Guest.load fuel path content, ns.foldl World.report w)) ∧
    (∀ (e : Engine) fuel path content, ∃ (ns : List Notice) (guests : Array Guest.Instance),
      (e.loadArtifact fuel path content).2.state.world =
        { ns.foldl World.report e.state.world with guests }) ∧
    (∀ r id value, (makeAction r (.guestAction id) value).OnlyAsks id) ∧
    (∀ r sideEffects id value,
      (makeRequirement r sideEffects (.guestRequirement id) value).OnlyAsks id) ∧
    (∀ (f : Guest.Frame) (s : Guest.Store), s.attached? = none → Guest.Deaf f s) ∧
    (∀ (w : World) id context? program payload,
      (∀ message, (Guest.invoke w id context? program payload).1 ≠ .error (.panicked message)) →
      ((Guest.invoke w id context? program payload).2.guest id).attached? = none) ∧
    (∀ (w : World) id left? context? program payload,
      Guest.invoke (w.setGuest id { w.guest id with attached? := left? }) id context? program
          payload =
        Guest.invoke w id context? program payload) ∧
    (∀ (w : World) id context? program payload other x, other ∉ context? →
      Guest.invoke (w.setContext other x) id context? program payload =
        ((Guest.invoke w id context? program payload).1,
          (Guest.invoke w id context? program payload).2.setContext other x)) := by
  refine ⟨Guest.loadIn_spec, Engine.loadArtifact_world, makeAction_onlyAsks,
    makeRequirement_onlyAsks, fun f s => Guest.deaf_of_detached f, ?_, Guest.invoke_attached, ?_⟩
  · intro w id context? program payload
    exact Guest.invoke_detaches
  · intro w id context? program payload other x hother
    exact Guest.invoke_setContext hother x

/-- Calls of every function of the host, none of which needs memory. -/
def hostCalls : Guest.Program :=
  [.log (.literal 0) (.literal 0), .sendMessage (.literal 0) (.literal 0),
    .runCommand (.literal 0) (.literal 0),
    .setProperty (.literal 0) (.literal 0) (.literal 0) (.literal 0),
    .getProperty (.literal 0) (.literal 0) (.literal 0) (.literal 0),
    .subjectId (.literal 0) (.literal 0)]

/-- A guest whose rules call every function of the host. -/
def busyGuest : Guest.Instance :=
  { typeKey := "busy", version := "1", author := "", kind := .action, entry := hostCalls,
    validate? := some hostCalls, alloc? := none, fuel := 1, memory := .ofPages 0 }

def busyWorld : World :=
  { contexts := [{ subject := .ofName "ann" }], guests := #[busyGuest] }

theorem guests_reach_their_trigger_only_busyGuest :
    (∃ guest, Guest.load 0 "v.wat" (.module letterModule) = .ok guest ∧ guest.attached? = none) ∧
    Guest.Deaf { label := "busy" } (busyGuest.machine busyWorld).toStore ∧
    (Guest.invoke busyWorld 0 (some 0) hostCalls "").1 = .ok 3 ∧
    (Guest.invoke busyWorld 0 (some 0) hostCalls "").2.deliveries.size = 2 ∧
    ((Guest.invoke busyWorld 0 (some 0) hostCalls "").2.guest 0).attached? = none ∧
    (Guest.invoke (busyWorld.setContext 0 { subject := .ofName "bob" }) 0 none hostCalls "") =
      ((Guest.invoke busyWorld 0 none hostCalls "").1,
        (Guest.invoke busyWorld 0 none hostCalls "").2.setContext 0
          { subject := .ofName "bob" }) := by
  obtain ⟨hload, -, -, -, hdeaf, hdetach, -, hother⟩ := guests_reach_their_trigger_only
  obtain ⟨guest, hguest, -⟩ := load_letterModule 0 "v.wat"
  obtain ⟨-, -, hattached, -⟩ := hload 0 "v.wat" (.module letterModule)
  have hresult : (Guest.invoke busyWorld 0 (some 0) hostCalls "").1 = .ok 3 := by decide +kernel
  refine ⟨⟨guest, hguest, hattached guest hguest⟩, hdeaf _ _ rfl, hresult, by decide +kernel,
    ?_, ?_⟩
  · refine hdetach busyWorld 0 (some 0) hostCalls "" fun message => ?_
    rw [hresult]
    nofun
  · have hnone : (0 : ContextId) ∉ (none : Option ContextId) := nofun
    exact hother busyWorld 0 none hostCalls "" 0 { subject := .ofName "bob" } hnone

end RuleEngine
