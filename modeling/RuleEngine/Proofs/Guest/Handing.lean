/-
  RuleEngine/Proofs/Guest/Handing.lean
  ====================================
  **What a guest is handed.**

  The value of a rule of a guest is a payload: a template if it is a text, and JSON if not
  (`Payload.Of`).  When the rule is compiled, the guest is asked about the payload in the form
  in which it stands in the rules, and the rule is disabled unless the guest accepts it.  When
  the rule is triggered, the payload is rendered and the program of the guest is called with it
  once (`CallsOnce`).  The arguments of the program say where in its memory the bytes of the
  text are (`Placed`).
-/
import RuleEngine.Proofs.Guest.Boundary
import RuleEngine.Proofs.Guest.Stopping
import RuleEngine.Proofs.Text.Utf8

namespace RuleEngine

open Guest

/-! ### Compiling -/

/-- The payload that a value is, with the text that the guest is shown of it. -/
inductive Payload.Of (value : Node) : String → Payload → Prop where
  | text {source : String} {template : TextTemplate} (hvalue : value.asText? = some source)
    (htemplate : TextTemplate.compile source = .ok template) :
    Of value source (.text template)
  | json (hvalue : value.asText? = none) : Of value value.json (.json value.json)

section Compiling

variable {r : Registry} {n value : Node} {id : GuestId} {source : String} {payload : Payload}

theorem TextTemplate.source_of_compile {template : TextTemplate}
    (h : TextTemplate.compile source = .ok template) : template.source = source := by
  unfold TextTemplate.compile at h
  cases hscan : Segment.scan 0 source.toList with
  | error cause =>
    rw [hscan] at h
    cases h
  | ok segments =>
    rw [hscan] at h
    cases h
    rfl

theorem Payload.Of.source_eq (h : payload.Of value source) : payload.source = source := by
  cases h with
  | text hvalue htemplate => exact TextTemplate.source_of_compile htemplate
  | json hvalue => rfl

/-- Whether a payload is taken is up to the guest, which is shown its source. -/
theorem guestPayload_of (h : payload.Of value source) (id : GuestId) (w : World) :
    guestPayload id value w =
      match Guest.validate w id source with
      | (some reason, w') => (.error (.error (.rejected reason)), w')
      | (none, w') => (.ok payload, w') := by
  rw [← h.source_eq]
  refine Eq.trans ?_ (guestPayload_asked id payload w)
  unfold guestPayload
  cases h with
  | text hvalue htemplate =>
    rw [hvalue]
    dsimp only
    rw [htemplate]
    rfl
  | json hvalue =>
    rw [hvalue]
    rfl

/-- The empty program answers zero for every text that the guest can be handed. -/
theorem Guest.invoke_nil (w : World) (g : GuestId) (context? : Option ContextId) (text : String) :
    (invoke w g context? [] text).1 = .ok 0 ∨
      ∃ a calls stop m, (w.guest g).alloc? = some a ∧
        Refused { label := (w.guest g).typeKey } (Text.encodeUtf8 text)
          ((w.guest g).ready context? w) a calls stop m ∧
        (invoke w g context? [] text).1 = .error stop := by
  obtain ⟨calls, ending, m, hvisit⟩ := exists_visit { label := (w.guest g).typeKey }
    (w.guest g).alloc? [] (Text.encodeUtf8 text) ((w.guest g).ready context? w)
  obtain ⟨m', hinvoke, -⟩ := hvisit.invoke_eq
  rw [hinvoke]
  cases hvisit with
  | @refused a calls stop m ha hbytes h => exact .inr ⟨a, calls, stop, m, ha, h, rfl⟩
  | entered h hrun hlast =>
    left
    cases hrun with
    | refl code m =>
      cases hlast
      rfl
    | own h rest => cases h
    | host h rest => cases h

/-- A guest that answers something else than zero exports a validation. -/
theorem Guest.validate?_isSome_of_code {w : World} {g : GuestId} {text : String} {code : Int32}
    (h : (invoke w g none ((w.guest g).validate?.getD []) text).1 = .ok code) (hcode : code ≠ 0) :
    ((w.guest g).validate?).isNone = false := by
  cases hvalidate : (w.guest g).validate? with
  | some program => rfl
  | none =>
    rw [hvalidate, Option.getD_none] at h
    rcases invoke_nil w g none text with hzero | ⟨a, calls, stop, m, -, -, hstop⟩
    · rw [hzero] at h
      cases h
      exact absurd rfl hcode
    · rw [hstop] at h
      cases h

/-- A guest accepts what it answers zero for, and nothing else. -/
theorem Guest.validate_cases (w : World) (id : GuestId) (source : String) :
    let asked := invoke w id none ((w.guest id).validate?.getD []) source
    (asked.1 = .ok 0 → Guest.validate w id source = (none, asked.2)) ∧
    (asked.1 ≠ .ok 0 → ∃ reason, Guest.validate w id source = (some reason, asked.2)) := by
  have hkept := Guest.validate?_invoke w id ((w.guest id).validate?.getD []) source
  unfold Guest.validate
  dsimp only
  rcases hasked : invoke w id none ((w.guest id).validate?.getD []) source with ⟨stop | code, w'⟩
  · exact ⟨nofun, fun _ => ⟨_, rfl⟩⟩
  · rw [hasked] at hkept
    dsimp only at hkept ⊢
    rw [hkept]
    constructor
    · intro hzero
      cases hzero
      rw [beq_self_eq_true, Bool.or_true]
      rfl
    · intro hcode
      have hne : code ≠ 0 := fun heq => hcode (congrArg _ heq)
      rw [Guest.validate?_isSome_of_code (congrArg Prod.fst hasked) hne, beq_false_of_ne hne]
      exact ⟨_, rfl⟩

/-- A rule is made of a value whose payload the guest accepts, and of no other. -/
theorem guestPayload_cases (hpayload : payload.Of value source) (id : GuestId) (w : World) :
    let asked := invoke w id none ((w.guest id).validate?.getD []) source
    (asked.1 = .ok 0 → guestPayload id value w = (.ok payload, asked.2)) ∧
    (asked.1 ≠ .ok 0 → ∃ reason,
      guestPayload id value w = (.error (.error (.rejected reason)), asked.2)) := by
  intro asked
  obtain ⟨haccepts, hrejects⟩ := Guest.validate_cases w id source
  constructor
  · intro hzero
    rw [guestPayload_of hpayload, haccepts hzero]
  · intro hcode
    obtain ⟨reason, hvalidate⟩ := hrejects hcode
    refine ⟨reason, ?_⟩
    rw [guestPayload_of hpayload, hvalidate]

/-- An action of a guest is made if the guest answers zero, and else disabled with a report. -/
theorem compileAction_guest {typeKey : String} {key : Nat}
    (htype : (n.getPresent? "type").bind Node.text? = some typeKey)
    (hlookup : r.lookup? typeKey = some ⟨key, .guestAction id⟩) {chance : Formula}
    (hchance : chanceOf n = .ok chance) (hpayload : payload.Of (n.valueOf "value") source)
    (w : World) :
    let asked := invoke w id none ((w.guest id).validate?.getD []) source
    (asked.1 = .ok 0 →
      compileAction r n w = (.mk typeKey chance (.guest id payload), asked.2)) ∧
    (asked.1 ≠ .ok 0 → ∃ reason, compileAction r n w =
      (.disabled typeKey,
        asked.2.report (.ruleDisabled typeKey (.failed (.rejected reason))))) := by
  intro asked
  obtain ⟨haccepts, hrejects⟩ := guestPayload_cases hpayload id w
  rw [compileAction_eq htype hlookup rfl hchance, makeAction, Make.bind_apply]
  constructor
  · intro hzero
    rw [haccepts hzero]
    rfl
  · intro hcode
    obtain ⟨reason, hrejected⟩ := hrejects hcode
    rw [hrejected]
    exact ⟨reason, rfl⟩

/-- A requirement of a guest is made if the guest answers zero, and else disabled with a report.
    With
    side effects its not-met actions are compiled after the guest has answered. -/
theorem compileRequirement_guest {typeKey : String} {key : Nat}
    (htype : (n.getPresent? "type").bind Node.text? = some typeKey)
    (hlookup : r.lookup? typeKey = some ⟨key, .guestRequirement id⟩) (sideEffects : Bool)
    (hpayload : payload.Of (n.valueOf "value") source) (w : World) :
    let asked := invoke w id none ((w.guest id).validate?.getD []) source
    let notMet := compileActions r (n.valueOf "not-met-actions") asked.2
    (asked.1 = .ok 0 → compileRequirement r sideEffects n w =
      if sideEffects then (.mk typeKey (.guest id payload) notMet.1, notMet.2)
      else (.mk typeKey (.guest id payload) [], asked.2)) ∧
    (asked.1 ≠ .ok 0 → ∃ reason, compileRequirement r sideEffects n w =
      (.disabled typeKey,
        asked.2.report (.ruleDisabled typeKey (.failed (.rejected reason))))) := by
  intro asked notMet
  obtain ⟨haccepts, hrejects⟩ := guestPayload_cases hpayload id w
  rw [compileRequirement_eq htype hlookup rfl, makeRequirement, Make.bind_apply]
  constructor
  · intro hzero
    rw [haccepts hzero]
    rfl
  · intro hcode
    obtain ⟨reason, hrejected⟩ := hrejects hcode
    rw [hrejected]
    exact ⟨reason, rfl⟩

end Compiling

namespace Guest

/-! ### Arguments -/

/-- A guest has been asked once for memory of the length of some bytes, and it holds them where
    the arguments say. -/
structure Placed (f : Frame) (a : Allocator) (bytes : List UInt8) (m : Machine) (ptr len : Int32)
    (m' : Machine) : Prop where
  length_eq : unsigned len = bytes.length
  reserved : ∃ m₁, Step.reserve f a len m = .ok ptr m₁ ∧
    m₁.memory.Overwrites (unsigned ptr) bytes m'.memory ∧ m' = { m₁ with memory := m'.memory }
  held : m'.memory.read? (unsigned ptr) (unsigned len) = some bytes

section Arguments

variable {f : Frame} {a : Allocator} {bytes : List UInt8} {m m' : Machine} {ptr len : Int32}
  {calls : List HostCall}

theorem unsigned_ofNat {n : Nat} (h : (n : Int) ≤ int32Max) : unsigned (Int32.ofNat n) = n := by
  have hmax : int32Max = 2147483647 := rfl
  have hsize : n < UInt32.size := by
    show n < 4294967296
    omega
  show (UInt32.ofNat n).toNat = n
  exact UInt32.toNat_ofNat_of_lt hsize

theorem encodeUtf8_eq_nil_iff (text : String) : Text.encodeUtf8 text = [] ↔ text = "" := by
  constructor
  · intro hnil
    have hdecoded := Text.decodeUtf8?_encodeUtf8 text
    rw [hnil, Text.decodeUtf8?, Text.decodeAll] at hdecoded
    exact (Option.some.inj hdecoded).symm
  · rintro rfl
    rw [Text.encodeUtf8_eq]
    rfl

/-- Who is handed a payload finds it placed. -/
theorem Handed.placed (h : Handed f bytes m (some a) calls ptr len m')
    (hbytes : bytes ≠ []) : Placed f a bytes m ptr len m' := by
  cases h with
  | nothing h => exact absurd (h.resolve_left nofun) hbytes
  | @written a calls address m₁ memory hbytes hlength hreserved hwritten =>
    have hlen := unsigned_ofNat hlength
    constructor
    · exact hlen
    · exact ⟨m₁, hreserved.reserve_eq, Memory.overwrites_of_write? hwritten, rfl⟩
    · rw [hlen]
      exact Memory.read?_write?_same hwritten

end Arguments

/-- A guest is handed the payload of its rule.

    The payload is the template that the value of the rule is, or else its JSON.  When the rule
    is compiled, the guest is asked about the source of the template or about the JSON, by the
    validation that it exports or else by the empty program, which answers zero for all that the
    guest can be handed.  The rule is made if the answer is zero, and disabled with a report if
    it is another one or if the call stops.  When the rule is triggered, the payload is rendered
    at that moment and the program is called with the text once, or not at all if rendering
    fails.

    A call is `Step.call` on the store of the guest.  A guest without an allocator and one that
    is handed no text get zeros.  Otherwise the guest is asked for memory of the length of the
    text in bytes, and either the program is called with a place that holds these bytes, or the
    call ends before the program is called, whichever program it is. -/
theorem guest_is_handed_payload :
    (∀ (r : Registry) id key typeKey (n : Node) (w : World) chance source payload,
      (n.getPresent? "type").bind Node.text? = some typeKey →
      r.lookup? typeKey = some ⟨key, .guestAction id⟩ → chanceOf n = .ok chance →
      payload.Of (n.valueOf "value") source →
      let asked := invoke w id none ((w.guest id).validate?.getD []) source
      (asked.1 = .ok 0 →
        compileAction r n w = (.mk typeKey chance (.guest id payload), asked.2)) ∧
      (asked.1 ≠ .ok 0 → ∃ reason, compileAction r n w =
        (.disabled typeKey,
          asked.2.report (.ruleDisabled typeKey (.failed (.rejected reason)))))) ∧
    (∀ (r : Registry) id key typeKey (n : Node) (w : World) sideEffects source payload,
      (n.getPresent? "type").bind Node.text? = some typeKey →
      r.lookup? typeKey = some ⟨key, .guestRequirement id⟩ →
      payload.Of (n.valueOf "value") source →
      let asked := invoke w id none ((w.guest id).validate?.getD []) source
      let notMet := compileActions r (n.valueOf "not-met-actions") asked.2
      (asked.1 = .ok 0 → compileRequirement r sideEffects n w =
        if sideEffects then (.mk typeKey (.guest id payload) notMet.1, notMet.2)
        else (.mk typeKey (.guest id payload) [], asked.2)) ∧
      (asked.1 ≠ .ok 0 → ∃ reason, compileRequirement r sideEffects n w =
        (.disabled typeKey,
          asked.2.report (.ruleDisabled typeKey (.failed (.rejected reason)))))) ∧
    (∀ (w : World) id context? text,
      (invoke w id context? [] text).1 = .ok 0 ∨
      ∃ a calls stop m, (w.guest id).alloc? = some a ∧
        Refused { label := (w.guest id).typeKey } (Text.encodeUtf8 text)
          ((w.guest id).ready context? w) a calls stop m ∧
        (invoke w id context? [] text).1 = .error stop) ∧
    (∀ (c : ContextId) id payload (st : EngineState),
      (payload.render c st = .ok (payload.textIn (st.world.scope c)) st ∧
        CallsOnce c id (payload.textIn (st.world.scope c)) st
          ((ActionBody.guest id payload).run c) (fun _ => ()) () ∧
        ∀ sideEffects, CallsOnce c id (payload.textIn (st.world.scope c)) st
          ((RequirementBody.guest id payload).check c sideEffects) (· != 0) false) ∨
      ∃ message, st.world.Faults message ∧
        (ActionBody.guest id payload).run c st = .error message st ∧
        ∀ sideEffects,
          (RequirementBody.guest id payload).check c sideEffects st = .error message st) ∧
    (∀ (w : World) id context? text,
      let guest := w.guest id
      let f : Frame := { label := guest.typeKey }
      let call := fun program =>
        Step.call guest.typeKey guest.alloc? guest.fuel context? program text (guest.machine w)
      (∀ program, invoke w id context? program text = guest.outcome id (call program)) ∧
      (guest.alloc? = none ∨ text = "" → ∀ program, call program =
        Step.detaching (Step.runCode f (program.code 0 0)) (guest.ready context? w)) ∧
      (∀ a, guest.alloc? = some a → text ≠ "" →
        (∃ ptr len m, Placed f a (Text.encodeUtf8 text) (guest.ready context? w) ptr len m ∧
          ∀ program, call program =
            Step.detaching (Step.runCode f (program.code ptr len)) m) ∨
        ∃ calls stop m,
          Refused f (Text.encodeUtf8 text) (guest.ready context? w) a calls stop m ∧
          ∀ program, call program = Step.detaching (throw stop) m)) := by
  refine ⟨?_, ?_, ?_, ?_, ?_⟩
  · intro r id key typeKey n w chance source payload htype hlookup hchance hpayload
    exact compileAction_guest htype hlookup hchance hpayload w
  · intro r id key typeKey n w sideEffects source payload htype hlookup hpayload
    exact compileRequirement_guest htype hlookup sideEffects hpayload w
  · exact invoke_nil
  · intro c id payload st
    rcases payload.render_cases c st with hrender | ⟨message, hrender, hfaults⟩
    · exact .inl ⟨hrender, action_callsOnce hrender, requirement_callsOnce hrender⟩
    · refine .inr ⟨message, hfaults, ?_, ?_⟩
      · rw [ActionBody.run, Run.bind_apply, hrender]
      · intro sideEffects
        rw [RequirementBody.check, Run.bind_apply, hrender]
  · intro w id context? text guest f call
    refine ⟨fun program => rfl, ?_, ?_⟩
    · intro hnothing program
      have hhanded : Handed f (Text.encodeUtf8 text) (guest.ready context? w) guest.alloc? [] 0 0
          (guest.ready context? w) :=
        .nothing (hnothing.imp_right (encodeUtf8_eq_nil_iff text).mpr)
      exact call_of_placed hhanded.placePayload_eq program
    · intro a ha htext
      have hbytes : Text.encodeUtf8 text ≠ [] := mt (encodeUtf8_eq_nil_iff text).mp htext
      dsimp only [call]
      rw [ha]
      rcases handed_or_refused f (Text.encodeUtf8 text) hbytes a (guest.ready context? w) with
        ⟨calls, ptr, len, m, hhanded⟩ | ⟨calls, stop, m, h⟩
      · left
        exact ⟨ptr, len, m, hhanded.placed hbytes,
          fun program => call_of_placed hhanded.placePayload_eq program⟩
      · right
        exact ⟨calls, stop, m, h,
          fun program => call_of_refused (h.placePayload_eq hbytes) program⟩

/-- A guest that keeps what it is handed from its second byte on, and exports a validation that
    accepts every value. -/
def keeperGuest : Instance :=
  { typeKey := "keeper", version := "1", author := "", kind := .requirement, entry := [],
    validate? := some [], alloc? := some (.fixed 1), fuel := 1, memory := ⟨#[0, 0, 0, 0]⟩ }

/-- A world with that guest, another one that exports no validation and no allocator, and the
    context of one subject. -/
def keeperWorld : World :=
  { contexts := [{ subject := .ofName "ann" }],
    guests := #[keeperGuest,
      { keeperGuest with typeKey := "plain", kind := .action, validate? := none, alloc? := none }] }

def keeperTypes : Registry :=
  { factories := [("keeper", ⟨0, .guestRequirement 0⟩), ("plain", ⟨1, .guestAction 1⟩)],
    nextId := 2 }

/-- A guest without a validation has its rule made, and so has one that accepts the value.  The
    text is placed in the memory of the guest that has an allocator. -/
theorem guest_is_handed_payload_keeper :
    (∃ w, compileAction keeperTypes (.typed "plain" (.list [])) keeperWorld =
      (.mk "plain" (.constant 1) (.guest 1 (.json "[]")), w)) ∧
    (∃ w, compileRequirement keeperTypes true (.typed "keeper" (.list [])) keeperWorld =
      (.mk "keeper" (.guest 0 (.json "[]")) [], w)) ∧
    ∃ ptr len m, Placed { label := "keeper" } (.fixed 1) (Text.encodeUtf8 "hi")
      (keeperGuest.ready (some 0) keeperWorld) ptr len m := by
  obtain ⟨haction, hrequirement, -, -, harguments⟩ := guest_is_handed_payload
  have hpayload : Payload.Of (Node.list []) "[]" (.json "[]") := .json rfl
  refine ⟨?_, ?_, ?_⟩
  · obtain ⟨haccepts, -⟩ := haction keeperTypes 1 1 "plain" (.typed "plain" (.list []))
      keeperWorld (.constant 1) "[]" (.json "[]") rfl rfl rfl hpayload
    have hzero : (invoke keeperWorld 1 none [] "[]").1 = .ok 0 := by
      decide +kernel
    exact ⟨_, haccepts hzero⟩
  · obtain ⟨haccepts, -⟩ := hrequirement keeperTypes 0 0 "keeper" (.typed "keeper" (.list []))
      keeperWorld true "[]" (.json "[]") rfl rfl hpayload
    have hzero : (invoke keeperWorld 0 none [] "[]").1 = .ok 0 := by
      decide +kernel
    have hnone : ∀ w, compileActions keeperTypes
        ((Node.typed "keeper" (.list [])).valueOf "not-met-actions") w = ([], w) := by
      intro w
      rw [show (Node.typed "keeper" (.list [])).valueOf "not-met-actions" = .null from rfl,
        compileActions]
      rfl
    have hcompile := haccepts hzero
    rw [if_pos rfl, hnone] at hcompile
    exact ⟨_, hcompile⟩
  · obtain ⟨hinvoke, -, hplaced⟩ := harguments keeperWorld 0 (some 0) "hi"
    have hnotEmpty : "hi" ≠ "" := by
      decide
    rcases hplaced (.fixed 1) rfl hnotEmpty with ⟨ptr, len, m, hplaced, -⟩ | ⟨_, stop, m, -, hcall⟩
    · exact ⟨ptr, len, m, hplaced⟩
    · have hreturns : (invoke keeperWorld 0 (some 0) [] "hi").1 = .ok 0 := by
        decide +kernel
      rw [hinvoke, hcall] at hreturns
      cases stop <;> cases hreturns

end Guest

end RuleEngine
