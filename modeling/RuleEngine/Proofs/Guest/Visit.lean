/-
  RuleEngine/Proofs/Guest/Visit.lean
  ==================================
  **Calls of a guest, step by step.**

  A call first hands the guest its payload: it asks the guest for memory of the right
  length, and writes the payload there (`Handed`).  The guest may stop or name a place that
  does not exist, and then the payload is refused and the call ends (`Refused`).  Otherwise
  the program runs, with the place and the length of the payload as its arguments, until it
  halts.  A `Visit` is all of that, with the calls of the host that were made on the way.

  Every call is a visit (`exists_visit`).  Whether its payload is handed over does not depend
  on the program (`call_of_placed`, `call_of_refused`).
-/
import RuleEngine.Proofs.Guest.Passage

namespace RuleEngine

namespace Guest

/-! ### Reserving memory -/

/-- Why a call stopped when the function stopped that reserves memory. -/
def Stop.inAlloc : Stop → Stop
  | .trapped cause => .trapped s!"alloc trapped: {cause}"
  | stop => stop

/-- A guest is asked once for memory of some length. -/
inductive Reserves (f : Frame) (length : Int32) (m : Machine) :
    Allocator → List HostCall → Except Stop Int32 → Machine → Prop where
  | bump : Reserves f length m .bump [] (.ok m.heap) { m with heap := m.heap + length }
  | fixed (address : Int32) : Reserves f length m (.fixed address) [] (.ok address) m
  | trapping : Reserves f length m .trapping [] (.error (.trapped "alloc trapped")) m
  | returned {code : Int32 → Code Int32} {calls : List HostCall} {last : Code Int32}
    {address : Int32} {m₁ m' : Machine} (h : Passage f (code length) m calls last m₁)
    (hlast : Halts f last m₁ (.ok address) m') :
    Reserves f length m (.computes code) calls (.ok address) m'
  | stopped {code : Int32 → Code Int32} {calls : List HostCall} {last : Code Int32}
    {stop : Stop} {m₁ m' : Machine} (h : Passage f (code length) m calls last m₁)
    (hlast : Halts f last m₁ (.error stop) m') :
    Reserves f length m (.computes code) calls (.error stop.inAlloc) m'

section Reserving

variable {f : Frame} {length : Int32} {m m' : Machine} {a : Allocator} {calls : List HostCall}
  {ending : Except Stop Int32} {c : ContextId}

theorem Reserves.reserve_eq (h : Reserves f length m a calls ending m') :
    Step.reserve f a length m = ended ending m' := by
  cases h with
  | bump => rfl
  | fixed address => rfl
  | trapping => rfl
  | returned h hlast =>
    simp only [Step.reserve, h.runCode_eq hlast, ended]
  | @stopped code calls last stop m₁ m' h hlast =>
    simp only [Step.reserve, h.runCode_eq hlast, ended]
    cases stop <;> rfl

theorem exists_reserves (f : Frame) (a : Allocator) (length : Int32) (m : Machine) :
    ∃ calls ending m', Reserves f length m a calls ending m' := by
  cases a with
  | bump => exact ⟨[], _, _, .bump⟩
  | fixed address => exact ⟨[], _, _, .fixed address⟩
  | trapping => exact ⟨[], _, _, .trapping⟩
  | computes code =>
    obtain ⟨calls, last, m₁, ending, m', hpassage, hlast⟩ := exists_passage f m (code length)
    cases ending with
    | ok address => exact ⟨calls, _, m', .returned hpassage hlast⟩
    | error stop => exact ⟨calls, _, m', .stopped hpassage hlast⟩

end Reserving

/-! ### Handing over a payload -/

/-- The guest has what it needs of the payload, and the arguments for its program say where.
    Without an allocator, or if there are no bytes, it needs nothing. -/
inductive Handed (f : Frame) (bytes : List UInt8) (m : Machine) :
    Option Allocator → List HostCall → Int32 → Int32 → Machine → Prop where
  | nothing {alloc? : Option Allocator} (h : alloc? = none ∨ bytes = []) :
    Handed f bytes m alloc? [] 0 0 m
  | written {a : Allocator} {calls : List HostCall} {address : Int32} {m₁ : Machine}
    {memory : Memory} (hbytes : bytes ≠ []) (hlength : (bytes.length : Int) ≤ int32Max)
    (hreserved : Reserves f (Int32.ofNat bytes.length) m a calls (.ok address) m₁)
    (hwritten : m₁.memory.write? (unsigned address) bytes = some memory) :
    Handed f bytes m (some a) calls address (Int32.ofNat bytes.length) { m₁ with memory }

/-- The payload does not come to the guest: it is too long, no memory was reserved for it, or
    what was reserved does not lie in memory. -/
inductive Refused (f : Frame) (bytes : List UInt8) (m : Machine) :
    Allocator → List HostCall → Stop → Machine → Prop where
  | tooLong {a : Allocator} (hlength : int32Max < bytes.length) :
    Refused f bytes m a [] (.trapped "payload does not fit in guest memory") m
  | notReserved {a : Allocator} {calls : List HostCall} {stop : Stop} {m' : Machine}
    (hlength : (bytes.length : Int) ≤ int32Max)
    (hreserved : Reserves f (Int32.ofNat bytes.length) m a calls (.error stop) m') :
    Refused f bytes m a calls stop m'
  | outside {a : Allocator} {calls : List HostCall} {address : Int32} {m' : Machine}
    (hlength : (bytes.length : Int) ≤ int32Max)
    (hreserved : Reserves f (Int32.ofNat bytes.length) m a calls (.ok address) m')
    (houtside : m'.memory.size < unsigned address + bytes.length) :
    Refused f bytes m a calls (.trapped "alloc returned a pointer outside of memory") m'

section Handing

variable {f : Frame} {payload : String} {alloc? : Option Allocator} {a : Allocator}
  {m m' : Machine} {calls : List HostCall} {ptr len : Int32} {stop : Stop}

/-- A payload that is handed over is placed where the guest reserved memory. -/
theorem Handed.placePayload_eq
    (h : Handed f (Text.encodeUtf8 payload) m alloc? calls ptr len m') :
    Step.placePayload f alloc? payload m = .ok (ptr, len) m' := by
  unfold Step.placePayload
  cases h with
  | nothing h =>
    rcases h with rfl | hempty
    · rfl
    · cases alloc? with
      | none => rfl
      | some a =>
        simp only [hempty]
        rfl
  | @written a calls address m₁ memory hbytes hlength hreserved hwritten =>
    dsimp only
    rw [if_neg (by simpa using hbytes), if_neg (Int.not_lt.mpr hlength), bind_apply,
      hreserved.reserve_eq]
    dsimp only [ended]
    rw [bind_apply, writePayload_apply, hwritten]
    rfl

/-- A payload that is refused stops the call. -/
theorem Refused.placePayload_eq (hbytes : Text.encodeUtf8 payload ≠ [])
    (h : Refused f (Text.encodeUtf8 payload) m a calls stop m') :
    Step.placePayload f (some a) payload m = .error stop m' := by
  unfold Step.placePayload
  dsimp only
  rw [if_neg (by simpa using hbytes)]
  cases h with
  | tooLong hlength =>
    rw [if_pos hlength]
    rfl
  | notReserved hlength hreserved =>
    rw [if_neg (Int.not_lt.mpr hlength), bind_apply, hreserved.reserve_eq]
    rfl
  | outside hlength hreserved houtside =>
    rw [if_neg (Int.not_lt.mpr hlength), bind_apply, hreserved.reserve_eq]
    dsimp only [ended]
    -- nothing is written to a range that does not lie inside as a whole
    rw [bind_apply, writePayload_apply, Memory.write?_eq_none_iff.mpr houtside]

theorem handed_or_refused (f : Frame) (bytes : List UInt8) (hbytes : bytes ≠ [])
    (a : Allocator) (m : Machine) :
    (∃ calls ptr len m', Handed f bytes m (some a) calls ptr len m') ∨
      ∃ calls stop m', Refused f bytes m a calls stop m' := by
  by_cases hlength : int32Max < bytes.length
  · exact .inr ⟨[], _, m, .tooLong hlength⟩
  · have hfits : (bytes.length : Int) ≤ int32Max := Int.not_lt.mp hlength
    obtain ⟨calls, ending, m₁, hreserved⟩ :=
      exists_reserves f a (Int32.ofNat bytes.length) m
    cases ending with
    | error stop => exact .inr ⟨calls, stop, m₁, .notReserved hfits hreserved⟩
    | ok address =>
      cases hwrite : m₁.memory.write? (unsigned address) bytes with
      | some memory =>
        exact .inl ⟨calls, address, _, _, .written hbytes hfits hreserved hwrite⟩
      | none =>
        refine .inr ⟨calls, _, m₁, .outside hfits hreserved ?_⟩
        exact Memory.write?_eq_none_iff.mp hwrite

end Handing

/-! ### Visits -/

/-- A call of a program with a payload, from a machine that is ready for it: the payload is
    refused, or it is handed over and the program runs until it halts. -/
inductive Visit (f : Frame) (alloc? : Option Allocator) (program : Program) (bytes : List UInt8)
    (m : Machine) : List HostCall → Except Stop Int32 → Machine → Prop where
  | refused {a : Allocator} {calls : List HostCall} {stop : Stop} {m' : Machine}
    (ha : alloc? = some a) (hbytes : bytes ≠ []) (h : Refused f bytes m a calls stop m') :
    Visit f alloc? program bytes m calls (.error stop) m'
  | entered {before calls : List HostCall} {ptr len : Int32} {m₁ m₂ m' : Machine}
    {last : Code Int32} {ending : Except Stop Int32}
    (h : Handed f bytes m alloc? before ptr len m₁)
    (hrun : Passage f (program.code ptr len) m₁ calls last m₂)
    (hlast : Halts f last m₂ ending m') :
    Visit f alloc? program bytes m (before ++ calls) ending m'

section Visiting

variable {f : Frame} {payload : String} {alloc? : Option Allocator} {a : Allocator}
  {program : Program} {m m' : Machine} {calls : List HostCall} {ptr len : Int32} {stop : Stop}
  {ending : Except Stop Int32} {c : ContextId}

/-- Every visit of a guest with a payload ends in one of the ways that there are. -/
theorem exists_visit (f : Frame) (alloc? : Option Allocator) (program : Program)
    (bytes : List UInt8) (m : Machine) :
    ∃ calls ending m', Visit f alloc? program bytes m calls ending m' := by
  -- a guest that has been handed the payload runs until it halts
  have entered : ∀ {before ptr len m₁}, Handed f bytes m alloc? before ptr len m₁ →
      ∃ calls ending m', Visit f alloc? program bytes m calls ending m' := by
    intro before ptr len m₁ h
    obtain ⟨calls, last, m₂, ending, m', hrun, hlast⟩ :=
      exists_passage f m₁ (program.code ptr len)
    exact ⟨before ++ calls, ending, m', .entered h hrun hlast⟩
  cases alloc? with
  | none => exact entered (.nothing (.inl rfl))
  | some a =>
    by_cases hbytes : bytes = []
    · exact entered (.nothing (.inr hbytes))
    · rcases handed_or_refused f bytes hbytes a m with
        ⟨calls, ptr, len, m₁, h⟩ | ⟨calls, stop, m', h⟩
      · exact entered h
      · exact ⟨calls, _, m', .refused rfl hbytes h⟩

/-- A program is called with what `placePayload` returns, whichever program it is. -/
theorem call_of_placed {label : String} {fuel : Nat} {context? : Option ContextId}
    (h : Step.placePayload { label } alloc? payload { m with fuel, attached? := context? } =
      .ok (ptr, len) m') (program : Program) :
    Step.call label alloc? fuel context? program payload m =
      Step.detaching (Step.runCode { label } (program.code ptr len)) m' := by
  rw [call_apply]
  unfold Step.detaching
  rw [bind_apply, h]

/-- No program is called if the payload is refused. -/
theorem call_of_refused {label : String} {fuel : Nat} {context? : Option ContextId}
    (h : Step.placePayload { label } alloc? payload { m with fuel, attached? := context? } =
      .error stop m') (program : Program) :
    Step.call label alloc? fuel context? program payload m =
      Step.detaching (throw stop) m' := by
  rw [call_apply]
  unfold Step.detaching
  rw [bind_apply, h]
  rfl

theorem Visit.call_eq {label : String} {fuel : Nat} {context? : Option ContextId}
    (h : Visit { label } alloc? program (Text.encodeUtf8 payload)
      { m with fuel, attached? := context? } calls ending m') :
    Step.call label alloc? fuel context? program payload m =
      Step.detaching (fun _ => ended ending m') m' := by
  cases h with
  | refused ha hbytes h =>
    subst ha
    rw [call_of_refused (h.placePayload_eq hbytes)]
    rfl
  | entered h hrun hlast =>
    rw [call_of_placed h.placePayload_eq]
    unfold Step.detaching
    rw [hrun.runCode_eq hlast]

end Visiting

/-! ### What the calls of the host do -/

section Effects

variable {f : Frame} {length ptr len : Int32} {bytes : List UInt8} {m m' : Machine}
  {a : Allocator} {alloc? : Option Allocator} {program : Program} {calls : List HostCall}
  {ending : Except Stop Int32} {stop : Stop} {c : ContextId}

/-- Reserving memory does to the world what its host calls do, and does not panic. -/
theorem Reserves.effect (h : Reserves f length m a calls ending m') (hm : m.Attending c) :
    m'.Attending c ∧ m'.world = calls.foldl (HostCall.perform f.label c) m.world ∧
      ∀ message, ending ≠ .error (.panicked message) := by
  cases h with
  | bump => exact ⟨⟨hm.attached, hm.serves⟩, rfl, nofun⟩
  | fixed address => exact ⟨hm, rfl, nofun⟩
  | trapping => exact ⟨hm, rfl, nofun⟩
  | returned h hlast =>
    obtain ⟨hattending, hworld⟩ := h.effect hm
    obtain ⟨hattending', hworld', -⟩ := hlast.effect hattending
    exact ⟨hattending', hworld'.trans hworld, nofun⟩
  | @stopped code calls last stop m₁ m' h hlast =>
    obtain ⟨hattending, hworld⟩ := h.effect hm
    obtain ⟨hattending', hworld', hstop⟩ := hlast.effect hattending
    refine ⟨hattending', hworld'.trans hworld, ?_⟩
    intro message hpanicked
    cases stop with
    | trapped cause => cases hpanicked
    | outOfFuel => cases hpanicked
    | panicked text => exact hstop text rfl

/-- Handing a payload over does to the world what the host calls of the allocator do. -/
theorem Handed.effect (h : Handed f bytes m alloc? calls ptr len m') (hm : m.Attending c) :
    m'.Attending c ∧ m'.world = calls.foldl (HostCall.perform f.label c) m.world := by
  cases h with
  | nothing h => exact ⟨hm, rfl⟩
  | written hbytes hlength hreserved hwritten =>
    obtain ⟨hattending, hworld, -⟩ := hreserved.effect hm
    exact ⟨⟨hattending.attached, hattending.serves⟩, hworld⟩

/-- A payload that is not handed over has done to the world what the host calls of the allocator
    do, and no panic is the reason. -/
theorem Refused.effect (h : Refused f bytes m a calls stop m') (hm : m.Attending c) :
    m'.world = calls.foldl (HostCall.perform f.label c) m.world ∧
      ∀ message, stop ≠ .panicked message := by
  cases h with
  | tooLong hlength => exact ⟨rfl, nofun⟩
  | notReserved hlength hreserved =>
    obtain ⟨-, hworld, hstop⟩ := hreserved.effect hm
    exact ⟨hworld, fun message heq => hstop message (congrArg Except.error heq)⟩
  | outside hlength hreserved houtside =>
    obtain ⟨-, hworld, -⟩ := hreserved.effect hm
    exact ⟨hworld, nofun⟩

/-- All that a visit does to the world are its calls of the host, one after the other. -/
theorem Visit.effect (h : Visit f alloc? program bytes m calls ending m')
    (hm : m.Attending c) :
    m'.world = calls.foldl (HostCall.perform f.label c) m.world ∧
      ∀ message, ending ≠ .error (.panicked message) := by
  cases h with
  | refused ha hbytes h =>
    obtain ⟨hworld, hstop⟩ := h.effect hm
    refine ⟨hworld, ?_⟩
    rintro message ⟨⟩
    exact hstop message rfl
  | entered h hrun hlast =>
    obtain ⟨hattending, hworld⟩ := h.effect hm
    obtain ⟨hattending', hworld'⟩ := hrun.effect hattending
    obtain ⟨-, hworld'', hstop⟩ := hlast.effect hattending'
    refine ⟨?_, hstop⟩
    rw [hworld'', hworld', hworld, List.foldl_append]

end Effects

end Guest

end RuleEngine
