/-
  RuleEngine/Proofs/Guest/Property.lean
  =====================================
  **A property that a guest writes.**

  A guest writes a property under the bytes of a key and reads it back into a buffer.  The two
  ways differ: written bytes are decoded and kept as a text, and what is read is the text of
  the property, encoded again.  The main statement (`written_property_reads_back`) says that
  they are inverse to each other, whatever the guest does in between, and that references to
  the property read the same text.

  Of all that the host is called for, only writing a property changes the context
  (`HostCall.writes`).  So after a passage the context is what the writes of the passage made
  of it (`Passage.context_eq`), and a property that none of them names is what it was.
-/
import RuleEngine.Proofs.Guest.Passage
import RuleEngine.Proofs.Template.Rendering
import RuleEngine.Proofs.Text.Utf8

namespace RuleEngine

theorem World.context_setContext {w : World} {c : ContextId} (hc : c < w.contexts.length)
    (x : Context) : (w.setContext c x).context c = x := by
  simp [World.context, World.setContext, hc]

namespace Guest

/-! ### What the host does to a context -/

def HostCall.writes (x : Context) : HostCall → Context
  | .setProperty (some key) (some value) => x.set key (.ofText value)
  | _ => x

def HostCall.Writes (key : String) (call : HostCall) : Prop :=
  ∃ value, call = .setProperty (some key) (some value)

theorem HostCall.get?_writes {key : String} {call : HostCall} (h : ¬ call.Writes key)
    (x : Context) : (call.writes x).get? key = x.get? key := by
  unfold writes
  split
  · rename_i other value
    have hother : key ≠ other := by
      rintro rfl
      exact h ⟨value, rfl⟩
    exact x.get?_set_other (.ofText value) hother
  · rfl

theorem HostCall.get?_foldl_writes {key : String} {calls : List HostCall}
    (h : ∀ call ∈ calls, ¬ call.Writes key) (x : Context) :
    (calls.foldl HostCall.writes x).get? key = x.get? key := by
  induction calls generalizing x with
  | nil => rfl
  | cons call rest ih =>
    rw [List.foldl_cons, ih fun other hother => h other (List.mem_cons_of_mem _ hother)]
    exact HostCall.get?_writes (h call List.mem_cons_self) x

/-- A machine runs for a trigger of a context. -/
structure Machine.RunsFor (m : Machine) (c : ContextId) : Prop where
  attached : m.attached? = some c
  exists_context : c < m.world.contexts.length

section Contexts

variable {α : Type} {f : Frame} {c : ContextId} {code code' last : Code α} {m m' : Machine}
  {call : HostCall} {calls : List HostCall}

/-- A step leaves the contexts alone, and the one that is attached. -/
structure Machine.SameContexts (m m' : Machine) : Prop where
  attached : m'.attached? = m.attached?
  contexts : m'.world.contexts = m.world.contexts

theorem Machine.SameContexts.refl (m : Machine) : m.SameContexts m := ⟨rfl, rfl⟩

theorem Machine.SameContexts.trans {m₁ m₂ m₃ : Machine} (h : m₁.SameContexts m₂)
    (h' : m₂.SameContexts m₃) : m₁.SameContexts m₃ :=
  ⟨h'.attached.trans h.attached, h'.contexts.trans h.contexts⟩

/-- Where no context is changed, a run for a context goes on for it. -/
theorem Machine.SameContexts.runsFor (h : m.SameContexts m') (hm : m.RunsFor c) :
    m'.RunsFor c ∧ m'.world.context c = m.world.context c := by
  refine ⟨⟨h.attached.trans hm.attached, ?_⟩, ?_⟩
  · rw [h.contexts]
    exact hm.exists_context
  · unfold World.context
    rw [h.contexts]

/-- A step leaves the contexts alone, whether it returns or fails. -/
def SparesContexts (x : Step α) (m : Machine) : Prop :=
  ∃ ending m', x m = ended ending m' ∧ m.SameContexts m'

theorem SparesContexts.of_ok {x : Step α} {a : α} (hx : SparesContexts x m)
    (h : x m = .ok a m') : m.SameContexts m' := by
  obtain ⟨ending, m₁, heq, hsame⟩ := hx
  rw [heq] at h
  cases ending <;> cases h
  exact hsame

theorem SparesContexts.of_error {x : Step α} {stop : Stop} (hx : SparesContexts x m)
    (h : x m = .error stop m') : m.SameContexts m' := by
  obtain ⟨ending, m₁, heq, hsame⟩ := hx
  rw [heq] at h
  cases ending <;> cases h
  exact hsame

theorem deliver_sparesContexts (d : Delivery) (m : Machine) :
    SparesContexts (Step.deliver d) m := by
  unfold SparesContexts Step.deliver
  rw [get_bind_apply]
  cases m.world.platform.fault (.deliver d) with
  | some message => exact ⟨.error (.panicked message), m, rfl, .refl m⟩
  | none => exact ⟨.ok (), m.changed (delivered · [d]), rfl, rfl, rfl⟩

theorem sendAll_sparesContexts (text : String) (targets : List Subject) (m : Machine) :
    SparesContexts (sendAll text targets) m := by
  unfold SparesContexts
  induction targets generalizing m with
  | nil => exact ⟨.ok (), m, rfl, .refl m⟩
  | cons target rest ih =>
    rw [sendAll, bind_apply]
    obtain ⟨ending, m₁, hdeliver, hsame⟩ := deliver_sparesContexts (.message target text) m
    rw [hdeliver]
    cases ending with
    | error stop => exact ⟨.error stop, m₁, rfl, hsame⟩
    | ok =>
      obtain ⟨ending, m₂, hrest, hsame'⟩ := ih m₁
      exact ⟨ending, m₂, hrest, hsame.trans hsame'⟩

theorem sendMessage_sparesContexts (f : Frame) (hm : m.RunsFor c) (start length : Int32) :
    SparesContexts (Step.sendMessage f start length) m := by
  unfold SparesContexts
  rw [sendMessage_eq hm.attached]
  cases f.text? m.memory start length with
  | some text => exact sendAll_sparesContexts text _ m
  | none => exact ⟨.ok (), m, rfl, .refl m⟩

theorem runCommand_sparesContexts (f : Frame) (hm : m.RunsFor c) (start length : Int32) :
    SparesContexts (Step.runCommand f start length) m := by
  unfold SparesContexts
  rw [runCommand_eq hm.attached]
  cases f.text? m.memory start length with
  | some text => exact deliver_sparesContexts _ m
  | none => exact ⟨.ok (), m, rfl, .refl m⟩

theorem writeText_sparesContexts (f : Frame) (out capacity : Int32) (text : String) (m : Machine) :
    SparesContexts (Step.writeText f out capacity text) m := by
  obtain ⟨answer, m', hcopy, hcopies⟩ := writeText_copies f out capacity text m
  refine ⟨.ok answer, m', hcopy, ?_⟩
  rw [hcopies.same]
  exact ⟨rfl, rfl⟩

theorem Advances.sameContexts (h : Advances code m code' m') : m.SameContexts m' := by
  cases h <;> exact ⟨rfl, rfl⟩

/-- The host changes the context of a trigger in the way that it is called for, and in no
    other. -/
theorem Asks.context_eq (h : Asks f code m call code' m') (hm : m.RunsFor c) :
    m'.RunsFor c ∧ m'.world.context c = call.writes (m.world.context c) := by
  cases h with
  | @log start length next m m' h =>
    have hsame : m.SameContexts m' := by
      rw [log_eq] at h
      split at h <;> cases h <;> exact ⟨rfl, rfl⟩
    exact hsame.runsFor hm
  | @sendMessage start length next m m' h =>
    exact ((sendMessage_sparesContexts f hm start length).of_ok h).runsFor hm
  | @runCommand start length next m m' h =>
    exact ((runCommand_sparesContexts f hm start length).of_ok h).runsFor hm
  | @setProperty keyStart keyLength valueStart valueLength next m m' h =>
    rw [setProperty_eq hm.attached] at h
    cases hkey : f.text? m.memory keyStart keyLength with
    | none =>
      rw [hkey] at h
      cases h
      exact ⟨hm, rfl⟩
    | some key =>
      cases hvalue : f.text? m.memory valueStart valueLength with
      | none =>
        rw [hkey, hvalue] at h
        cases h
        exact ⟨hm, rfl⟩
      | some value =>
        rw [hkey, hvalue] at h
        cases h
        refine ⟨⟨hm.attached, ?_⟩, World.context_setContext hm.exists_context _⟩
        show c < (m.world.contexts.set c _).length
        rw [List.length_set]
        exact hm.exists_context
  | @getProperty keyStart keyLength out capacity answer next m m' h =>
    have hsame : m.SameContexts m' := by
      rw [getProperty_eq hm.attached] at h
      split at h
      · exact (writeText_sparesContexts f out capacity _ m).of_ok h
      · cases h
        exact .refl m
    exact hsame.runsFor hm
  | @subjectId out capacity answer next m m' h =>
    rw [subjectId_eq hm.attached] at h
    exact ((writeText_sparesContexts f out capacity _ m).of_ok h).runsFor hm

/-- After a passage the context of the trigger is what the writes of the passage made of it. -/
theorem Passage.context_eq (h : Passage f code m calls last m') (hm : m.RunsFor c) :
    m'.RunsFor c ∧ m'.world.context c = calls.foldl HostCall.writes (m.world.context c) := by
  induction h with
  | refl code m => exact ⟨hm, rfl⟩
  | own h rest ih =>
    obtain ⟨hruns, hcontext⟩ := h.sameContexts.runsFor hm
    rw [← hcontext]
    exact ih hruns
  | host h rest ih =>
    obtain ⟨hruns, hcontext⟩ := h.context_eq hm
    rw [List.foldl_cons, ← hcontext]
    exact ih hruns

/-- Code that halts has left the context of the trigger as it was. -/
theorem Halts.context_eq {ending : Except Stop α} (h : Halts f code m ending m')
    (hm : m.RunsFor c) : m'.world.context c = m.world.context c := by
  cases h with
  | done => rfl
  | trap => rfl
  | outOfFuel => rfl
  | burnt => rfl
  | @sendMessage start length next m m' stop h =>
    exact (((sendMessage_sparesContexts f hm start length).of_error h).runsFor hm).2
  | @runCommand start length next m m' stop h =>
    exact (((runCommand_sparesContexts f hm start length).of_error h).runsFor hm).2

end Contexts

/-! ### Bytes in memory -/

def Frame.Finds (f : Frame) (memory : Memory) (start length : Int32) (bytes : List UInt8) : Prop :=
  f.exportsMemory = true ∧ memory.read? (unsigned start) (unsigned length) = some bytes

section Bytes

variable {f : Frame} {memory memory' : Memory} {start length : Int32} {bytes : List UInt8}

/-- Bytes that the host finds are read as the text that they spell. -/
theorem Frame.Finds.text?_eq (h : f.Finds memory start length bytes) :
    f.text? memory start length = some (Text.decodeLenient bytes) := by
  unfold Frame.text?
  rw [if_pos h.1, h.2]
  rfl

theorem decodeLenient_of_decodeUtf8? {text : String} (h : Text.decodeUtf8? bytes = some text) :
    Text.decodeLenient bytes = text := by
  rw [Text.decodeLenient, Text.decodeUtf8?_eq_some_iff.mp h, List.map_map]
  simp [Function.comp_def]

/-- What memory was overwritten with is read back. -/
theorem Memory.Overwrites.read?_eq {start : Nat} (h : memory.Overwrites start bytes memory')
    (hfits : start + bytes.length ≤ memory.size) :
    memory'.read? start bytes.length = some bytes := by
  rw [← h.size_eq] at hfits
  unfold Memory.read?
  rw [if_pos hfits, Option.some.injEq]
  refine List.ext_getElem (by simp) fun i _ hi => ?_
  have hbyte := h.inside i hi
  rw [Memory.byte?, List.getElem?_eq_getElem hi] at hbyte
  rw [List.getElem_map, List.getElem_range, hbyte]
  rfl

theorem unsigned_of_nonneg {x : Int32} (h : 0 ≤ x.toInt) : (unsigned x : Int) = x.toInt := by
  have hbits : x.toInt = x.toUInt32.toBitVec.toInt := rfl
  have hword : unsigned x = x.toUInt32.toBitVec.toNat := rfl
  rw [hbits, BitVec.toInt_eq_toNat_cond] at h ⊢
  rw [hword]
  split at h <;> omega

end Bytes

/-! ### Reading a property -/

section Reading

variable {f : Frame} {c : ContextId} {m : Machine} {key value : String}

/-- Reading a property fills a buffer that is long enough with all bytes of its text. -/
theorem getProperty_reads (hm : m.RunsFor c)
    (hproperty : (m.world.context c).get? key = some (.ofText value))
    {keyStart keyLength out capacity : Int32}
    (hkey : f.text? m.memory keyStart keyLength = some key) (hout : f.Reaches m.memory out capacity)
    (hcapacity : ((Text.encodeUtf8 value).length : Int) ≤ capacity.toInt) :
    ∃ answer m', Step.getProperty f keyStart keyLength out capacity m = .ok answer m' ∧
      answer.toInt = (Text.encodeUtf8 value).length ∧
      m'.memory.read? (unsigned out) (Text.encodeUtf8 value).length =
        some (Text.encodeUtf8 value) := by
  have htext : (m.world.context c).text? key = some value := by
    rw [Context.text?, hproperty]
    rfl
  obtain ⟨hexports, hinside⟩ := hout
  have hunsigned : (unsigned capacity : Int) = capacity.toInt := unsigned_of_nonneg (by omega)
  have hall : fitting capacity value = Text.encodeUtf8 value := by
    rw [fitting, List.take_of_length_le]
    omega
  have hfits : unsigned out + (Text.encodeUtf8 value).length ≤ m.memory.size := by omega
  have hroom : f.HasRoom m.memory out capacity value := by
    refine ⟨hexports, .inr ?_⟩
    rw [hall]
    exact hfits
  obtain ⟨answer, m', hcopy, hcopies⟩ := writeText_copies f out capacity value m
  obtain ⟨hanswer, hmemory⟩ := hcopies.copied hroom
  rw [hall] at hmemory
  refine ⟨answer, m', ?_, ?_, hmemory.read?_eq hfits⟩
  · rw [getProperty_eq hm.attached, hkey, Option.bind_some, htext]
    exact hcopy
  · have hmax := capacity.toInt_le
    rw [hanswer]
    exact min_eq_left (hcapacity.trans hmax)

def IsReferenceKey (key : String) : Prop := key ≠ "" ∧ ∀ ch ∈ key.toList, isReferenceChar ch = true

theorem compile_reference (h : IsReferenceKey key) :
    TextTemplate.compile (String.ofList (Reference.property key).written) =
      .ok ⟨String.ofList (Reference.property key).written, [.reference (.property key)]⟩ := by
  obtain ⟨hempty, hchars⟩ := h
  have hkey : key.toList ≠ [] := by
    intro hnil
    exact hempty (String.toList_eq_nil_iff.mp hnil)
  have hscan : Segment.scan 0 (Reference.property key).written =
      .ok [.reference (.property key)] := by
    rw [Reference.written, List.cons_append, Segment.scan]
    split
    · rename_i name after hread
      rw [propertyAt_key hkey hchars] at hread
      cases hread
      rw [Segment.scan, String.ofList_toList]
      rfl
    · rename_i cause hread
      rw [propertyAt_key hkey hchars] at hread
      cases hread
  rw [TextTemplate.compile, String.toList_ofList, hscan]
  rfl

/-- A reference to a property renders to its text. -/
theorem render_reference {st : EngineState}
    (hproperty : (st.world.context c).get? key = some (.ofText value)) (source : String) :
    Run.render c ⟨source, [.reference (.property key)]⟩ st = .ok value st := by
  have htext : (st.world.scope c).text? (.property key) = some value := by
    show ((st.world.context c).get? key).bind Node.propertyText? = some value
    rw [hproperty]
    rfl
  have hrender : TextTemplate.render ⟨source, [.reference (.property key)]⟩ (st.world.scope c) =
      value := by
    simp [TextTemplate.render, Segment.render, htext]
  rw [← hrender]
  rfl

end Reading

/-- **A property that a guest writes is read back**, by the guest and by references.

    In the run of a guest for a context, let the guest call for a property to be written, with
    a key of any bytes and with a value that spells a text.  Then whatever it does next, as long
    as the host is not called to write this property again, the property has this text, and it
    has it still when the run is over.  At any moment of the run the guest that asks for the
    property by the same bytes is told the length of the value, and finds the bytes of the value
    in its buffer, if this lies inside of memory and is long enough.  As long as the property has
    the text, a reference to its key renders to it, if the key can stand in a reference. -/
theorem written_property_reads_back {f : Frame} {c : ContextId} {m : Machine} (hm : m.RunsFor c)
    {keyStart keyLength valueStart valueLength : Int32} {keyBytes valueBytes : List UInt8}
    {value : String} (hkey : f.Finds m.memory keyStart keyLength keyBytes)
    (hvalue : f.Finds m.memory valueStart valueLength valueBytes)
    (hvalid : Text.decodeUtf8? valueBytes = some value) :
    let key := Text.decodeLenient keyBytes
    ∃ m₁, Step.setProperty f keyStart keyLength valueStart valueLength m = .ok () m₁ ∧
      (∀ (α : Type) (code code' : Code α) calls m₂, Passage f code m₁ calls code' m₂ →
        (∀ call ∈ calls, ¬ call.Writes key) →
        (m₂.world.context c).get? key = some (.ofText value) ∧
        (∀ ending m₃, Halts f code' m₂ ending m₃ →
          (m₃.world.context c).get? key = some (.ofText value)) ∧
        ∀ keyStart keyLength out capacity, f.Finds m₂.memory keyStart keyLength keyBytes →
          f.Reaches m₂.memory out capacity → (valueBytes.length : Int) ≤ capacity.toInt →
          ∃ answer m₃, Step.getProperty f keyStart keyLength out capacity m₂ = .ok answer m₃ ∧
            answer.toInt = valueBytes.length ∧
            m₃.memory.read? (unsigned out) valueBytes.length = some valueBytes) ∧
      (IsReferenceKey key →
        ∃ t, TextTemplate.compile (String.ofList (Reference.property key).written) = .ok t ∧
          ∀ st : EngineState, (st.world.context c).get? key = some (.ofText value) →
            Run.render c t st = .ok value st) := by
  intro key
  have htext := hvalue.text?_eq
  rw [decodeLenient_of_decodeUtf8? hvalid] at htext
  obtain ⟨m₁, hset⟩ := setProperty_returns f m keyStart keyLength valueStart valueLength
  refine ⟨m₁, hset, ?_, ?_⟩
  · intro α code code' calls m₂ hpassage hothers
    -- the call that writes is one of the guest as well
    have hasks : Asks f (.setProperty keyStart keyLength valueStart valueLength code) m _ code m₁ :=
      .setProperty hset
    obtain ⟨hm₁, hwritten⟩ := hasks.context_eq hm
    obtain ⟨hm₂, hlater⟩ := hpassage.context_eq hm₁
    rw [hkey.text?_eq, htext] at hwritten
    have hproperty : (m₂.world.context c).get? key = some (.ofText value) := by
      rw [hlater, HostCall.get?_foldl_writes hothers, hwritten]
      exact Context.get?_set_same _ key (.ofText value)
    refine ⟨hproperty, ?_, ?_⟩
    · intro ending m₃ hhalts
      rw [hhalts.context_eq hm₂]
      exact hproperty
    · intro keyStart keyLength out capacity hagain hout hcapacity
      have hbytes := Text.encodeUtf8_of_decodeUtf8? hvalid
      rw [← hbytes] at hcapacity ⊢
      exact getProperty_reads hm₂ hproperty hagain.text?_eq hout hcapacity
  · intro hreference
    exact ⟨_, compile_reference hreference, fun st hst => render_reference hst _⟩

/-- A guest whose memory holds a key, a value and the key once more. -/
def echoMachine : Machine :=
  { memory := ⟨#[0x6b, 0x76, 0x76, 0x6b]⟩, attached? := some 0,
    world := { contexts := [{ subject := .ofName "ann" }] } }

/-- The guest writes the property, spoils the first key and reports the value; then it reads
    the property by the other key, into a buffer that covers everything. -/
theorem written_property_reads_back_echoMachine :
    ∃ m₁ m₂ answer m₃, Step.setProperty { label := "busy" } 0 1 1 2 echoMachine = .ok () m₁ ∧
      Passage { label := "busy" } (.store 0 0x78 fun _ => .log 1 2 (.done ())) m₁
        [.log (some "vv")] (.done ()) m₂ ∧
      Step.getProperty { label := "busy" } 3 1 0 4 m₂ = .ok answer m₃ ∧ answer.toInt = 2 ∧
      m₃.memory.read? 0 2 = some [0x76, 0x76] ∧
      ∃ t, TextTemplate.compile "\x7bk\x7d" = .ok t ∧
        Run.render 0 t { world := m₂.world } = .ok "vv" { world := m₂.world } := by
  have hruns : echoMachine.RunsFor 0 := ⟨rfl, Nat.zero_lt_one⟩
  have hkey : Frame.Finds { label := "busy" } echoMachine.memory 0 1 [0x6b] := ⟨rfl, rfl⟩
  have hvalue : Frame.Finds { label := "busy" } echoMachine.memory 1 2 [0x76, 0x76] := ⟨rfl, rfl⟩
  have hvalid : Text.decodeUtf8? [0x76, 0x76] = some "vv" := by decide +kernel
  have hname : Text.decodeLenient [0x6b] = "k" := by decide +kernel
  have hreference : IsReferenceKey "k" := by
    refine ⟨by decide, fun ch hch => ?_⟩
    obtain rfl : ch = 'k' := by simpa using hch
    decide
  obtain ⟨m₁, hset, hmoments, hrendered⟩ := written_property_reads_back hruns hkey hvalue hvalid
  rw [hname] at hmoments hrendered
  have hmemory : m₁.memory = ⟨#[0x6b, 0x76, 0x76, 0x6b]⟩ := by
    have hwritten := setProperty_eq (f := { label := "busy" }) hruns.attached 0 1 1 2
    rw [hset, hkey.text?_eq, hvalue.text?_eq] at hwritten
    cases hwritten
    rfl
  have hstored : m₁.memory.write? 0 [0x78] = some ⟨#[0x78, 0x76, 0x76, 0x6b]⟩ := by
    rw [hmemory]
    rfl
  have hlog : Frame.text? { label := "busy" } ⟨#[0x78, 0x76, 0x76, 0x6b]⟩ 1 2 = some "vv" := by
    decide +kernel
  have hpassage : Passage { label := "busy" }
      (.store 0 0x78 fun _ => .log 1 2 (.done ())) m₁ [.log _] (.done ()) _ :=
    .own (.stored hstored) (.host (.log (log_performs { label := "busy" } 0 1 2 _)) (.refl _ _))
  obtain ⟨hhas, -, hread⟩ := hmoments Unit _ _ _ _ hpassage (by simp [HostCall.Writes])
  obtain ⟨answer, m₃, hget, hanswer, hbuffer⟩ :=
    hread 3 1 0 4 ⟨rfl, rfl⟩ ⟨rfl, Nat.le_refl 4⟩ (by decide)
  obtain ⟨t, ht, hrender⟩ := hrendered hreference
  refine ⟨m₁, _, answer, m₃, hset, ?_, hget, hanswer, hbuffer, t, ht, hrender _ hhas⟩
  rw [← hlog]
  exact hpassage

end Guest

end RuleEngine
