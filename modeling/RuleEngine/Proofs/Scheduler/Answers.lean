/-
  RuleEngine/Proofs/Scheduler/Answers.lean
  ========================================
  **How often cancelling finds a task.**

  A call of `cancel` tells whether there was something to cancel.  Of a task that was found
  there is nothing left, and a later call says so, unless the task itself makes it: a
  repeating task is running until its firing ends, be it marked as cancelled or not, so each
  of its own calls finds it once more.  At most one call of a run finds a task exactly if no
  firing of it asks twice (`Course.cancelled_once_iff`).

  The invariant `Moment.Settled` ties two counts together: how many calls of the whole run
  found the task, and how many of its own calls the task made since it began to fire.
-/
import Mathlib.Data.List.DropRight
import RuleEngine.Proofs.Scheduler.Cancelling

namespace RuleEngine

variable {τ ω : Type}

/-! ### Views of a history -/

def Event.fired? : Event τ → Option (QueueEntry τ)
  | fired _ e => some e
  | _ => none

/-- Whether an event is a call that found a task to cancel. -/
def Event.finds (id : TaskId) : Event τ → Bool
  | cancelled _ _ other found => other == id && found
  | _ => false

def Event.asksItself (id : TaskId) : Event τ → Bool
  | cancelled _ caller? other _ => caller? == some id && other == id
  | _ => false

def Event.isCancelling : Event τ → Bool
  | cancelled _ _ _ _ => true
  | _ => false

def lastFired? (h : List (Event τ)) : Option (QueueEntry τ) := (h.filterMap Event.fired?).getLast?

def sinceFired (h : List (Event τ)) : List (Event τ) :=
  h.rtakeWhile fun event => event.fired?.isNone

/-- At some point of a run, a repeating task has asked more than once to cancel itself since
    it began to fire. -/
def CancelsItselfAgain (id : TaskId) (h : List (Event τ)) : Prop :=
  ∃ k e, k <+: h ∧ lastFired? k = some e ∧ e.id = id ∧ e.period?.isSome ∧
    1 < (sinceFired k).countP (Event.asksItself id)

theorem CancelsItselfAgain.append {id : TaskId} {h : List (Event τ)}
    (again : CancelsItselfAgain id h) (events : List (Event τ)) :
    CancelsItselfAgain id (h ++ events) := by
  obtain ⟨k, e, hk, hlast, hid, hrepeats, hasks⟩ := again
  exact ⟨k, e, hk.trans (List.prefix_append h events), hlast, hid, hrepeats, hasks⟩

section Views

variable {h events : List (Event τ)}

theorem lastFired?_append (quiet : ∀ event ∈ events, event.fired? = none) :
    lastFired? (h ++ events) = lastFired? h := by
  have hnone : events.filterMap Event.fired? = [] := List.filterMap_eq_nil_iff.mpr quiet
  rw [lastFired?, List.filterMap_append, hnone, List.append_nil, lastFired?]

theorem sinceFired_append (quiet : ∀ event ∈ events, event.fired? = none) :
    sinceFired (h ++ events) = sinceFired h ++ events := by
  induction events generalizing h with
  | nil => simp
  | cons event events ih =>
    obtain ⟨hfirst, hrest⟩ := List.forall_mem_cons.mp quiet
    have hone : sinceFired (h ++ [event]) = sinceFired h ++ [event] :=
      List.rtakeWhile_concat_pos _ h event (by simp [hfirst])
    rw [List.append_cons, ih hrest, hone, List.append_assoc, List.singleton_append]

theorem lastFired?_fired (h : List (Event τ)) (now : Nat) (e : QueueEntry τ) :
    lastFired? (h ++ [.fired now e]) = some e := by
  simp [lastFired?, Event.fired?]

theorem sinceFired_fired (h : List (Event τ)) (now : Nat) (e : QueueEntry τ) :
    sinceFired (h ++ [.fired now e]) = [] :=
  List.rtakeWhile_concat_neg _ h _ (by simp [Event.fired?])

theorem Event.finds_iff {id : TaskId} {event : Event τ} :
    event.finds id = true ↔ ∃ now caller?, event = .cancelled now caller? id true := by
  cases event <;> simp [finds]

theorem Event.asksItself_iff {id : TaskId} {event : Event τ} :
    event.asksItself id = true ↔ ∃ now found, event = .cancelled now (some id) id found := by
  cases event <;> simp [asksItself]

theorem wasCancelled_iff {id : TaskId} :
    WasCancelled id h ↔ 0 < h.countP (Event.finds id) := by
  rw [List.countP_pos_iff]
  constructor
  · rintro ⟨now, caller?, hev⟩
    exact ⟨_, hev, Event.finds_iff.mpr ⟨now, caller?, rfl⟩⟩
  · rintro ⟨event, hev, hfinds⟩
    obtain ⟨now, caller?, rfl⟩ := Event.finds_iff.mp hfinds
    exact ⟨now, caller?, hev⟩

end Views

/-! ### Who is found -/

section Answers

variable {w : Workshop τ ω} {h events : List (Event τ)} {m m' : Moment τ ω}

theorem Phase.eq_firing_of_caller {p : Phase τ ω} {id : TaskId} (hcaller : p.caller? = some id) :
    ∃ origin before e, p = .firing origin before e ∧ e.id = id := by
  cases p with
  | between => cases hcaller
  | ticking origin => cases hcaller
  | firing origin before e => exact ⟨origin, before, e, rfl, Option.some.inj hcaller⟩

/-- A task that is running is the one that acts. -/
theorem Moment.Sound.caller_of_running (hm : m.Sound w h) {id : TaskId}
    (running : id ∈ m.scheduler.running) : m.phase.caller? = some id := by
  have hknown := hm.phase
  rcases m with ⟨st, phase⟩
  change id ∈ st.scheduler.running at running
  cases phase with
  | between =>
    rw [show st.scheduler.running = [] from hknown] at running
    cases running
  | ticking origin =>
    rw [hknown.1] at running
    cases running
  | firing origin before e =>
    obtain ⟨-, -, hrunning, -, -⟩ := hknown
    rw [hrunning] at running
    split at running
    · rw [List.mem_singleton.mp running]
      rfl
    · cases running

/-- A task that asks to cancel itself is found exactly if it repeats. -/
theorem Moment.Sound.cancel_itself (hm : m.Sound w h) {origin before : Scheduled τ ω}
    {e : QueueEntry τ} (hphase : m.phase = .firing origin before e) :
    (m.scheduler.cancel e.id).1 = e.period?.isSome := by
  have hknown := hm.phase
  rw [hphase] at hknown
  obtain ⟨-, -, hrunning, -, hfree⟩ := hknown
  have habsent : m.scheduler.dueOf? e.id = none := hm.queue.dueOf_eq_none.mpr hfree
  cases hp : e.period? with
  | none =>
    rw [hp, Option.isSome_none, if_neg Bool.false_ne_true] at hrunning
    have hidle : e.id ∉ m.scheduler.running := by
      rw [Moment.scheduler, hrunning]
      exact List.not_mem_nil
    rw [Scheduler.cancel_absent habsent hidle]
    rfl
  | some period =>
    rw [hp, Option.isSome_some, if_pos rfl] at hrunning
    have hruns : e.id ∈ m.scheduler.running := by
      rw [Moment.scheduler, hrunning]
      exact List.mem_singleton_self e.id
    rw [Scheduler.cancel_firing habsent hruns]
    rfl

/-- The event of a call of `cancel` tells the answer. -/
theorem Moment.cancelled_eq_event {c : Call τ} {now : Nat} {caller? : Option TaskId} {id : TaskId}
    {found : Bool} (heq : .cancelled now caller? id found = m.event c) :
    c = .cancel id ∧ caller? = m.phase.caller? ∧ found = (m.scheduler.cancel id).1 := by
  cases c with
  | schedule delay task => cases heq
  | scheduleRepeating initial period task => cases heq
  | cancel other =>
    obtain ⟨-, hcaller, rfl, hfound⟩ := Event.cancelled.inj heq
    exact ⟨rfl, hcaller, hfound⟩

theorem Moment.fired?_event (m : Moment τ ω) (c : Call τ) : (m.event c).fired? = none := by
  cases c <;> rfl

/-! ### What was seen of cancelling -/

/-- How what was seen of cancelling agrees with a moment: a task that was found is gone;
    while a task fires, it repeats if it was found, and nothing but its calls in this firing
    found it; and each call of its own finds a repeating task. -/
structure Moment.Settled (h : List (Event τ)) (m : Moment τ ω) : Prop where
  gone : ∀ {id}, WasCancelled id h → m.Gone id
  last : ∀ {origin before e}, m.phase = .firing origin before e → lastFired? h = some e
  repeats : ∀ {origin before e}, m.phase = .firing origin before e → WasCancelled e.id h →
    e.period?.isSome
  asked : ∀ {origin before e}, m.phase = .firing origin before e →
    h.countP (Event.finds e.id) ≤ (sinceFired h).countP (Event.asksItself e.id)
  found : ∀ {e}, lastFired? h = some e → e.period?.isSome →
    (sinceFired h).countP (Event.asksItself e.id) ≤ h.countP (Event.finds e.id)

theorem Moment.settled_start (world : ω) : (Moment.start world : Moment τ ω).Settled [] where
  gone := by
    rintro id ⟨now, caller?, hev⟩
    cases hev
  last := nofun
  repeats := nofun
  asked := nofun
  found := fun _ _ => Nat.le_refl 0

/-- A task that was found before is found again exactly if it asks itself. -/
theorem Moment.Settled.found_again_iff (hs : m.Settled h) (hm : m.Sound w h) {id : TaskId}
    (hc : WasCancelled id h) :
    (m.scheduler.cancel id).1 = true ↔ m.phase.caller? = some id := by
  constructor
  · intro hfound
    have habsent := (hs.gone hc).absent
    by_cases hrunning : id ∈ m.scheduler.running
    · exact hm.caller_of_running hrunning
    · rw [Scheduler.cancel_absent habsent hrunning] at hfound
      cases hfound
  · intro hcaller
    obtain ⟨origin, before, e, hphase, rfl⟩ := Phase.eq_firing_of_caller hcaller
    rw [hm.cancel_itself hphase]
    exact hs.repeats hphase hc

/-! ### One step -/

theorem Moment.Settled.gone_call (hs : m.Settled h) (hm : m.Sound w h) {c : Call τ}
    (acting : m.phase.Acting) {id : TaskId} (hc : WasCancelled id (h ++ [m.event c])) :
    (m.perform c).Gone id := by
  obtain ⟨now, caller?, hev⟩ := hc
  rcases List.mem_append.mp hev with hev | hev
  · exact ((hs.gone ⟨now, caller?, hev⟩).step hm (Step.call (w := w) c acting)).1
  · obtain ⟨rfl, -, hfound⟩ := Moment.cancelled_eq_event (List.mem_singleton.mp hev)
    exact hm.gone_of_found hfound.symm

/-- A call that finds the task that fires is its own. -/
theorem Moment.asksItself_event_of_finds {origin before : Scheduled τ ω} {e : QueueEntry τ}
    (hphase : m.phase = .firing origin before e) {c : Call τ}
    (hfinds : (m.event c).finds e.id = true) : (m.event c).asksItself e.id = true := by
  obtain ⟨now, caller?, heq⟩ := Event.finds_iff.mp hfinds
  obtain ⟨-, hcaller, -⟩ := Moment.cancelled_eq_event heq.symm
  refine Event.asksItself_iff.mpr ⟨now, true, ?_⟩
  rw [heq, hcaller, hphase]
  rfl

/-- A call by which a repeating task asks to cancel itself finds it. -/
theorem Moment.Settled.finds_event_of_asksItself (hs : m.Settled h) (hm : m.Sound w h)
    {e : QueueEntry τ} (hlast : lastFired? h = some e) (hrepeats : e.period?.isSome) {c : Call τ}
    (hasks : (m.event c).asksItself e.id = true) : (m.event c).finds e.id = true := by
  obtain ⟨now, found, heq⟩ := Event.asksItself_iff.mp hasks
  obtain ⟨-, hcaller, hfound⟩ := Moment.cancelled_eq_event heq.symm
  obtain ⟨origin, before, f, hphase, -⟩ := Phase.eq_firing_of_caller hcaller.symm
  obtain rfl : f = e := Option.some.inj ((hs.last hphase).symm.trans hlast)
  refine Event.finds_iff.mpr ⟨now, some f.id, ?_⟩
  rw [heq, hfound, hm.cancel_itself hphase, hrepeats]

/-- A call keeps the count of successful cancels settled, its own included. -/
theorem Moment.Settled.call (hs : m.Settled h) (hm : m.Sound w h) (c : Call τ)
    (acting : m.phase.Acting) : (m.perform c).Settled (h ++ [m.event c]) := by
  have quiet : ∀ event ∈ [m.event c], event.fired? = none :=
    List.forall_mem_singleton.mpr (m.fired?_event c)
  refine ⟨hs.gone_call hm acting, fun {origin before e} hphase => ?_,
    fun {origin before e} hphase hc => ?_, fun {origin before e} hphase => ?_,
    fun {e} hlast hrepeats => ?_⟩
  · rw [lastFired?_append quiet]
    exact hs.last hphase
  · obtain ⟨now, caller?, hev⟩ := hc
    rcases List.mem_append.mp hev with hev | hev
    · exact hs.repeats hphase ⟨now, caller?, hev⟩
    · obtain ⟨-, -, hfound⟩ := Moment.cancelled_eq_event (List.mem_singleton.mp hev)
      rw [← hm.cancel_itself hphase, ← hfound]
  · rw [sinceFired_append quiet, List.countP_append, List.countP_append]
    refine Nat.add_le_add (hs.asked hphase) (List.countP_mono_left fun event hev hfinds => ?_)
    obtain rfl := List.mem_singleton.mp hev
    exact Moment.asksItself_event_of_finds (m := m) hphase hfinds
  · rw [lastFired?_append quiet] at hlast
    rw [sinceFired_append quiet, List.countP_append, List.countP_append]
    refine Nat.add_le_add (hs.found hlast hrepeats)
      (List.countP_mono_left fun event hev hasks => ?_)
    obtain rfl := List.mem_singleton.mp hev
    exact hs.finds_event_of_asksItself hm hlast hrepeats hasks

/-- A step that neither fires nor cancels a task changes nothing of this. -/
theorem Moment.Settled.of_silent (hs : m.Settled h) (hm : m.Sound w h)
    (step : Step w m events m')
    (silent : ∀ event ∈ events, event.fired? = none ∧ event.isCancelling = false)
    (same : ∀ origin before e, m'.phase = .firing origin before e →
      m.phase = .firing origin before e) :
    m'.Settled (h ++ events) := by
  have quiet : ∀ event ∈ events, event.fired? = none := fun event hev => (silent event hev).1
  have hfinds : ∀ id, events.countP (Event.finds id) = 0 := fun id =>
    List.countP_eq_zero.mpr fun event hev hfinds => by
      obtain ⟨now, caller?, rfl⟩ := Event.finds_iff.mp hfinds
      cases (silent _ hev).2
  have hasks : ∀ id, events.countP (Event.asksItself id) = 0 := fun id =>
    List.countP_eq_zero.mpr fun event hev hasks => by
      obtain ⟨now, found, rfl⟩ := Event.asksItself_iff.mp hasks
      cases (silent _ hev).2
  have hcancelled : ∀ id, WasCancelled id (h ++ events) → WasCancelled id h := by
    intro id hc
    rw [wasCancelled_iff, List.countP_append, hfinds] at hc
    exact wasCancelled_iff.mpr hc
  refine ⟨fun {id} hc => ((hs.gone (hcancelled id hc)).step hm step).1,
    fun hphase => (lastFired?_append quiet).trans (hs.last (same _ _ _ hphase)),
    fun hphase hc => hs.repeats (same _ _ _ hphase) (hcancelled _ hc),
    fun {origin before e} hphase => ?_, fun {e} hlast hrepeats => ?_⟩
  · rw [sinceFired_append quiet, List.countP_append, List.countP_append, hfinds, hasks]
    exact hs.asked (same _ _ _ hphase)
  · rw [sinceFired_append quiet, List.countP_append, List.countP_append, hfinds, hasks]
    exact hs.found (lastFired?_append quiet ▸ hlast) hrepeats

/-- A firing keeps it settled: the cancels counted so far are those of earlier firings. -/
theorem Moment.Settled.fire {st origin : Scheduled τ ω} {e : QueueEntry τ}
    (hs : Moment.Settled h ⟨st, .ticking origin⟩) (hm : Moment.Sound w h ⟨st, .ticking origin⟩)
    (due : st.scheduler.nextDue? = some e) :
    Moment.Settled (h ++ [.fired st.scheduler.current e])
      ⟨st.started e, .firing origin st e⟩ := by
  have hcancelled : ∀ id, WasCancelled id (h ++ [.fired st.scheduler.current e]) →
      WasCancelled id h := by
    intro id hc
    rw [wasCancelled_iff, List.countP_append] at hc
    exact wasCancelled_iff.mpr hc
  -- A task that was found has left the queue, so that it does not fire
  have hnever : ¬ WasCancelled e.id h := fun hc =>
    (hs.gone hc).not_mem hm e (Scheduler.mem_of_nextDue? due) rfl
  refine ⟨fun {id} hc => ((hs.gone (hcancelled id hc)).step hm (Step.fire due)).1,
    fun {o b f} hphase => ?_, fun {o b f} hphase hc => ?_, fun {o b f} hphase => ?_,
    fun {f} hlast hrepeats => ?_⟩
  · cases hphase
    exact lastFired?_fired h _ e
  · cases hphase
    exact absurd (hcancelled _ hc) hnever
  · cases hphase
    have hnone := mt wasCancelled_iff.mpr (mt (hcancelled e.id) hnever)
    rw [Nat.eq_zero_of_not_pos hnone]
    exact Nat.zero_le _
  · rw [sinceFired_fired]
    exact Nat.zero_le _

/-- Every step keeps the count of successful cancels settled. -/
theorem Step.settled (hs : m.Settled h) (hm : m.Sound w h) (step : Step w m events m') :
    m'.Settled (h ++ events) := by
  cases step with
  | call c acting => exact hs.call hm c acting
  | change f acting =>
    exact hs.of_silent hm (.change f acting) (by simp) fun _ _ _ hphase => hphase
  | tick st => exact hs.of_silent hm (.tick st) (by simp [Event.fired?, Event.isCancelling]) nofun
  | fire due => exact hs.fire hm due
  | finish done =>
    refine hs.of_silent hm (.finish done) (fun event hev => ?_) nofun
    obtain ⟨period, rfl⟩ := Scheduler.eq_of_mem_requeueEvents hev
    exact ⟨rfl, rfl⟩
  | rest drained returned => exact hs.of_silent hm (.rest drained returned) (by simp) nofun

/-! ### Whole runs -/

theorem Course.settled {world : ω} (run : Course w (.start world) h m) : m.Settled h := by
  induction run with
  | refl => exact Moment.settled_start world
  | snoc run step ih => exact step.settled ih (run.sound (Moment.sound_start w world))

/-- A step is seen by at most one event. -/
theorem Step.events_eq (step : Step w m events m') : events = [] ∨ ∃ event, events = [event] := by
  cases step with
  | @finish st origin before e done =>
    unfold Scheduler.requeueEvents
    (repeat' split) <;> simp
  | _ => simp

/-- A run can be cut after everything that was seen. -/
theorem Course.of_prefix {k : List (Event τ)} (run : Course w m h m') (hk : k <+: h) :
    ∃ m₁, Course w m k m₁ := by
  induction run with
  | refl => exact ⟨m, List.prefix_nil.mp hk ▸ .refl⟩
  | @snoc h events m' m'' run step ih =>
    rcases step.events_eq with rfl | ⟨event, rfl⟩
    · rw [List.append_nil] at hk
      exact ih hk
    · rcases List.prefix_concat_iff.mp hk with rfl | hk
      · exact ⟨m'', run.snoc step⟩
      · exact ih hk

/-- A task that was found more than once asked more than once in one firing. -/
theorem Course.asks_again {world : ω} {id : TaskId} (run : Course w (.start world) h m)
    (hfound : 1 < h.countP (Event.finds id)) : CancelsItselfAgain id h := by
  induction run with
  | refl => cases hfound
  | @snoc h events m m' run step ih =>
    by_cases hearlier : 1 < h.countP (Event.finds id)
    · exact (ih hearlier).append events
    have hs := run.settled
    have hm := run.sound (Moment.sound_start w world)
    have hs' : m'.Settled (h ++ events) := step.settled hs hm
    rw [List.countP_append] at hfound
    have hpos : 0 < events.countP (Event.finds id) := by omega
    obtain ⟨event, hev, hfinds⟩ := List.countP_pos_iff.mp hpos
    have hone : events.countP (Event.finds id) ≤ 1 := by
      refine Nat.le_trans List.countP_le_length ?_
      rcases step.events_eq with rfl | ⟨_, rfl⟩ <;> simp
    have hc : WasCancelled id h := wasCancelled_iff.mpr (by omega)
    obtain ⟨now, caller?, rfl⟩ := Event.finds_iff.mp hfinds
    cases step with
    | call c acting =>
      obtain ⟨rfl, -, hanswer⟩ := Moment.cancelled_eq_event (List.mem_singleton.mp hev)
      have hcaller := (hs.found_again_iff hm hc).mp hanswer.symm
      obtain ⟨origin, before, e, hphase, rfl⟩ := Phase.eq_firing_of_caller hcaller
      have hasked := hs'.asked (e := e) hphase
      rw [List.countP_append] at hasked
      exact ⟨_, e, List.prefix_rfl, hs'.last hphase, rfl, hs.repeats hphase hc, by omega⟩
    | change f acting => cases hev
    | tick st => cases List.mem_singleton.mp hev
    | fire due => cases List.mem_singleton.mp hev
    | finish done =>
      obtain ⟨_, heq⟩ := Scheduler.eq_of_mem_requeueEvents hev
      cases heq
    | rest drained returned => cases hev

/-- **A cancelled task is found again by itself only.**  In a run, at most one call of `cancel`
    finds a task, if and only if no firing of the task, as one that repeats, asks more than
    once to cancel it.  At every moment after a call that found the task, whoever acts finds it
    again exactly if it is the task that acts. -/
theorem Course.cancelled_once_iff {world : ω} (run : Course w (.start world) h m) (id : TaskId) :
    (h.countP (Event.finds id) ≤ 1 ↔ ¬ CancelsItselfAgain id h) ∧
      (WasCancelled id h →
        ((m.scheduler.cancel id).1 = true ↔ m.phase.caller? = some id)) := by
  refine ⟨⟨?_, fun hnot => ?_⟩, fun hc => ?_⟩
  · rintro hle ⟨k, e, hk, hlast, rfl, hrepeats, hasks⟩
    obtain ⟨m₁, cut⟩ := run.of_prefix hk
    have hfound := cut.settled.found hlast hrepeats
    have hall : k.countP (Event.finds e.id) ≤ h.countP (Event.finds e.id) := hk.sublist.countP_le
    omega
  · by_contra hmany
    exact hnot (run.asks_again (Nat.lt_of_not_le hmany))
  · exact run.settled.found_again_iff (run.sound (Moment.sound_start w world)) hc

end Answers

/-- A workshop in which every task asks twice to cancel itself. -/
def insisting : Workshop Unit Unit where
  run id _ st := { st with scheduler := ((st.scheduler.cancel id).2.cancel id).2 }
  dropped _ _ := ()
  weight _ := 1

/-- The moment after both calls of a repeating task, and the one at which its firing has ended. -/
theorem course_insisting :
    ∃ h m m', Course insisting (.start ()) h m ∧ Course insisting (.start ()) h m' ∧
      h.countP (Event.finds 0) = 2 ∧ m.phase.caller? = some 0 ∧ m'.phase.caller? = none := by
  have called : Course insisting (.start ()) _ _ :=
    Course.refl.snoc (.call (.scheduleRepeating 1 1 ()) trivial)
  have fired : Course insisting (.start ()) _ _ := (called.snoc (.tick _)).snoc (.fire rfl)
  have asked : Course insisting (.start ()) _ _ := fired.snoc (.call (.cancel 0) trivial)
  have again : Course insisting (.start ()) _ _ := asked.snoc (.call (.cancel 0) trivial)
  have ended : Course insisting (.start ()) _ _ := again.snoc (.finish rfl)
  exact ⟨_, _, _, again, ended, rfl, rfl, rfl⟩

/-- Both calls find the task, and so would a third one; when the firing has ended, no call does. -/
theorem cancelled_once_iff_insisting :
    ∃ h m m', Course insisting (.start ()) h m ∧ Course insisting (.start ()) h m' ∧
      h.countP (Event.finds 0) = 2 ∧ CancelsItselfAgain 0 h ∧ WasCancelled 0 h ∧
      (m.scheduler.cancel 0).1 = true ∧ (m'.scheduler.cancel 0).1 = false := by
  obtain ⟨h, m, m', again, ended, htwice, hcaller, hnobody⟩ := course_insisting
  have hcancelled : WasCancelled 0 h := wasCancelled_iff.mpr (by omega)
  obtain ⟨honce, hinside⟩ := Course.cancelled_once_iff again 0
  obtain ⟨-, hafter⟩ := Course.cancelled_once_iff ended 0
  refine ⟨h, m, m', again, ended, htwice, ?_, hcancelled, (hinside hcancelled).mpr hcaller, ?_⟩
  · by_contra hnot
    have hle := honce.mpr hnot
    omega
  · rw [Bool.eq_false_iff, Ne, hafter hcancelled, hnobody]
    nofun

end RuleEngine
