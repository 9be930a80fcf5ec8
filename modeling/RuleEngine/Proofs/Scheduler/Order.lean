/-
  RuleEngine/Proofs/Scheduler/Order.lean
  ======================================
  **The order in which tasks fire.**

  Entries leave the queue in the order of their keys, the tick that an entry is due at
  and the number of its task, and they do so over a whole run: while a tick works its
  way through the queue the firings put new entries into it, and between two ticks
  entries are queued for the tick that is just over.  What keeps the order is that an
  entry is never queued behind what has fired already (`Moment.InOrder.ahead`).  It is
  due at the current tick or later; if it is due at this very tick then it belongs to a
  new task, whose number is greater than those of all that fired; and a repeating task
  is queued again for a later tick than that of its firing.

  The main statement, `Course.fires_in_order`, is derived from this at the end.  A run
  calls a tick between two ticks only: what a task has of the scheduler are the calls
  that schedule and cancel.
-/
import Mathlib.Data.List.Sort
import Mathlib.Data.Prod.Lex
import RuleEngine.Proofs.Scheduler.Timetable

namespace RuleEngine

variable {τ ω : Type} {w : Workshop τ ω} {h events : List (Event τ)} {m m' : Moment τ ω}

/-! ### Keys -/

def QueueEntry.key (e : QueueEntry τ) : Nat ×ₗ TaskId := toLex (e.due, e.id)

/-- A task that repeats does so at least a tick apart. -/
def QueueEntry.Spaced (e : QueueEntry τ) : Prop := ∀ period, e.period? = some period → 0 < period

theorem QueueEntry.key_lt_key {e f : QueueEntry τ} :
    e.key < f.key ↔ e.due < f.due ∨ e.due = f.due ∧ e.id < f.id :=
  Prod.Lex.toLex_lt_toLex

theorem QueueEntry.key_lt_of_before {e f : QueueEntry τ} (h : e.before f = true) :
    e.key < f.key :=
  key_lt_key.mpr ((before_iff e f).mp h)

def firedKeys (h : List (Event τ)) : List (Nat ×ₗ TaskId) :=
  h.filterMap fun
    | .fired _ e => some e.key
    | _ => none

def scheduledIds (h : List (Event τ)) : List TaskId :=
  h.filterMap fun
    | .scheduled _ _ id _ _ _ => some id
    | _ => none

theorem firedKeys_append (h k : List (Event τ)) :
    firedKeys (h ++ k) = firedKeys h ++ firedKeys k :=
  List.filterMap_append

theorem scheduledIds_append (h k : List (Event τ)) :
    scheduledIds (h ++ k) = scheduledIds h ++ scheduledIds k :=
  List.filterMap_append

theorem mem_firedKeys {h : List (Event τ)} {key : Nat ×ₗ TaskId} :
    key ∈ firedKeys h ↔ ∃ tick e, Event.fired tick e ∈ h ∧ e.key = key := by
  simp only [firedKeys, List.mem_filterMap]
  constructor
  · rintro ⟨ev, hev, hsome⟩
    cases ev with
    | fired tick e => exact ⟨tick, e, hev, Option.some.inj hsome⟩
    | _ => simp at hsome
  · rintro ⟨tick, e, hev, rfl⟩
    exact ⟨_, hev, rfl⟩

theorem firedKeys_eq_nil {h : List (Event τ)} (hquiet : ∀ tick e, Event.fired tick e ∉ h) :
    firedKeys h = [] := by
  refine List.eq_nil_iff_forall_not_mem.mpr fun key hmem => ?_
  obtain ⟨tick, e, hev, -⟩ := mem_firedKeys.mp hmem
  exact hquiet tick e hev

/-! ### Nothing is queued behind what has fired -/

/-- What has fired came in order, and everything that is queued is to fire after it. -/
structure Moment.InOrder (h : List (Event τ)) (m : Moment τ ω) : Prop where
  keys : (firedKeys h).Pairwise (· < ·)
  ticks : ∀ id, (firedTicks id h).Pairwise (· < ·)
  past : ∀ {tick e}, .fired tick e ∈ h → e.due ≤ tick ∧ tick ≤ m.now
  ahead : ∀ {tick e f}, .fired tick e ∈ h → f ∈ m.scheduler.queue →
    e.key < f.key ∧ (f.id = e.id → tick < f.due)
  spaced : ∀ f ∈ m.scheduler.queue, f.Spaced
  firing_spaced : ∀ {origin before e}, m.phase = .firing origin before e → e.Spaced
  numbered : scheduledIds h = List.range m.scheduler.nextId

theorem Moment.inOrder_start (world : ω) : (Moment.start world : Moment τ ω).InOrder [] where
  keys := List.Pairwise.nil
  ticks := fun _ => List.Pairwise.nil
  past := by simp
  ahead := by simp
  spaced := fun f hf => by cases hf
  firing_spaced := fun hphase => by cases hphase
  numbered := rfl

/-- Steps in which nothing fires keep the order, as long as what is new in the queue
    belongs to a new task or is due after the current tick. -/
theorem Moment.InOrder.of_quiet (ho : m.InOrder h) (hm : m.Sound w h)
    (hquiet : ∀ tick e, Event.fired tick e ∉ events) (hnow : m.now ≤ m'.now)
    (hqueue : ∀ f ∈ m'.scheduler.queue, f ∈ m.scheduler.queue ∨
      f.Spaced ∧ (m.now < f.due ∨ m.now ≤ f.due ∧ f.id = m.scheduler.nextId))
    (hphase : ∀ {origin before e}, m'.phase = .firing origin before e → e.Spaced)
    (hnumbered : scheduledIds (h ++ events) = List.range m'.scheduler.nextId) :
    m'.InOrder (h ++ events) := by
  have hearlier : ∀ {tick e}, Event.fired tick e ∈ h ++ events → Event.fired tick e ∈ h :=
    fun hev => (List.mem_append.mp hev).resolve_right (hquiet _ _)
  refine {
    keys := ?_
    ticks := fun id => ?_
    past := fun hev => ?_
    ahead := fun {tick e f} hev hf => ?_
    spaced := fun f hf => ?_
    firing_spaced := hphase
    numbered := hnumbered }
  · rw [firedKeys_append, firedKeys_eq_nil hquiet, List.append_nil]
    exact ho.keys
  · rw [firedTicks_append, firedTicks_eq_nil fun now e hev => absurd hev (hquiet now e),
      List.append_nil]
    exact ho.ticks id
  · obtain ⟨hdue, htick⟩ := ho.past (hearlier hev)
    exact ⟨hdue, Nat.le_trans htick hnow⟩
  · obtain ⟨hdue, htick⟩ := ho.past (hearlier hev)
    rcases hqueue f hf with hold | ⟨-, hlater | ⟨hle, hnew⟩⟩
    · exact ho.ahead (hearlier hev) hold
    · exact ⟨QueueEntry.key_lt_key.mpr (Or.inl (by omega)), fun _ => by omega⟩
    · -- a new task: its number is greater than those of all that fired
      have hid : e.id < f.id := hnew ▸ hm.fired_lt (hearlier hev)
      refine ⟨QueueEntry.key_lt_key.mpr ?_, fun heq => absurd heq.symm (Nat.ne_of_lt hid)⟩
      exact (Nat.lt_or_eq_of_le (Nat.le_trans hdue (Nat.le_trans htick hle))).imp_right
        fun heq => ⟨heq, hid⟩
  · rcases hqueue f hf with hold | ⟨hspaced, -⟩
    · exact ho.spaced f hold
    · exact hspaced

/-! ### One step keeps the order -/

/-- What a call queues is due at the current tick or later. -/
theorem Moment.queued_of_perform {c : Call τ} (fits : (m.event c).reach < tickSpan)
    {f : QueueEntry τ} (hf : f ∈ (m.perform c).scheduler.queue) :
    f ∈ m.scheduler.queue ∨
      f.Spaced ∧ (m.now < f.due ∨ m.now ≤ f.due ∧ f.id = m.scheduler.nextId) := by
  have hdue : ∀ delay, m.now + delay < tickSpan →
      m.now ≤ (m.scheduler.current + delay) % tickSpan := by
    intro delay hfits
    change m.now ≤ (m.now + delay) % tickSpan
    rw [Nat.mod_eq_of_lt hfits]
    exact Nat.le_add_right _ _
  cases c with
  | schedule delay task =>
    rcases (Scheduler.mem_add_queue m.scheduler delay none task).mp hf with rfl | hf
    · refine Or.inr ⟨fun period hp => ?_, Or.inr ⟨hdue delay fits, rfl⟩⟩
      cases hp
    · exact Or.inl hf
  | scheduleRepeating initial period task =>
    rcases (Scheduler.mem_add_queue m.scheduler initial _ task).mp hf with rfl | hf
    · refine Or.inr ⟨fun period' hp => ?_, Or.inr ⟨hdue initial fits, rfl⟩⟩
      have heq : max period 1 = period' := Option.some.inj hp
      omega
    · exact Or.inl hf
  | cancel id => exact Or.inl (Scheduler.cancel_queue_sublist.subset hf)

theorem Moment.numbered_perform (hnumbered : scheduledIds h = List.range m.scheduler.nextId)
    (c : Call τ) :
    scheduledIds (h ++ [m.event c]) = List.range (m.perform c).scheduler.nextId := by
  rw [scheduledIds_append, hnumbered]
  cases c with
  | schedule delay task => exact List.range_succ.symm
  | scheduleRepeating initial period task => exact List.range_succ.symm
  | cancel id =>
    change List.range m.scheduler.nextId ++ [] = List.range (m.scheduler.cancel id).2.nextId
    rw [List.append_nil, Scheduler.cancel_nextId]

/-- The entry that fires comes after everything that has fired, and before everything
    that stays in the queue. -/
theorem Moment.InOrder.fire {st origin : Scheduled τ ω} {e : QueueEntry τ}
    (ho : Moment.InOrder h ⟨st, .ticking origin⟩) (hs : st.scheduler.Sound)
    (due : st.scheduler.nextDue? = some e) :
    Moment.InOrder (h ++ [.fired st.scheduler.current e])
      ⟨st.started e, .firing origin st e⟩ := by
  obtain ⟨-, hdue⟩ := Scheduler.nextDue?_eq_some.mp due
  have hmem : e ∈ st.scheduler.queue := Scheduler.mem_of_nextDue? due
  have hlast : ∀ {tick f}, Event.fired tick f ∈ h ++ [.fired st.scheduler.current e] →
      Event.fired tick f ∈ h ∨ tick = st.scheduler.current ∧ f = e := fun hev =>
    (List.mem_append.mp hev).imp_right fun hev => Event.fired.inj (List.mem_singleton.mp hev)
  refine {
    keys := ?_
    ticks := fun id => ?_
    past := fun {tick f} hev => ?_
    ahead := fun {tick f g} hev hg => ?_
    spaced := fun g hg => ?_
    firing_spaced := fun hphase => ?_
    numbered := ?_ }
  · rw [firedKeys_append]
    refine List.pairwise_append.mpr ⟨ho.keys, List.pairwise_singleton _ _, ?_⟩
    intro key hkey last hlast
    obtain ⟨tick, f, hev, rfl⟩ := mem_firedKeys.mp hkey
    rw [List.mem_singleton.mp hlast]
    exact (ho.ahead hev hmem).1
  · rw [firedTicks_append]
    refine List.pairwise_append.mpr ⟨ho.ticks id, ?_, ?_⟩
    · by_cases hid : e.id = id <;> simp [firedTicks, hid]
    · intro tick htick now hnow
      obtain ⟨f, hev, hfid⟩ := mem_firedTicks.mp htick
      obtain ⟨g, hg, hgid⟩ := mem_firedTicks.mp hnow
      obtain ⟨rfl, rfl⟩ := Event.fired.inj (List.mem_singleton.mp hg)
      exact Nat.lt_of_lt_of_le ((ho.ahead hev hmem).2 (hgid.trans hfid.symm)) hdue
  · rcases hlast hev with hev | ⟨rfl, rfl⟩
    · exact ho.past hev
    · exact ⟨hdue, Nat.le_refl _⟩
  · obtain ⟨hold, hne⟩ := (hs.mem_start_queue due).mp hg
    rcases hlast hev with hev | ⟨rfl, rfl⟩
    · exact ho.ahead hev hold
    · exact ⟨QueueEntry.key_lt_of_before (hs.before_of_nextDue? due hold hne),
        fun hid => absurd hid hne⟩
  · exact ho.spaced g ((hs.mem_start_queue due).mp hg).1
  · cases hphase
    exact ho.spaced e hmem
  · rw [scheduledIds_append, ho.numbered]
    exact List.append_nil _

/-- A step keeps firings and queue in order, as long as no tick number is wrapped. -/
theorem Step.in_order (hm : m.Sound w h) (ho : m.InOrder h) (step : Step w m events m')
    (fits : Fits events) : m'.InOrder (h ++ events) := by
  cases step with
  | call c acting =>
    refine ho.of_quiet hm (fun tick e hev => ?_) ?_ (fun f hf => ?_) ho.firing_spaced
      (Moment.numbered_perform ho.numbered c)
    · exact Moment.event_ne_fired (List.mem_singleton.mp hev)
    · exact Nat.le_of_eq (Scheduler.perform_current m.scheduler c).symm
    · exact Moment.queued_of_perform (fits _ (List.mem_singleton.mpr rfl)) hf
  | change f acting =>
    refine ho.of_quiet hm (fun tick e hev => by cases hev) (Nat.le_refl _)
      (fun f hf => Or.inl hf) ho.firing_spaced ?_
    rw [List.append_nil]
    exact ho.numbered
  | tick st =>
    have hnext : st.scheduler.current + 1 < tickSpan := fits _ (List.mem_singleton.mpr rfl)
    refine ho.of_quiet hm (fun tick e hev => ?_) ?_ (fun f hf => Or.inl hf)
      (fun hphase => by cases hphase) ?_
    · cases List.mem_singleton.mp hev
    · change st.scheduler.current ≤ (st.scheduler.current + 1) % tickSpan
      rw [Nat.mod_eq_of_lt hnext]
      exact Nat.le_succ _
    · rw [scheduledIds_append, ho.numbered]
      exact List.append_nil _
  | fire due => exact ho.fire hm.queue due
  | @finish st origin before e done =>
    have hscheduler := Scheduled.fire_of_done done
    have hquiet : ∀ event ∈ st.scheduler.requeueEvents e,
        ∃ period, event = .requeued st.scheduler.current e.id period :=
      fun _ => Scheduler.eq_of_mem_requeueEvents
    refine ho.of_quiet hm (fun tick f hev => ?_) ?_ (fun f hf => ?_)
      (fun hphase => by cases hphase) ?_
    · obtain ⟨_, heq⟩ := hquiet _ hev
      cases heq
    · change st.scheduler.current ≤ (before.fire w e).scheduler.current
      rw [hscheduler, Scheduler.finish_current]
    · change f ∈ (before.fire w e).scheduler.queue at hf
      rw [hscheduler] at hf
      rcases Scheduler.requeued_of_mem_finish hf with hold | ⟨period, hp, hc, rfl⟩
      · exact Or.inl hold
      · have hspaced : e.Spaced := ho.firing_spaced rfl
        have hlt : st.scheduler.current + period < tickSpan := by
          refine fits (.requeued st.scheduler.current e.id period) ?_
          simp [Scheduler.requeueEvents, hp, hc]
        refine Or.inr ⟨hspaced, Or.inl ?_⟩
        change st.scheduler.current < (st.scheduler.current + period) % tickSpan
        rw [Nat.mod_eq_of_lt hlt]
        exact Nat.lt_add_of_pos_right (hspaced period hp)
    · have hnone : scheduledIds (st.scheduler.requeueEvents e) = [] := by
        unfold Scheduler.requeueEvents
        (repeat' split) <;> rfl
      rw [scheduledIds_append, ho.numbered, hnone, List.append_nil]
      change List.range st.scheduler.nextId = List.range (before.fire w e).scheduler.nextId
      rw [hscheduler, Scheduler.finish_nextId]
  | @rest st origin drained returned =>
    obtain ⟨-, htrail⟩ := hm.phase
    have heq : (origin.tick w).2 = st := htrail.tick_eq drained returned
    rw [heq]
    refine ho.of_quiet hm (fun tick e hev => by cases hev) (Nat.le_refl _)
      (fun f hf => Or.inl hf) (fun hphase => by cases hphase) ?_
    rw [List.append_nil]
    exact ho.numbered

/-- **The order is kept at every moment of a run.** -/
theorem Course.in_order {world : ω} (run : Course w (.start world) h m) (fits : Fits h) :
    m.InOrder h := by
  induction run with
  | refl => exact Moment.inOrder_start world
  | snoc run step ih =>
    obtain ⟨hfits, hlast⟩ := fits_append.mp fits
    exact step.in_order (run.sound (Moment.sound_start w world)) (ih hfits) hlast

/-! ### Tasks fire in order -/

/-- Two tasks that were given their numbers in order were scheduled in that order. -/
theorem Moment.InOrder.sublist_scheduledIds (ho : m.InOrder h) {i j : TaskId} (hij : i < j)
    (hj : j < m.scheduler.nextId) : [i, j].Sublist (scheduledIds h) := by
  rw [ho.numbered]
  have hsub : [i, j] ⊆ List.range m.scheduler.nextId := by
    intro id hid
    rw [List.mem_range]
    rcases List.mem_pair.mp hid with rfl | rfl
    · exact Nat.lt_trans hij hj
    · exact hj
  have hpair : [i, j].Pairwise (· < ·) := List.pairwise_pair.mpr hij
  exact List.sublist_of_subperm_of_pairwise
    (List.subperm_of_subset (hpair.imp Nat.ne_of_lt) hsub) hpair List.pairwise_lt_range

/-- **Tasks fire in order.**  Over a run in which no tick number passes the end of the
    counter, entries leave the queue in the order of the ticks that they are due at and
    then of their numbers, without exception.  So every task fires at later and later
    ticks, never twice within one, and of two entries that are due at the same tick the
    one whose task was scheduled first fires first. -/
theorem Course.fires_in_order {world : ω} (run : Course w (.start world) h m) (fits : Fits h) :
    (firedKeys h).Pairwise (· < ·) ∧
      (∀ id, (firedTicks id h).Pairwise (· < ·)) ∧
      ∀ due i j, [toLex (due, i), toLex (due, j)].Sublist (firedKeys h) →
        [i, j].Sublist (scheduledIds h) := by
  have ho := run.in_order fits
  have hm : m.Sound w h := run.sound (Moment.sound_start w world)
  refine ⟨ho.keys, ho.ticks, fun due i j hfired => ?_⟩
  have hlt : (toLex (due, i) : Nat ×ₗ TaskId) < toLex (due, j) :=
    List.pairwise_pair.mp (ho.keys.sublist hfired)
  have hij : i < j := by
    rcases Prod.Lex.toLex_lt_toLex.mp hlt with hdue | ⟨-, hij⟩
    · exact absurd hdue (Nat.lt_irrefl _)
    · exact hij
  obtain ⟨tick, e, hev, hkey⟩ := mem_firedKeys.mp (hfired.subset (List.mem_pair.mpr (Or.inr rfl)))
  have hid : e.id = j := congrArg (fun key => (ofLex key).2) hkey
  exact ho.sublist_scheduledIds hij (hid ▸ hm.fired_lt hev)

/-- The loud task, which was due at the tick before, fires ahead of the one that it
    schedules for the current one. -/
theorem fires_in_order_echo :
    ∃ st, Course echoing (.start ()) echo ⟨st, .between⟩ ∧ Fits echo ∧
      firedKeys echo = [toLex (0, 0), toLex (1, 1)] ∧ (firedKeys echo).Pairwise (· < ·) := by
  obtain ⟨st, run, -⟩ := course_echo
  exact ⟨st, run, fits_echo, rfl, (Course.fires_in_order run fits_echo).1⟩

end RuleEngine
