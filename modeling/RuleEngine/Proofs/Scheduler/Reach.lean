/-
  RuleEngine/Proofs/Scheduler/Reach.lean
  ======================================
  **How far ahead the queue reaches.**

  Every tick number that a scheduler computes is the current tick plus a delay or a period.
  If all delays and periods that were ever asked for are below a limit, and the current tick
  is, too, then no such sum gets to twice the limit, and no task is queued further ahead than
  the limit.  The periods are the part that takes a whole run: a repeating task is queued
  again with the period that it was first scheduled with, so the invariant
  (`Moment.Within`) keeps the periods of what is queued and of what is firing.
-/
import RuleEngine.Proofs.Scheduler.Load

namespace RuleEngine

variable {τ ω : Type}

/-! ### Calls below a limit -/

def Event.call? : Event τ → Option (Call τ)
  | scheduled _ _ _ delay none task => some (.schedule delay task)
  | scheduled _ _ _ delay (some period) task => some (.scheduleRepeating delay period task)
  | cancelled _ _ id _ => some (.cancel id)
  | _ => none

@[simp] theorem Moment.call?_event (m : Moment τ ω) (c : Call τ) : (m.event c).call? = some c := by
  cases c <;> rfl

/-- The numbers of ticks that a call asks for are below a limit. -/
def Call.Below (limit : Nat) : Call τ → Prop
  | schedule delay _ => delay < limit
  | scheduleRepeating initial period _ => initial < limit ∧ max period 1 < limit
  | cancel _ => True

/-- An event is no call that asks for too many ticks, and it is no tick at the limit. -/
def Event.Below (limit : Nat) (event : Event τ) : Prop :=
  (∀ c, event.call? = some c → c.Below limit) ∧ ∀ now, event = .ticked now → now < limit

def PeriodBelow (limit : Nat) (period? : Option Nat) : Prop :=
  ∀ period, period? = some period → period < limit

def Event.isScheduled : Event τ → Bool
  | scheduled .. => true
  | _ => false

/-! ### The invariant -/

/-- The current tick is below a limit, no entry is due further ahead, and no period of what is
    queued or firing is greater. -/
structure Moment.Within (limit : Nat) (m : Moment τ ω) : Prop where
  now : m.now < limit
  due : ∀ e ∈ m.scheduler.queue, e.due < m.now + limit
  queued : m.scheduler.Holds fun period? _ => PeriodBelow limit period?
  firing : ∀ origin before e, m.phase = .firing origin before e → PeriodBelow limit e.period?

theorem Moment.within_start {limit : Nat} (hlimit : 0 < limit) (world : ω) :
    (Moment.start world : Moment τ ω).Within limit where
  now := hlimit
  due := fun _ he => absurd he List.not_mem_nil
  queued := fun _ he => absurd he List.not_mem_nil
  firing := by
    intro origin before e hphase
    cases hphase

theorem Scheduler.of_mem_requeueEvents {s : Scheduler τ} {e : QueueEntry τ} {event : Event τ}
    (h : event ∈ s.requeueEvents e) :
    ∃ period, e.period? = some period ∧ event = .requeued s.current e.id period := by
  unfold requeueEvents at h
  split at h
  · rename_i period hperiod
    split at h
    · cases h
    · exact ⟨period, hperiod, List.mem_singleton.mp h⟩
  · cases h

theorem Call.Below.holds {limit : Nat} {c : Call τ} (h : c.Below limit) :
    c.Holds fun period? _ => PeriodBelow limit period? := by
  cases c with
  | schedule delay task =>
    rintro period ⟨⟩
  | scheduleRepeating initial period task =>
    rintro _ ⟨⟩
    exact h.2
  | cancel id => trivial

section Steps

variable {w : Workshop τ ω} {limit : Nat} {h : List (Event τ)} {m m' : Moment τ ω}
  {events : List (Event τ)}

theorem Moment.Within.due_add (hm : m.Within limit) {delay : Nat} (hdelay : delay < limit)
    (period? : Option Nat) (task : τ) :
    ∀ e ∈ (m.scheduler.add delay period? task).2.queue, e.due < m.now + limit := by
  intro e he
  rcases (Scheduler.mem_add_queue m.scheduler delay period? task).mp he with rfl | he
  · have hle := Nat.mod_le (m.now + delay) tickSpan
    exact Nat.lt_of_le_of_lt hle (Nat.add_lt_add_left hdelay m.now)
  · exact hm.due e he

/-- A call within the limit leaves a moment within it. -/
theorem Moment.Within.perform (hm : m.Within limit) {c : Call τ} (below : c.Below limit) :
    (m.perform c).Within limit := by
  have hnow : (m.perform c).now = m.now := Scheduler.perform_current m.scheduler c
  refine ⟨hnow ▸ hm.now, ?_, hm.queued.perform below.holds, hm.firing⟩
  rw [hnow]
  cases c with
  | schedule delay task => exact hm.due_add below none task
  | scheduleRepeating initial period task => exact hm.due_add below.1 _ task
  | cancel id => exact fun e he => hm.due e (Scheduler.cancel_queue_sublist.subset he)

/-- What one step computes is below twice the limit. -/
theorem Step.fits (hm : m.Within limit) (hlimit : 2 * limit ≤ tickSpan)
    (step : Step w m events m') (below : ∀ event ∈ events, event.Below limit) : Fits events := by
  have hnow := hm.now
  have hsum : ∀ n < limit, m.now + n < tickSpan := by
    intro n hn
    omega
  intro event hev
  have hbelow := below event hev
  cases step with
  | call c acting =>
    obtain rfl := List.mem_singleton.mp hev
    have hc := hbelow.1 c (m.call?_event c)
    cases c with
    | schedule delay task => exact hsum delay hc
    | scheduleRepeating initial period task => exact hsum initial hc.1
    | cancel id => exact hsum 0 (Nat.zero_lt_of_lt hnow)
  | change f acting => cases hev
  | tick st =>
    obtain rfl := List.mem_singleton.mp hev
    have hlt := hbelow.2 _ rfl
    change st.scheduler.current + 1 < tickSpan
    omega
  | fire due =>
    obtain rfl := List.mem_singleton.mp hev
    exact hsum 0 (Nat.zero_lt_of_lt hnow)
  | finish done =>
    obtain ⟨period, hperiod, rfl⟩ := Scheduler.of_mem_requeueEvents hev
    exact hsum period (hm.firing _ _ _ rfl period hperiod)
  | rest drained returned => cases hev

/-- One step stays within the limit. -/
theorem Step.within (sound : m.Sound w h) (hm : m.Within limit) (hlimit : 2 * limit ≤ tickSpan)
    (step : Step w m events m') (below : ∀ event ∈ events, event.Below limit) :
    m'.Within limit := by
  cases step with
  | call c acting =>
    exact hm.perform ((below _ (List.mem_singleton.mpr rfl)).1 c (m.call?_event c))
  | change f acting => exact ⟨hm.now, hm.due, hm.queued, hm.firing⟩
  | tick st =>
    have hlt := (below _ (List.mem_singleton.mpr rfl)).2 _ rfl
    have hnow : (st.scheduler.current + 1) % tickSpan = st.scheduler.current + 1 :=
      Nat.mod_eq_of_lt (by omega)
    refine ⟨?_, fun e he => ?_, hm.queued, nofun⟩
    · change (st.scheduler.current + 1) % tickSpan < limit
      rwa [hnow]
    · have hdue : e.due < st.scheduler.current + limit := hm.due e he
      change e.due < (st.scheduler.current + 1) % tickSpan + limit
      rw [hnow]
      omega
  | @fire st origin e due =>
    refine ⟨hm.now, fun f hf => hm.due f (List.mem_of_mem_tail hf), hm.queued.start e, ?_⟩
    rintro _ _ _ ⟨⟩
    exact hm.queued e (Scheduler.mem_of_nextDue? due)
  | @finish st origin before e done =>
    have hscheduler : (before.fire w e).scheduler = st.scheduler.finish e :=
      Scheduled.fire_of_done done
    have hnow : (before.fire w e).scheduler.current = st.scheduler.current := by
      rw [hscheduler, Scheduler.finish_current]
    have hperiod := hm.firing origin before e rfl
    refine ⟨?_, ?_, ?_, nofun⟩
    · change (before.fire w e).scheduler.current < limit
      rw [hnow]
      exact hm.now
    · change ∀ f ∈ (before.fire w e).scheduler.queue,
        f.due < (before.fire w e).scheduler.current + limit
      rw [hnow, hscheduler]
      intro f hf
      rcases Scheduler.requeued_of_mem_finish hf with hf | ⟨period, hp, -, rfl⟩
      · exact hm.due f hf
      · -- it is due a period later, with the period that it had when it was queued first
        have hle := Nat.mod_le (st.scheduler.current + period) tickSpan
        exact Nat.lt_of_le_of_lt hle (Nat.add_lt_add_left (hperiod period hp) _)
    · change (before.fire w e).scheduler.Holds _
      rw [hscheduler]
      exact hm.queued.finish hperiod
  | @rest st origin drained returned =>
    obtain ⟨-, htrail⟩ := sound.phase
    have heq := htrail.tick_eq drained returned
    rw [heq]
    exact ⟨hm.now, hm.due, hm.queued, nofun⟩

end Steps

/-- **A run stays within the limit** of what its calls ask for: no number that it computes is
    twice as great, and no entry is due further ahead. -/
theorem Course.within {w : Workshop τ ω} {limit : Nat} {world : ω} {h : List (Event τ)}
    {m : Moment τ ω} (run : Course w (.start world) h m) (positive : 0 < limit)
    (hlimit : 2 * limit ≤ tickSpan) (below : ∀ event ∈ h, event.Below limit) :
    m.Within limit ∧ Fits h := by
  induction run with
  | refl => exact ⟨Moment.within_start positive world, fun event hev => absurd hev List.not_mem_nil⟩
  | @snoc h events m m' run step ih =>
    obtain ⟨hm, hfits⟩ := ih fun event hev => below event (List.mem_append_left _ hev)
    have hlast : ∀ event ∈ events, event.Below limit := fun event hev =>
      below event (List.mem_append_right _ hev)
    have sound : m.Sound w h := run.sound (Moment.sound_start w world)
    exact ⟨step.within sound hm hlimit hlast, fits_append.mpr ⟨hfits, step.fits hm hlimit hlast⟩⟩

/-! ### The numbers of tasks -/

/-- The next number is the count of what was scheduled. -/
theorem Step.nextId_eq {w : Workshop τ ω} {h : List (Event τ)} {m m' : Moment τ ω}
    {events : List (Event τ)} (sound : m.Sound w h) (step : Step w m events m') :
    m'.scheduler.nextId = m.scheduler.nextId + events.countP Event.isScheduled := by
  cases step with
  | call c acting =>
    cases c with
    | cancel id => exact Scheduler.cancel_nextId ..
    | _ => rfl
  | change f acting => rfl
  | tick st => rfl
  | fire due => rfl
  | @finish st origin before e done =>
    have hnextId : (before.fire w e).scheduler.nextId = st.scheduler.nextId := by
      rw [Scheduled.fire_of_done done, Scheduler.finish_nextId]
    have hcount : (st.scheduler.requeueEvents e).countP Event.isScheduled = 0 := by
      rw [List.countP_eq_zero]
      intro event hev
      obtain ⟨period, -, rfl⟩ := Scheduler.of_mem_requeueEvents hev
      exact Bool.false_ne_true
    rw [hcount]
    exact hnextId
  | @rest st origin drained returned =>
    obtain ⟨-, htrail⟩ := sound.phase
    have heq := htrail.tick_eq drained returned
    rw [heq]
    rfl

/-- As many numbers are given away as tasks are scheduled. -/
theorem Course.nextId_eq {w : Workshop τ ω} {world : ω} {h : List (Event τ)} {m : Moment τ ω}
    (run : Course w (.start world) h m) : m.scheduler.nextId = h.countP Event.isScheduled := by
  induction run with
  | refl => rfl
  | @snoc h events m m' run step ih =>
    rw [step.nextId_eq (run.sound (Moment.sound_start w world)), ih, List.countP_append]

end RuleEngine
