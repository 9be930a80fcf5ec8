/-
  RuleEngine/Proofs/Scheduler/Invariant.lean
  ==========================================
  **What holds at every moment of a run.**

  `Moment.Sound` gathers what every moment satisfies, those inside of a tick
  included: the queue is in order, the scheduler knows which repeating task is
  firing, a task that fires is not queued, every number that was seen is given away,
  and a tick under way is on the trail of the loop that `Scheduled.tick` runs.
  `Step.sound` shows that one step keeps it, and `Course.sound` that a run does.
-/
import RuleEngine.Proofs.Scheduler.Moment

namespace RuleEngine

variable {τ ω : Type}

/-! ### What calls keep -/

namespace Scheduler

variable (s : Scheduler τ)

@[simp] theorem perform_current (c : Call τ) : (s.perform c).current = s.current := by
  cases c <;> simp [perform, schedule, scheduleRepeating]

theorem nextId_le_perform (c : Call τ) : s.nextId ≤ (s.perform c).nextId := by
  cases c <;> simp [perform, schedule, scheduleRepeating]

@[simp] theorem perform_running (c : Call τ) : (s.perform c).running = s.running := by
  cases c <;> simp [perform, schedule, scheduleRepeating]

variable {s}

theorem mem_cancelled_perform {c : Call τ} {id : TaskId} (hid : id ∈ s.cancelled) :
    id ∈ (s.perform c).cancelled := by
  cases c with
  | schedule delay task => exact hid
  | scheduleRepeating initial period task => exact hid
  | cancel other => exact mem_cancel_cancelled.mpr (Or.inl hid)

theorem id_of_mem_perform {c : Call τ} {e : QueueEntry τ} (he : e ∈ (s.perform c).queue) :
    e ∈ s.queue ∨ e.id = s.nextId := by
  cases c with
  | schedule delay task =>
    rcases (mem_add_queue s delay none task).mp he with rfl | he
    · exact Or.inr rfl
    · exact Or.inl he
  | scheduleRepeating initial period task =>
    rcases (mem_add_queue s initial _ task).mp he with rfl | he
    · exact Or.inr rfl
    · exact Or.inl he
  | cancel id => exact Or.inl (cancel_queue_sublist.subset he)

theorem Sound.perform (hs : s.Sound) (c : Call τ) : (s.perform c).Sound := by
  cases c with
  | schedule delay task => exact hs.add delay none task
  | scheduleRepeating initial period task => exact hs.add initial _ task
  | cancel id => exact hs.cancel id

end Scheduler

/-! ### The invariant -/

/-- What is known of the scheduler in a phase: a task that fires has left the queue,
    and is the only one that is running if it repeats.  No other task ever is. -/
def Phase.Known (w : Workshop τ ω) (st : Scheduled τ ω) : Phase τ ω → Prop
  | .between => st.scheduler.running = []
  | .ticking origin => st.scheduler.running = [] ∧ Scheduled.Trail w origin st
  | .firing origin before e =>
    Scheduled.Trail w origin before ∧ before.scheduler.nextDue? = some e ∧
      st.scheduler.running = (if e.period?.isSome then [e.id] else []) ∧
      e.id < st.scheduler.nextId ∧ ∀ f ∈ st.scheduler.queue, f.id ≠ e.id

/-- What every moment satisfies, given what was seen before. -/
structure Moment.Sound (w : Workshop τ ω) (h : List (Event τ)) (m : Moment τ ω) : Prop where
  queue : m.scheduler.Sound
  phase : m.phase.Known w m.state
  fired_lt : ∀ {now e}, Event.fired now e ∈ h → e.id < m.scheduler.nextId
  scheduled_lt : ∀ {now caller? id delay period? task},
    Event.scheduled now caller? id delay period? task ∈ h → id < m.scheduler.nextId

/-- A new scheduler is sound. -/
theorem Moment.sound_start (w : Workshop τ ω) (world : ω) :
    (Moment.start world : Moment τ ω).Sound w [] where
  queue := Scheduler.sound_empty
  phase := rfl
  fired_lt := by simp
  scheduled_lt := by simp

theorem Moment.Sound.forget {w : Workshop τ ω} {h : List (Event τ)} {m : Moment τ ω}
    (hm : m.Sound w h) : m.Sound w [] where
  queue := hm.queue
  phase := hm.phase
  fired_lt := by simp
  scheduled_lt := by simp

/-- A call that whoever acts makes leaves what is known of the moment. -/
theorem Phase.Known.perform {w : Workshop τ ω} {m : Moment τ ω} (hm : m.phase.Known w m.state)
    (acting : m.phase.Acting) (c : Call τ) :
    (m.perform c).phase.Known w (m.perform c).state := by
  have hrunning := Scheduler.perform_running m.state.scheduler c
  rcases m with ⟨st, phase⟩
  cases phase with
  | between => exact hrunning.trans hm
  | ticking origin => exact acting.elim
  | firing origin before e =>
    obtain ⟨htrail, hnext, hid, hlt, hfree⟩ := hm
    refine ⟨htrail, hnext, hrunning.trans hid, ?_, ?_⟩
    · exact Nat.lt_of_lt_of_le hlt (Scheduler.nextId_le_perform _ c)
    · intro f hf
      rcases Scheduler.id_of_mem_perform hf with hf | hf
      · exact hfree f hf
      · rw [hf]
        exact (Nat.ne_of_lt hlt).symm

/-- A call that schedules adds a task under the next number, with a period of a tick at least. -/
theorem Moment.event_scheduled {m : Moment τ ω} {c : Call τ} {now id delay : Nat}
    {caller? : Option TaskId} {period? : Option Nat} {task : τ}
    (hev : Event.scheduled now caller? id delay period? task = m.event c) :
    now = m.now ∧ caller? = m.phase.caller? ∧ id = m.scheduler.nextId ∧
      m.scheduler.perform c =
        (m.scheduler.add delay (period?.map fun period => max period 1) task).2 := by
  cases c with
  | schedule delay' task' =>
    simp only [event, Event.scheduled.injEq] at hev
    obtain ⟨rfl, rfl, rfl, rfl, rfl, rfl⟩ := hev
    exact ⟨rfl, rfl, rfl, rfl⟩
  | scheduleRepeating initial period task' =>
    simp only [event, Event.scheduled.injEq] at hev
    obtain ⟨rfl, rfl, rfl, rfl, rfl, rfl⟩ := hev
    exact ⟨rfl, rfl, rfl, rfl⟩
  | cancel id' => simp [event] at hev

theorem Moment.event_ne_fired {m : Moment τ ω} {c : Call τ} {now : Nat} {e : QueueEntry τ} :
    Event.fired now e ≠ m.event c := by
  cases c <;> simp [event]

/-- A task that acts is not queued. -/
theorem Moment.Sound.idle_of_mem {w : Workshop τ ω} {h : List (Event τ)} {m : Moment τ ω}
    (hm : m.Sound w h) {e : QueueEntry τ} (he : e ∈ m.scheduler.queue) :
    m.phase.caller? ≠ some e.id := by
  have hknown := hm.phase
  intro hcaller
  cases hphase : m.phase with
  | between => simp [hphase, Phase.caller?] at hcaller
  | ticking origin => simp [hphase, Phase.caller?] at hcaller
  | firing origin before f =>
    rw [hphase] at hknown hcaller
    exact hknown.2.2.2.2 e he (Option.some.inj hcaller).symm

/-! ### One step keeps it -/

section Steps

variable {w : Workshop τ ω} {h : List (Event τ)} {m m' : Moment τ ω} {events : List (Event τ)}

/-- Numbers of tasks are given in order. -/
theorem Step.nextId_le (hm : m.Sound w h) (step : Step w m events m') :
    m.scheduler.nextId ≤ m'.scheduler.nextId := by
  cases step with
  | call c acting => exact Scheduler.nextId_le_perform _ c
  | change f acting => exact Nat.le_refl _
  | tick st => exact Nat.le_refl _
  | fire due => exact Nat.le_refl _
  | @finish st origin before e done =>
    have hnextId : (before.fire w e).scheduler.nextId = st.scheduler.nextId := by
      rw [Scheduled.fire_of_done done, Scheduler.finish_nextId]
    exact Nat.le_of_eq hnextId.symm
  | @rest st origin drained returned =>
    obtain ⟨-, htrail⟩ := hm.phase
    have heq := htrail.tick_eq drained returned
    rw [heq]
    exact Nat.le_refl _

theorem Step.sound_queue (hm : m.Sound w h) (step : Step w m events m') : m'.scheduler.Sound := by
  have hs := hm.queue
  cases step with
  | call c acting => exact hs.perform c
  | change f acting => exact hs
  | tick st => exact { hs with }
  | fire due => exact hs.start due
  | @finish st origin before e done =>
    obtain ⟨-, -, -, hlt, hfree⟩ := hm.phase
    change (before.fire w e).scheduler.Sound
    rw [Scheduled.fire_of_done done]
    exact hs.finish hlt hfree
  | @rest st origin drained returned =>
    obtain ⟨-, htrail⟩ := hm.phase
    have heq := htrail.tick_eq drained returned
    rw [heq]
    exact hs

theorem Step.phase_known (hm : m.Sound w h) (step : Step w m events m') :
    m'.phase.Known w m'.state := by
  have hs := hm.queue
  cases step with
  | call c acting => exact hm.phase.perform acting c
  | @change m f acting =>
    have hphase := hm.phase
    rcases m with ⟨st, phase⟩
    cases phase with
    | between => exact hphase
    | ticking origin => exact acting.elim
    | firing origin before e => exact hphase
  | tick st => exact ⟨hm.phase, Scheduled.trail_begun st⟩
  | @fire st origin e due =>
    obtain ⟨hidle, htrail⟩ := hm.phase
    have hmem : e ∈ st.scheduler.queue := Scheduler.mem_of_nextDue? due
    refine ⟨htrail, due, Scheduler.start_running_of_idle hidle e, hs.ids_lt e hmem, ?_⟩
    · intro f hf
      exact ((hs.mem_start_queue due).mp hf).2
  | @finish st origin before e done =>
    obtain ⟨htrail, hnext, hid, -, -⟩ := hm.phase
    refine ⟨?_, htrail.fire hnext⟩
    change (before.fire w e).scheduler.running = []
    rw [Scheduled.fire_of_done done, Scheduler.finish_running, hid]
    cases e.period? <;> simp [Scheduler.withoutTask]
  | @rest st origin drained returned =>
    obtain ⟨hnone, htrail⟩ := hm.phase
    have heq := htrail.tick_eq drained returned
    rw [heq]
    exact hnone

theorem Step.shown_lt (hm : m.Sound w h) (step : Step w m events m') :
    (∀ now e, Event.fired now e ∈ events → e.id < m'.scheduler.nextId) ∧
      ∀ now caller? id delay period? task,
        Event.scheduled now caller? id delay period? task ∈ events → id < m'.scheduler.nextId := by
  cases step with
  | call c acting =>
    refine ⟨fun now e hev => ?_, fun now caller? id delay period? task hev => ?_⟩
    · exact absurd (List.mem_singleton.mp hev) Moment.event_ne_fired
    · obtain ⟨-, -, rfl, hperform⟩ := Moment.event_scheduled (List.mem_singleton.mp hev)
      change _ < (m.scheduler.perform c).nextId
      rw [hperform, Scheduler.add_nextId]
      exact Nat.lt_succ_self _
  | change f acting => simp
  | tick st => simp
  | @fire st origin e due =>
    have hmem : e ∈ st.scheduler.queue := Scheduler.mem_of_nextDue? due
    refine ⟨fun now f hev => ?_, by simp⟩
    obtain ⟨-, rfl⟩ := Event.fired.inj (List.mem_singleton.mp hev)
    exact hm.queue.ids_lt f hmem
  | finish done =>
    refine ⟨fun now e hev => ?_, fun now caller? id delay period? task hev => ?_⟩ <;>
      obtain ⟨_, heq⟩ := Scheduler.eq_of_mem_requeueEvents hev <;> cases heq
  | rest drained returned => simp

theorem Step.sound (hm : m.Sound w h) (step : Step w m events m') : m'.Sound w (h ++ events) := by
  obtain ⟨hfired, hscheduled⟩ := step.shown_lt hm
  have hle := step.nextId_le hm
  refine ⟨step.sound_queue hm, step.phase_known hm, fun {now e} hev => ?_,
    fun {now caller? id delay period? task} hev => ?_⟩
  · rcases List.mem_append.mp hev with hev | hev
    · exact Nat.lt_of_lt_of_le (hm.fired_lt hev) hle
    · exact hfired now e hev
  · rcases List.mem_append.mp hev with hev | hev
    · exact Nat.lt_of_lt_of_le (hm.scheduled_lt hev) hle
    · exact hscheduled now caller? id delay period? task hev

end Steps

/-- **The invariant holds at every moment of a run.** -/
theorem Course.sound {w : Workshop τ ω} {h k : List (Event τ)} {m m' : Moment τ ω}
    (hm : m.Sound w h) (run : Course w m k m') : m'.Sound w (h ++ k) := by
  induction run with
  | refl => rw [List.append_nil]; exact hm
  | snoc _ step ih => rw [← List.append_assoc]; exact step.sound ih

theorem Course.nextId_le {w : Workshop τ ω} {h k : List (Event τ)} {m m' : Moment τ ω}
    (hm : m.Sound w h) (run : Course w m k m') : m.scheduler.nextId ≤ m'.scheduler.nextId := by
  induction run with
  | refl => exact Nat.le_refl _
  | snoc run step ih => exact Nat.le_trans ih (step.nextId_le (run.sound hm))

end RuleEngine
