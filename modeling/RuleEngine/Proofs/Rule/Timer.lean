/-
  RuleEngine/Proofs/Rule/Timer.lean
  =================================
  **How often a timer triggers its actions.**

  A timer schedules a repeating task, which triggers its actions, and a second task,
  which cancels the first after the duration of the timer.  Both delays count from
  the tick at which the timer is triggered.  The first firing and the one at the end
  of the duration are both included, so one expects as many firings as the period
  fits into what the duration leaves after the delay, and one more.

  This is what happens if a task triggers the timer, or if it has a delay.  A timer
  without a delay that is triggered between two ticks starts one tick late, since the
  current tick is over, but it does not end any later: when the period divides the
  duration the last of the expected firings is lost (`Course.timer_fires`).
-/
import RuleEngine.Rule.Run
import RuleEngine.Proofs.Scheduler.Race

namespace RuleEngine

/-- The ticks from the start of a timer to its first firing. -/
def timerLead (caller? : Option TaskId) (delay : Nat) : Nat :=
  if caller?.isSome then delay else max delay 1

/-- How often a timer fires that the given task triggers, if one does. -/
def timerCount (caller? : Option TaskId) (delay period duration : Nat) : Nat :=
  if duration < delay then 0 else (duration - timerLead caller? delay) / period + 1

/-! ### Counting -/

section Counting

variable {caller? : Option TaskId} {now delay period duration : Nat}

theorem nth_timer (hperiod : 1 ≤ period) (k : Nat) :
    (Plan.of now caller? delay (some period)).nth k =
      now + timerLead caller? delay + k * period := by
  have hmax : max period 1 = period := Nat.max_eq_left hperiod
  simp only [Plan.nth, Plan.of, timerLead, Option.map_some, Option.getD_some, hmax]
  split <;> rfl

/-- The firings of a timer are those that are due within its duration. -/
theorem eq_timerCount (hperiod : 1 ≤ period) {count : Nat}
    (hlt : now + duration < (Plan.of now caller? delay (some period)).dueAt count)
    (hle : ∀ j < count, (Plan.of now caller? delay (some period)).dueAt j ≤ now + duration) :
    count = timerCount caller? delay period duration := by
  cases count with
  | zero =>
    have hshort : duration < delay := Nat.lt_of_add_lt_add_left hlt
    rw [timerCount, if_pos hshort]
  | succ j =>
    have hlong : now + delay ≤ now + duration := hle 0 (Nat.succ_pos j)
    have hend : now + duration < _ := hlt
    rw [Plan.dueAt, nth_timer hperiod] at hend
    have hlast : j = 0 ∨ timerLead caller? delay + j * period ≤ duration := by
      cases j with
      | zero => exact Or.inl rfl
      | succ i =>
        have hdue := hle (i + 1) (Nat.lt_succ_self _)
        rw [Plan.dueAt, nth_timer hperiod] at hdue
        exact Or.inr (by omega)
    rw [timerCount, if_neg (by omega)]
    congr 1
    refine (Nat.div_eq_of_lt_le ?_ ?_).symm
    · rcases hlast with rfl | hlast
      · simp
      · omega
    · rw [Nat.succ_mul] at hend ⊢
      omega

/-- The one case in which a timer fires less often than one expects. -/
theorem timerCount_eq_iff :
    timerCount caller? delay period duration =
        (if delay ≤ duration then (duration - delay) / period + 1 else 0) ↔
      ¬ (caller? = none ∧ delay = 0 ∧ 0 < duration ∧ period ∣ duration) := by
  unfold timerCount timerLead
  by_cases hshort : duration < delay
  · have hlate : ¬ delay ≤ duration := Nat.not_le.mpr hshort
    simp only [hshort, hlate, if_true, if_false, true_iff]
    omega
  have hlong : delay ≤ duration := Nat.not_lt.mp hshort
  simp only [hshort, hlong, if_true, if_false, Nat.add_right_cancel_iff]
  cases caller? with
  | some id => simp
  | none =>
    rcases Nat.eq_zero_or_pos delay with rfl | hdelay
    · cases duration with
      | zero => simp
      | succ n =>
        have hn : n + 1 - max 0 1 = n := rfl
        simp only [Option.isSome_none, Bool.false_eq_true, if_false, hn, Nat.sub_zero,
          Nat.succ_div, true_and, Nat.succ_pos]
        by_cases hdvd : period ∣ n + 1 <;> simp [hdvd]
    · have hmax : max delay 1 = delay := Nat.max_eq_left hdelay
      have hne : delay ≠ 0 := Nat.pos_iff_ne_zero.mp hdelay
      simp [hmax, hne]

end Counting

/-! ### Starting a timer -/

/-- What a timer does when it is triggered. -/
theorem ActionBody.run_timer (c : ContextId) (delay period duration : Nat) (mode : ExecMode)
    (actions : List Action) (st : EngineState) :
    (ActionBody.timer delay period duration mode actions).run c st = .ok ()
      { scheduler := st.scheduler.performAll
          [.scheduleRepeating delay period (.actions mode c actions),
            .schedule duration (.cancel st.scheduler.nextId)]
        world := st.world.report (.timerStarted st.scheduler.nextId period duration) } := by
  rw [ActionBody.run]
  rfl

section Start

variable {h₀ : List (Event Work)} {m : Moment Work World} {c : ContextId}
  {delay period duration : Nat} {mode : ExecMode} {actions : List Action}

/-- What is seen when a timer starts: it schedules two tasks. -/
theorem course_timer (acting : m.phase.Acting) {st : EngineState}
    (ran : (ActionBody.timer delay period duration mode actions).run c m.state = .ok () st) :
    let first := m.perform (.scheduleRepeating delay period (.actions mode c actions))
    Course workshop first [first.event (.schedule duration (.cancel m.scheduler.nextId))]
      ⟨st, m.phase⟩ ∧
    Course workshop (first.perform (.schedule duration (.cancel m.scheduler.nextId))) []
      ⟨st, m.phase⟩ := by
  rw [ActionBody.run_timer] at ran
  obtain rfl := (EStateM.Result.ok.inj ran).2
  intro first
  set call : Call Work := .schedule duration (.cancel m.scheduler.nextId)
  have called : Course workshop first [first.event call] (first.perform call) :=
    (Step.call (m := first) call acting).run
  have reported : Course workshop (first.perform call) [] _ :=
    (Step.change (m := first.perform call)
      (·.report (.timerStarted m.scheduler.nextId period duration)) acting).run
  exact ⟨called.trans reported, reported⟩

/-- The two tasks of a timer race against each other. -/
theorem race_timer (hm : m.Sound workshop h₀) (acting : m.phase.Acting) {st : EngineState}
    (ran : (ActionBody.timer delay period duration mode actions).run c m.state = .ok () st)
    (hdelay : m.now + delay < tickSpan) (hduration : m.now + duration < tickSpan) :
    Race workshop ⟨st, m.phase⟩ m.scheduler.nextId (m.scheduler.nextId + 1)
      (.of m.now m.phase.caller? delay (some period)) (.of m.now m.phase.caller? duration none)
      (.actions mode c actions) (.cancel m.scheduler.nextId) := by
  have hm₀ : m.Sound workshop [] := hm.forget
  obtain ⟨run, reported⟩ := course_timer acting ran
  set call : Call Work := .scheduleRepeating delay period (.actions mode c actions)
  set call' : Call Work := .schedule duration (.cancel m.scheduler.nextId)
  have hm₁ : (m.perform call).Sound workshop [m.event call] := (Step.call call acting).sound hm₀
  have hm₂ : ((m.perform call).perform call').Sound workshop
      ([m.event call] ++ [(m.perform call).event call']) :=
    (Step.call (m := m.perform call) call' acting).sound hm₁
  have htask : Follows [m.event call] (m.perform call) m.scheduler.nextId
      (.of m.now m.phase.caller? delay (some period)) (.actions mode c actions) :=
    Follows.scheduled hm₀ acting rfl hdelay
  have hstop : Follows ([m.event call] ++ [(m.perform call).event call'])
      ((m.perform call).perform call') (m.scheduler.nextId + 1)
      (.of m.now m.phase.caller? duration none) (.cancel m.scheduler.nextId) :=
    Follows.scheduled hm₁ acting rfl hduration
  have hfits : Fits [(m.perform call).event call'] := by
    intro event hev
    rw [List.mem_singleton.mp hev]
    exact hduration
  have hquiet : ∀ id, firedTicks id ([m.event call] ++ [(m.perform call).event call']) = [] := by
    intro id
    rfl
  have hkept : ∀ id, ¬ WasCancelled id ([m.event call] ++ [(m.perform call).event call']) := by
    rintro id ⟨now, caller?, hev⟩
    rcases List.mem_append.mp hev with hev | hev <;> cases List.mem_singleton.mp hev
  have hlt : m.scheduler.nextId < (m.perform call).scheduler.nextId := Nat.lt_succ_self _
  have hlt' : m.scheduler.nextId + 1 < ((m.perform call).perform call').scheduler.nextId :=
    Nat.lt_succ_self _
  refine ⟨(run.sound hm₁).forget, ?_, ?_, Nat.lt_succ_self _, ?_, ?_, rfl, fun st => rfl⟩
  · exact (htask.course hm₁ hlt run hfits).forget (hquiet _) (hkept _)
  · have hsame := hstop.course hm₂ hlt' reported (by simp [Fits])
    rw [List.append_nil] at hsame
    exact hsame.forget (hquiet _) (hkept _)
  · exact Nat.lt_of_lt_of_le hlt' (reported.nextId_le hm₂)
  · exact ⟨max period 1, rfl, Nat.lt_of_lt_of_le Nat.zero_lt_one (Nat.le_max_right _ _)⟩

end Start

/-- **How often a timer triggers its actions.**  A timer that is triggered at any moment
    at which rules run schedules a task for its actions and one that ends it.  As long
    as nothing else cancels them, and no tick number passes the end of the counter, then
    after the tick in which the duration ends the first of them has fired exactly at
    the ticks that begin after the lead, a period apart, `timerCount` times, and
    neither is queued.  This is the number of periods that fit between the delay and
    the duration, and one more, unless the timer was triggered between two ticks
    without a delay, and a period ends with the duration. -/
theorem Course.timer_fires {world : World} {h₀ : List (Event Work)} {m : Moment Work World}
    (reached : Course workshop (.start world) h₀ m) (acting : m.phase.Acting) (c : ContextId)
    (delay period duration : Nat) (mode : ExecMode) (actions : List Action)
    (hperiod : 1 ≤ period) :
    ∃ st, (ActionBody.timer delay period duration mode actions).run c m.state = .ok () st ∧
      ∀ h m', Course workshop ⟨st, m.phase⟩ h m' → Fits h → m.now + delay < tickSpan →
        m.now + duration < tickSpan →
        Undisturbed m.scheduler.nextId (m.scheduler.nextId + 1) h →
        m.now + max duration 1 < m'.horizon →
          firedTicks m.scheduler.nextId h =
              (List.range (timerCount m.phase.caller? delay period duration)).map
                (fun k => m.now + timerLead m.phase.caller? delay + k * period) ∧
            (∀ now e, .fired now e ∈ h → e.id = m.scheduler.nextId →
              e.task = .actions mode c actions) ∧
            m'.scheduler.isScheduled m.scheduler.nextId = false ∧
            m'.scheduler.isScheduled (m.scheduler.nextId + 1) = false ∧
            ((firedTicks m.scheduler.nextId h).length =
                (if delay ≤ duration then (duration - delay) / period + 1 else 0) ↔
              ¬ (m.phase.caller? = none ∧ delay = 0 ∧ 0 < duration ∧ period ∣ duration)) := by
  refine ⟨_, ActionBody.run_timer c delay period duration mode actions m.state, ?_⟩
  intro h m' run fits hdelay hduration alone hover
  have hm : m.Sound workshop h₀ := reached.sound (Moment.sound_start workshop world)
  have race := race_timer hm acting
    (ActionBody.run_timer c delay period duration mode actions m.state)
    hdelay hduration
  have hfirst : (Plan.of m.now m.phase.caller? duration none).first < m'.horizon :=
    Nat.lt_of_le_of_lt (Plan.first_of_le ..) hover
  obtain ⟨hlt, hle, hgone, hgone'⟩ := race.settled run fits alone hfirst
  have hcount := eq_timerCount hperiod hlt hle
  have hgiven : m.scheduler.nextId < _ := Nat.lt_trans race.first race.given
  have hfollows : Follows h m' m.scheduler.nextId _ _ :=
    race.follows.course race.sound hgiven run fits
  refine ⟨?_, hfollows.tasks, ?_, ?_, ?_⟩
  · rw [hfollows.ticks, hcount]
    exact List.map_congr_left fun k _ => nth_timer hperiod k
  · exact Scheduler.isScheduled_eq_false.mpr hgone.absent
  · exact Scheduler.isScheduled_eq_false.mpr hgone'.absent
  · rw [hcount]
    exact timerCount_eq_iff

/-- What is seen after a timer was started between two ticks, without a delay, to fire at
    every tick for two ticks. -/
def shortTimer : List (Event Work) :=
  [.ticked 1, .fired 1 ⟨0, 0, some 1, .actions .sync 0 []⟩, .requeued 1 0 1,
    .ticked 2, .fired 2 ⟨2, 0, some 1, .actions .sync 0 []⟩, .requeued 2 0 1,
    .fired 2 ⟨2, 1, none, .cancel 0⟩, .cancelled 2 (some 1) 0 true]

theorem course_shortTimer (world : World) :
    ∃ m', Course workshop ⟨⟨Scheduler.performAll {}
      [.scheduleRepeating 0 1 (.actions .sync 0 []), .schedule 2 (.cancel 0)], world⟩, .between⟩
        shortTimer m' ∧ m'.horizon = 3 := by
  have begun : Course workshop _ _ _ := (Step.tick ⟨Scheduler.performAll {}
    [.scheduleRepeating 0 1 (.actions .sync 0 []), .schedule 2 (.cancel 0)], world⟩).run
  have once : Course workshop _ _ _ := (begun.snoc (.fire rfl)).snoc (.finish rfl)
  have twice : Course workshop _ _ _ :=
    ((once.snoc (.rest rfl rfl)).snoc (.tick _)).snoc (.fire rfl)
  have stopping : Course workshop _ _ _ := (twice.snoc (.finish rfl)).snoc (.fire rfl)
  have stopped : Course workshop _ _ _ :=
    (stopping.snoc (.call (.cancel 0) trivial)).snoc (.finish rfl)
  have returned : Course workshop _ _ _ := stopped.snoc (.rest rfl rfl)
  exact ⟨_, returned, rfl⟩

theorem fits_shortTimer : Fits shortTimer := by
  intro ev hev
  simp only [shortTimer, List.mem_cons, List.not_mem_nil, or_false] at hev
  rcases hev with rfl | rfl | rfl | rfl | rfl | rfl | rfl | rfl <;> decide

theorem undisturbed_shortTimer : Undisturbed 0 1 shortTimer := by
  intro now caller? other hev _
  simp only [shortTimer, List.mem_cons, List.not_mem_nil, or_false, reduceCtorEq, false_or,
    Event.cancelled.injEq] at hev
  exact hev.2.1

/-- Such a timer fires twice, and not three times. -/
theorem timer_fires_shortTimer :
    ∃ (st : EngineState) (m' : Moment Work World),
      (ActionBody.timer 0 1 2 .sync []).run 0 (Moment.start {} : Moment Work World).state =
        .ok () st ∧
        Course workshop ⟨st, .between⟩ shortTimer m' ∧ Fits shortTimer ∧
        Undisturbed 0 1 shortTimer ∧ 2 < m'.horizon ∧ firedTicks 0 shortTimer = [1, 2] ∧
        (firedTicks 0 shortTimer).length ≠ (2 - 0) / 1 + 1 := by
  have reached : Course workshop (.start {}) [] (.start {}) := .refl
  obtain ⟨st, ran, hfires⟩ :=
    Course.timer_fires reached trivial 0 0 1 2 .sync [] (Nat.le_refl 1)
  obtain ⟨m', run, hhorizon⟩ := course_shortTimer st.world
  have hst : st.scheduler = Scheduler.performAll {}
      [.scheduleRepeating 0 1 (.actions .sync 0 []), .schedule 2 (.cancel 0)] := by
    rw [ActionBody.run_timer] at ran
    rw [← (EStateM.Result.ok.inj ran).2]
    rfl
  rw [← hst] at run
  have hover : 2 < m'.horizon := by
    rw [hhorizon]
    decide
  obtain ⟨hticks, -, -, -, hiff⟩ := hfires shortTimer m' run fits_shortTimer (by decide) (by decide)
    undisturbed_shortTimer hover
  refine ⟨st, m', ran, run, fits_shortTimer, undisturbed_shortTimer, hover, hticks, ?_⟩
  intro hlength
  exact hiff.mp hlength ⟨rfl, rfl, by decide, by decide⟩

end RuleEngine
