/-
  RuleEngine/Proofs/Scheduler/Standing.lean
  =========================================
  **How a task stands.**

  At every moment after a task was scheduled it waits in the queue for its next turn,
  or it is firing, or it is over (`Standing`).  An entry waits for the tick that it is
  due at, except that one which became due between two ticks waits for the tick
  after it (`Moment.Awaits`).

  `Follows` adds what was seen of the task up to the moment: it fired at the first
  turns of its plan, one firing each.  There is one lemma for every kind of step and
  every part that a task can have in it; `Follows.step` puts them together.
-/
import RuleEngine.Proofs.Scheduler.Invariant
import RuleEngine.Proofs.Scheduler.Plan

namespace RuleEngine

variable {τ ω : Type}

/-! ### How a task stands -/

/-- An entry waits for the turn of its next firing.  It is due at that tick, unless the
    tick that it is due at is over already: then its turn comes one tick later. -/
def Moment.Awaits (m : Moment τ ω) (e : QueueEntry τ) (plan : Plan) (k : Nat) : Prop :=
  m.horizon ≤ plan.nth k ∧ e.due = plan.dueAt k ∧
    (e.due = plan.nth k ∨ e.due + 1 = plan.nth k ∧ plan.nth k = m.horizon)

/-- How a task that fired `k` times stands at a moment. -/
inductive Standing (h : List (Event τ)) (m : Moment τ ω) (id : TaskId) (plan : Plan) (task : τ)
    (k : Nat) : Prop where
  /-- It waits for its next turn. -/
  | waiting (e : QueueEntry τ) (queued : e ∈ m.scheduler.queue) (id_eq : e.id = id)
      (period_eq : e.period? = plan.period?) (task_eq : e.task = task)
      (awaits : m.Awaits e plan k) (once : plan.period? = none → k = 0)
  /-- It is firing, and was not cancelled unbeknown to the scheduler. -/
  | firing (j : Nat) (origin before : Scheduled τ ω) (e : QueueEntry τ)
      (phase_eq : m.phase = .firing origin before e) (id_eq : e.id = id)
      (period_eq : e.period? = plan.period?) (task_eq : e.task = task) (count : k = j + 1)
      (turn : m.now = plan.nth j) (once : plan.period? = none → j = 0)
      (marked : id ∈ m.scheduler.cancelled → WasCancelled id h)
  /-- It is over: it was cancelled, or it was to fire once and did. -/
  | ended (absent : ∀ e ∈ m.scheduler.queue, e.id ≠ id) (idle : m.phase.caller? ≠ some id)
      (reason : WasCancelled id h ∨ plan.period? = none ∧ k = 1)
      (once : plan.period? = none → k ≤ 1)

/-- A task fired as planned so far, and goes on with its plan. -/
structure Follows (h : List (Event τ)) (m : Moment τ ω) (id : TaskId) (plan : Plan) (task : τ) :
    Prop where
  ticks : firedTicks id h = (List.range (firedTicks id h).length).map plan.nth
  tasks : ∀ now e, Event.fired now e ∈ h → e.id = id → e.task = task
  standing : Standing h m id plan task (firedTicks id h).length

/-! ### Other events keep how a task stands -/

section Keep

variable {w : Workshop τ ω} {h : List (Event τ)} {m : Moment τ ω} {id : TaskId} {plan : Plan}
  {task : τ} {k : Nat}

/-- Nothing but the standing is to be shown for steps in which the task does not fire. -/
theorem Follows.of_quiet (hf : Follows h m id plan task) {events : List (Event τ)}
    {m' : Moment τ ω} (hquiet : ∀ now e, Event.fired now e ∈ events → e.id ≠ id)
    (standing : Standing (h ++ events) m' id plan task (firedTicks id h).length) :
    Follows (h ++ events) m' id plan task := by
  have hsame : firedTicks id (h ++ events) = firedTicks id h := by
    rw [firedTicks_append, firedTicks_eq_nil hquiet, List.append_nil]
  refine ⟨hsame ▸ hf.ticks, fun now e hev hid => ?_, hsame ▸ standing⟩
  rcases List.mem_append.mp hev with hev | hev
  · exact hf.tasks now e hev hid
  · exact absurd hid (hquiet now e hev)

theorem horizon_perform (m : Moment τ ω) (c : Call τ) : (m.perform c).horizon = m.horizon := by
  rcases m with ⟨st, phase⟩
  cases phase <;> simp [Moment.horizon, Moment.perform, Moment.now, Moment.scheduler]

/-- A call that does not cancel a task keeps its entry, and does not mark it as cancelled. -/
theorem perform_keeps {s : Scheduler τ} (hs : s.Sound) {c : Call τ}
    (hc : ∀ other, c = .cancel other → other ≠ id) :
    (∀ e ∈ s.queue, e.id = id → e ∈ (s.perform c).queue) ∧
      (id ∈ (s.perform c).cancelled → id ∈ s.cancelled) := by
  cases c with
  | schedule delay task =>
    exact ⟨fun e he _ => (Scheduler.mem_add_queue s delay none task).mpr (Or.inr he),
      fun hid => hid⟩
  | scheduleRepeating initial period task =>
    exact ⟨fun e he _ => (Scheduler.mem_add_queue s initial _ task).mpr (Or.inr he), fun hid => hid⟩
  | cancel other =>
    have hne := hc other rfl
    refine ⟨fun e he hid => hs.mem_cancel_queue.mpr ⟨he, by rw [hid]; exact hne.symm⟩,
      fun hid => ?_⟩
    rcases Scheduler.mem_cancel_cancelled.mp hid with hid | ⟨hid, -, -⟩
    · exact hid
    · exact absurd hid.symm hne

theorem Standing.perform_other (hs : Standing h m id plan task k) (hm : m.Sound w h)
    (hlt : id < m.scheduler.nextId) {c : Call τ} (hc : ∀ other, c = .cancel other → other ≠ id) :
    Standing (h ++ [m.event c]) (m.perform c) id plan task k := by
  obtain ⟨hqueue, hmark⟩ := perform_keeps hm.queue hc
  cases hs with
  | waiting e queued id_eq period_eq task_eq awaits once =>
    refine .waiting e (hqueue e queued id_eq) id_eq period_eq task_eq ?_ once
    rw [Moment.Awaits, horizon_perform]
    exact awaits
  | firing j origin before e phase_eq id_eq period_eq task_eq count turn once marked =>
    refine .firing j origin before e phase_eq id_eq period_eq task_eq count ?_ once ?_
    · rw [← turn]
      exact Scheduler.perform_current m.scheduler c
    · exact fun hcancelled => (marked (hmark hcancelled)).append _
  | ended absent idle reason once =>
    refine .ended (fun e he => ?_) idle (reason.imp_left fun hw => hw.append _) once
    rcases Scheduler.id_of_mem_perform he with he | he
    · exact absent e he
    · rw [he]
      exact (Nat.ne_of_lt hlt).symm

/-- A call that cancels the task ends it, or finds that it is over. -/
theorem Standing.cancel (hs : Standing h m id plan task k) (hm : m.Sound w h) :
    Standing (h ++ [m.event (.cancel id)]) (m.perform (.cancel id)) id plan task k := by
  have hdone : (m.scheduler.cancel id).1 = true →
      WasCancelled id (h ++ [m.event (.cancel id)]) := by
    intro hfound
    refine ⟨m.now, m.phase.caller?, List.mem_append_right _ (List.mem_singleton.mpr ?_)⟩
    simp only [Moment.event, hfound]
  have habsent : ∀ e ∈ (m.perform (.cancel id)).scheduler.queue, e.id ≠ id := fun e he =>
    (hm.queue.mem_cancel_queue.mp he).2
  cases hs with
  | waiting e queued id_eq period_eq task_eq awaits once =>
    have hq : m.scheduler.dueOf? id = some e.due := id_eq ▸ hm.queue.dueOf_of_mem queued
    exact .ended habsent (id_eq ▸ hm.idle_of_mem queued)
      (Or.inl (hdone (by rw [Scheduler.cancel_queued hq])))
      fun hp => Nat.le_succ_of_le (Nat.le_of_eq (once hp))
  | firing j origin before e phase_eq id_eq period_eq task_eq count turn once marked =>
    refine .firing j origin before e phase_eq id_eq period_eq task_eq count ?_ once ?_
    · rw [← turn]
      exact Scheduler.perform_current m.scheduler (.cancel id)
    · intro hcancelled
      rcases Scheduler.mem_cancel_cancelled.mp hcancelled with hearlier | ⟨-, hq, hrunning⟩
      · exact (marked hearlier).append _
      · exact hdone (by rw [Scheduler.cancel_firing hq hrunning])
  | ended absent idle reason once =>
    exact .ended habsent idle (reason.imp_left fun hw => hw.append _) once

theorem Standing.begin {st : Scheduled τ ω} (hs : Standing h ⟨st, .between⟩ id plan task k)
    (hfits : st.scheduler.current + 1 < tickSpan) (events : List (Event τ)) :
    Standing (h ++ events) ⟨st.begun, .ticking st⟩ id plan task k := by
  have hhorizon : Moment.horizon (⟨st.begun, .ticking st⟩ : Moment τ ω) =
      Moment.horizon (⟨st, .between⟩ : Moment τ ω) :=
    Nat.mod_eq_of_lt hfits
  cases hs with
  | waiting e queued id_eq period_eq task_eq awaits once =>
    refine .waiting e queued id_eq period_eq task_eq ?_ once
    rw [Moment.Awaits, hhorizon]
    exact awaits
  | firing j origin before e phase_eq id_eq period_eq task_eq count turn once marked =>
    cases phase_eq
  | ended absent idle reason once =>
    exact .ended absent (by simp [Phase.caller?]) (reason.imp_left fun hw => hw.append _) once

/-- A tick that is over leaves a task standing where it stood. -/
theorem Standing.rest {st origin : Scheduled τ ω}
    (hs : Standing h ⟨st, .ticking origin⟩ id plan task k) (hq : st.scheduler.Sound)
    (drained : st.Drained) : Standing h ⟨st, .between⟩ id plan task k := by
  cases hs with
  | waiting e queued id_eq period_eq task_eq awaits once =>
    have hlater : st.scheduler.current < e.due := hq.lt_due_of_nextDue?_eq_none drained e queued
    obtain ⟨hle, hdueAt, hdue⟩ := awaits
    change st.scheduler.current ≤ _ at hle
    change e.due = _ ∨ e.due + 1 = _ ∧ _ = st.scheduler.current at hdue
    refine .waiting e queued id_eq period_eq task_eq ⟨?_, hdueAt, Or.inl ?_⟩ once
    · change st.scheduler.current + 1 ≤ _
      omega
    · omega
  | firing j o before e phase_eq id_eq period_eq task_eq count turn once marked =>
    cases phase_eq
  | ended absent idle reason once => exact .ended absent (by simp [Phase.caller?]) reason once

theorem Standing.fire_other {st origin : Scheduled τ ω} {e : QueueEntry τ}
    (hs : Standing h ⟨st, .ticking origin⟩ id plan task k) (hq : st.scheduler.Sound)
    (due : st.scheduler.nextDue? = some e) (hne : e.id ≠ id) (events : List (Event τ)) :
    Standing (h ++ events) ⟨st.started e, .firing origin st e⟩ id plan task k := by
  cases hs with
  | waiting f queued id_eq period_eq task_eq awaits once =>
    refine .waiting f ?_ id_eq period_eq task_eq awaits once
    exact (hq.mem_start_queue due).mpr ⟨queued, fun hid => hne (hid.symm.trans id_eq)⟩
  | firing j o before f phase_eq id_eq period_eq task_eq count turn once marked =>
    cases phase_eq
  | ended absent idle reason once =>
    refine .ended (fun f hf => absent f ((hq.mem_start_queue due).mp hf).1) ?_
      (reason.imp_left fun hw => hw.append _) once
    simpa [Phase.caller?] using hne

/-- An entry of the task that fires does so at the next tick of its plan, and the task stands one
    firing further. -/
theorem Standing.fire_own {st origin : Scheduled τ ω} {e : QueueEntry τ}
    (hs : Standing h ⟨st, .ticking origin⟩ id plan task k)
    (hm : Moment.Sound w h ⟨st, .ticking origin⟩)
    (due : st.scheduler.nextDue? = some e) (hid : e.id = id) (events : List (Event τ)) :
    st.scheduler.current = plan.nth k ∧ e.due = plan.dueAt k ∧ e.task = task ∧
      Standing (h ++ events) ⟨st.started e, .firing origin st e⟩ id plan task (k + 1) := by
  obtain ⟨-, hdue⟩ := Scheduler.nextDue?_eq_some.mp due
  have hmem : e ∈ st.scheduler.queue := Scheduler.mem_of_nextDue? due
  cases hs with
  | waiting f queued id_eq period_eq task_eq awaits once =>
    obtain rfl := hm.queue.eq_of_id_eq queued hmem (id_eq.trans hid.symm)
    obtain ⟨hle, hdueAt, heq⟩ := awaits
    have hturn : st.scheduler.current = plan.nth k := by
      change st.scheduler.current ≤ _ at hle
      change f.due = _ ∨ f.due + 1 = _ ∧ _ = st.scheduler.current at heq
      omega
    refine ⟨hturn, hdueAt, task_eq, ?_⟩
    refine .firing k origin st f rfl hid period_eq task_eq rfl hturn once fun hmarked => ?_
    -- a firing starts without a mark, as nothing was running
    have hrunning : id ∈ st.scheduler.running := hm.queue.cancelled_running id hmarked
    rw [hm.phase.1] at hrunning
    cases hrunning
  | firing j o before f phase_eq id_eq period_eq task_eq count turn once marked =>
    cases phase_eq
  | ended absent idle reason once => exact absurd hid (absent e hmem)

/-- Another task that is done leaves a task standing where it stood. -/
theorem Standing.finish_other {st origin before : Scheduled τ ω} {e : QueueEntry τ}
    (hs : Standing h ⟨st, .firing origin before e⟩ id plan task k)
    (done : st = w.run e.id e.task (before.started e)) (hne : e.id ≠ id)
    (events : List (Event τ)) :
    Standing (h ++ events) ⟨before.fire w e, .ticking origin⟩ id plan task k := by
  have hscheduler := Scheduled.fire_of_done done
  have hhorizon : Moment.horizon (⟨before.fire w e, .ticking origin⟩ : Moment τ ω) =
      Moment.horizon (⟨st, .firing origin before e⟩ : Moment τ ω) := by
    change (before.fire w e).scheduler.current = st.scheduler.current
    rw [hscheduler, Scheduler.finish_current]
  cases hs with
  | waiting f queued id_eq period_eq task_eq awaits once =>
    refine .waiting f ?_ id_eq period_eq task_eq ?_ once
    · change f ∈ (before.fire w e).scheduler.queue
      rw [hscheduler]
      exact Scheduler.mem_finish_of_mem queued
    · rw [Moment.Awaits, hhorizon]
      exact awaits
  | firing j o b f phase_eq id_eq period_eq task_eq count turn once marked =>
    cases phase_eq
    exact absurd id_eq hne
  | ended absent idle reason once =>
    refine .ended (fun f hf => ?_) (by simp [Phase.caller?])
      (reason.imp_left fun hw => hw.append _) once
    change f ∈ (before.fire w e).scheduler.queue at hf
    rw [hscheduler] at hf
    rcases Scheduler.mem_finish_queue hf with hf | hf
    · exact absent f hf
    · rw [hf]
      exact hne

/-- A repeating task that is queued again waits for its next turn. -/
theorem Standing.again {st after origin : Scheduled τ ω} {e : QueueEntry τ} {period j : Nat}
    (hid : e.id = id) (task_eq : e.task = task) (period_eq : e.period? = some period)
    (hp : plan.period? = some period) (hc : e.id ∉ st.scheduler.cancelled)
    (hfits : Fits (st.scheduler.requeueEvents e))
    (hnext : plan.nth (j + 1) = st.scheduler.current + period)
    (hscheduler : after.scheduler = st.scheduler.finish e) :
    Standing h ⟨after, .ticking origin⟩ id plan task (j + 1) := by
  have hlt : st.scheduler.current + period < tickSpan := by
    refine hfits (.requeued st.scheduler.current e.id period) ?_
    simp [Scheduler.requeueEvents, period_eq, hc]
  have hdue : (st.scheduler.current + period) % tickSpan = plan.nth (j + 1) := by
    rw [Nat.mod_eq_of_lt hlt, hnext]
  refine .waiting { e with due := plan.nth (j + 1) } ?_ hid (period_eq.trans hp.symm) task_eq
    ⟨?_, rfl, Or.inl rfl⟩ (by simp [hp])
  · change _ ∈ after.scheduler.queue
    rw [hscheduler, Scheduler.finish_again period_eq hc, ← hdue]
    exact Scheduler.mem_insertByDue.mpr (Or.inl rfl)
  · change after.scheduler.current ≤ plan.nth (j + 1)
    rw [hscheduler, Scheduler.finish_current, hnext]
    exact Nat.le_add_right _ _

/-- A task that ends a firing waits for its next turn, unless it is over. -/
theorem Standing.finish_own {st origin before : Scheduled τ ω} {e : QueueEntry τ}
    (hs : Standing h ⟨st, .firing origin before e⟩ id plan task k)
    (hm : Moment.Sound w h ⟨st, .firing origin before e⟩)
    (done : st = w.run e.id e.task (before.started e)) (hid : e.id = id)
    (hfits : Fits (st.scheduler.requeueEvents e)) (events : List (Event τ)) :
    Standing (h ++ events) ⟨before.fire w e, .ticking origin⟩ id plan task k := by
  have hscheduler := Scheduled.fire_of_done done
  obtain ⟨-, -, -, -, hfree⟩ := hm.phase
  cases hs with
  | waiting f queued id_eq period_eq task_eq awaits once =>
    exact absurd (id_eq.trans hid.symm) (hfree f queued)
  | ended absent idle reason once =>
    exact absurd (congrArg some hid) idle
  | firing j o b f phase_eq id_eq period_eq task_eq count turn once marked =>
    cases phase_eq
    have habsent : ∀ f ∈ st.scheduler.queue, f.id ≠ id := hid ▸ hfree
    cases hp : plan.period? with
    | none =>
      rw [hp] at period_eq
      refine .ended (fun f hf => ?_) (by simp [Phase.caller?])
        (Or.inr ⟨hp, by rw [count, once hp]⟩) fun _ => Nat.le_of_eq (by rw [count, once hp])
      change f ∈ (before.fire w e).scheduler.queue at hf
      rw [hscheduler, Scheduler.finish_once period_eq] at hf
      exact habsent f hf
    | some period =>
      rw [hp] at period_eq
      by_cases hc : e.id ∈ st.scheduler.cancelled
      · have hcancelled : WasCancelled id h := marked (hid ▸ hc)
        refine .ended (fun f hf => ?_) (by simp [Phase.caller?]) (Or.inl (hcancelled.append _))
          (by simp [hp])
        change f ∈ (before.fire w e).scheduler.queue at hf
        rw [hscheduler, Scheduler.finish_cancelled period_eq hc] at hf
        exact habsent f hf
      · have hnext : plan.nth (j + 1) = st.scheduler.current + period := by
          rw [Plan.nth_succ hp, ← turn]
          rfl
        rw [count]
        exact Standing.again hid task_eq period_eq hp hc hfits hnext hscheduler

end Keep

/-! ### What a standing says -/

theorem Standing.count_le_one {h : List (Event τ)} {m : Moment τ ω} {id : TaskId} {plan : Plan}
    {task : τ} {k : Nat} (hs : Standing h m id plan task k) (hp : plan.period? = none) :
    k ≤ 1 := by
  cases hs with
  | waiting e queued id_eq period_eq task_eq awaits once =>
    exact Nat.le_succ_of_le (Nat.le_of_eq (once hp))
  | firing j o b e phase_eq id_eq period_eq task_eq count turn once marked =>
    exact Nat.le_of_eq (by rw [count, once hp])
  | ended absent idle reason once => exact once hp

theorem Standing.exists_nth {h : List (Event τ)} {m : Moment τ ω} {id : TaskId} {plan : Plan}
    {task : τ} {k tick : Nat} (hs : Standing h m id plan task k) (hc : ¬ WasCancelled id h)
    (hplan : plan.Has tick) (hover : tick < m.horizon) : ∃ j < k, plan.nth j = tick := by
  cases hs with
  | waiting e queued id_eq period_eq task_eq awaits once =>
    exact Plan.exists_nth_of_has hplan (Nat.lt_of_lt_of_le hover awaits.1)
  | firing j o b e phase_eq id_eq period_eq task_eq count turn once marked =>
    have hhorizon : m.horizon = plan.nth j := by
      rw [Moment.horizon, phase_eq]
      exact turn
    obtain ⟨i, hi, hnth⟩ := Plan.exists_nth_of_has hplan (hhorizon ▸ hover)
    exact ⟨i, by omega, hnth⟩
  | ended absent idle reason once =>
    rcases reason with hcancelled | ⟨hp, hk⟩
    · exact absurd hcancelled hc
    · refine ⟨0, by omega, ?_⟩
      simp only [Plan.Has, hp] at hplan
      rw [Plan.nth_zero, hplan]

/-! ### One step keeps the plan -/

section Plan

variable {w : Workshop τ ω} {h : List (Event τ)} {m m' : Moment τ ω} {events : List (Event τ)}
  {id : TaskId} {plan : Plan} {task : τ}

/-- A task that fires goes on following its plan. -/
theorem Follows.fire_own {st origin : Scheduled τ ω} {e : QueueEntry τ}
    (hf : Follows h ⟨st, .ticking origin⟩ id plan task)
    (hm : Moment.Sound w h ⟨st, .ticking origin⟩)
    (due : st.scheduler.nextDue? = some e) (hid : e.id = id) :
    Follows (h ++ [.fired st.scheduler.current e]) ⟨st.started e, .firing origin st e⟩ id plan
      task := by
  obtain ⟨hturn, -, htask, hstanding⟩ :=
    hf.standing.fire_own hm due hid [.fired st.scheduler.current e]
  have hticks : firedTicks id (h ++ [.fired st.scheduler.current e]) =
      firedTicks id h ++ [st.scheduler.current] := by
    rw [firedTicks_append]
    simp [firedTicks, hid]
  have hlength : (firedTicks id (h ++ [.fired st.scheduler.current e])).length =
      (firedTicks id h).length + 1 := by
    rw [hticks, List.length_append, List.length_singleton]
  refine ⟨?_, fun now f hev hfid => ?_, hlength ▸ hstanding⟩
  · rw [hlength, List.range_succ, List.map_append, ← hf.ticks, hticks, hturn]
    rfl
  · rcases List.mem_append.mp hev with hev | hev
    · exact hf.tasks now f hev hfid
    · obtain ⟨-, rfl⟩ := Event.fired.inj (List.mem_singleton.mp hev)
      exact htask

/-- A task that follows its plan does so after every step. -/
theorem Follows.step (hf : Follows h m id plan task) (hm : m.Sound w h)
    (step : Step w m events m') (hfits : Fits events) (hlt : id < m.scheduler.nextId) :
    Follows (h ++ events) m' id plan task := by
  cases step with
  | call c acting =>
    refine hf.of_quiet (fun now e hev => ?_) ?_
    · exact absurd (List.mem_singleton.mp hev) Moment.event_ne_fired
    · by_cases hc : c = .cancel id
      · rw [hc]
        exact hf.standing.cancel hm
      · refine hf.standing.perform_other hm hlt fun other hother hid => hc ?_
        rw [hother, hid]
  | change f acting =>
    refine hf.of_quiet (by simp) ?_
    rw [List.append_nil]
    cases hf.standing with
    | waiting e queued id_eq period_eq task_eq awaits once =>
      exact .waiting e queued id_eq period_eq task_eq awaits once
    | firing j o b e phase_eq id_eq period_eq task_eq count turn once marked =>
      exact .firing j o b e phase_eq id_eq period_eq task_eq count turn once marked
    | ended absent idle reason once => exact .ended absent idle reason once
  | tick st =>
    refine hf.of_quiet (by simp) (hf.standing.begin ?_ _)
    exact hfits _ (List.mem_singleton.mpr rfl)
  | @fire st origin e due =>
    by_cases hid : e.id = id
    · exact hf.fire_own hm due hid
    · refine hf.of_quiet (fun now f hev => ?_) (hf.standing.fire_other hm.queue due hid _)
      obtain ⟨-, rfl⟩ := Event.fired.inj (List.mem_singleton.mp hev)
      exact hid
  | @finish st origin before e done =>
    have hquiet : ∀ now f, Event.fired now f ∈ st.scheduler.requeueEvents e → f.id ≠ id := by
      intro now f hev
      obtain ⟨_, heq⟩ := Scheduler.eq_of_mem_requeueEvents hev
      cases heq
    refine hf.of_quiet hquiet ?_
    by_cases hid : e.id = id
    · exact hf.standing.finish_own hm done hid hfits _
    · exact hf.standing.finish_other done hid _
  | @rest st origin drained returned =>
    obtain ⟨-, htrail⟩ := hm.phase
    have heq : (origin.tick w).2 = st := htrail.tick_eq drained returned
    refine hf.of_quiet (by simp) ?_
    rw [heq, List.append_nil]
    exact hf.standing.rest hm.queue drained

/-- A task that is scheduled follows its plan from then on. -/
theorem Follows.scheduled (hm : m.Sound w h) {c : Call τ} {now delay : Nat}
    {caller? : Option TaskId} {period? : Option Nat} (acting : m.phase.Acting)
    (hev : Event.scheduled now caller? id delay period? task = m.event c)
    (hfits : now + delay < tickSpan) :
    Follows (h ++ [m.event c]) (m.perform c) id (.of now caller? delay period?) task := by
  obtain ⟨rfl, rfl, rfl, hperform⟩ := Moment.event_scheduled hev
  have hnever : firedTicks m.scheduler.nextId (h ++ [m.event c]) = [] := by
    refine firedTicks_eq_nil fun now e hmem => ?_
    rcases List.mem_append.mp hmem with hmem | hmem
    · exact Nat.ne_of_lt (hm.fired_lt hmem)
    · exact absurd (List.mem_singleton.mp hmem) Moment.event_ne_fired
  refine ⟨by rw [hnever]; rfl, fun now e hmem hid => ?_, ?_⟩
  · exact absurd (mem_firedTicks.mpr ⟨e, hmem, hid⟩) (by simp [hnever])
  · rw [hnever]
    refine .waiting ⟨(m.now + delay) % tickSpan, m.scheduler.nextId,
      period?.map fun period => max period 1, task⟩ ?_ rfl rfl rfl ?_ (fun _ => rfl)
    · change _ ∈ (m.scheduler.perform c).queue
      rw [hperform]
      exact (Scheduler.mem_add_queue ..).mpr (Or.inl rfl)
    · rw [Moment.Awaits, horizon_perform, List.length_nil, Plan.nth_zero]
      rcases m with ⟨st, phase⟩
      cases phase with
      | between =>
        have hmod := Nat.mod_eq_of_lt hfits
        change st.scheduler.current + 1 ≤ st.scheduler.current + max delay 1 ∧ _
        refine ⟨by omega, hmod, ?_⟩
        rcases Nat.eq_zero_or_pos delay with hzero | hpos
        · -- due at a tick that is over, so that the next one is its turn
          subst hzero
          exact Or.inr ⟨congrArg (· + 1) hmod, rfl⟩
        · exact Or.inl (hmod.trans (congrArg (_ + ·) (Nat.max_eq_left hpos).symm))
      | ticking origin => exact acting.elim
      | firing origin before e =>
        have hmod := Nat.mod_eq_of_lt hfits
        exact ⟨Nat.le_add_right _ _, hmod, Or.inl hmod⟩

end Plan

/-- A task that has not fired and was not cancelled follows its plan, whatever came before. -/
theorem Follows.forget {h : List (Event τ)} {m : Moment τ ω} {id : TaskId} {plan : Plan} {task : τ}
    (hf : Follows h m id plan task) (hnone : firedTicks id h = []) (hc : ¬ WasCancelled id h) :
    Follows [] m id plan task := by
  refine ⟨rfl, by simp, ?_⟩
  have hs := hf.standing
  rw [hnone] at hs
  cases hs with
  | waiting e queued id_eq period_eq task_eq awaits once =>
    exact .waiting e queued id_eq period_eq task_eq awaits once
  | firing j o b e phase_eq id_eq period_eq task_eq count turn once marked => cases count
  | ended absent idle reason once =>
    rcases reason with hcancelled | ⟨-, hk⟩
    · exact absurd hcancelled hc
    · cases hk

/-- A task that follows its plan goes on with it in every run. -/
theorem Follows.course {w : Workshop τ ω} {h k : List (Event τ)} {m m' : Moment τ ω} {id : TaskId}
    {plan : Plan} {task : τ} (hf : Follows h m id plan task) (hm : m.Sound w h)
    (hlt : id < m.scheduler.nextId) (run : Course w m k m') (fits : Fits k) :
    Follows (h ++ k) m' id plan task := by
  induction run with
  | refl => rw [List.append_nil]; exact hf
  | @snoc k events m' m'' run step ih =>
    obtain ⟨hfits, hlast⟩ := fits_append.mp fits
    have hlt' : id < m'.scheduler.nextId := Nat.lt_of_lt_of_le hlt (run.nextId_le hm)
    rw [← List.append_assoc]
    exact (ih hfits).step (run.sound hm) step hlast hlt'

end RuleEngine
