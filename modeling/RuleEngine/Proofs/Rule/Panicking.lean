/-
  RuleEngine/Proofs/Rule/Panicking.lean
  =====================================
  **Panics are contained.**

  An evaluation in which an act panics stops there (`StopsIn`): what came before has been
  done, nothing comes after, and the panic is reported as one error, which is the only one of
  the evaluation.  The answer is the one that the caller gave for this case, no matter what
  negations and disjunctions the act stood in.  Tasks are not lost: those that were scheduled
  before the panic, by this evaluation or earlier, go on with their plans.

  It is the same for a task that panics when it fires, and the rest of its tick is not concerned
  (`EndsAlone`): the other tasks are still queued, those that are due fire in this tick, and
  the task itself is due again a period later, if it repeats.
-/
import RuleEngine.Proofs.Rule.Preserving
import RuleEngine.Proofs.Rule.Firing
import RuleEngine.Proofs.Scheduler.Due
import RuleEngine.Proofs.Scheduler.Timetable

namespace RuleEngine

open Run

/-! ### Evaluations as runs of the scheduler -/

section Course

variable {α : Type} {c : ContextId} {m : Moment Work World}

/-- An evaluation is a run, in which the tasks are seen that its acts schedule. -/
theorem Script.course (c : ContextId) (s : Script α) (acting : m.phase.Acting) :
    ∃ k, Course workshop m k { m with state := (s.run c).after m.state } ∧
      ∀ a mid delay period? mode actions, (a, mid) ∈ s.trace c m.state →
        a.Defers delay period? mode actions →
        .scheduled m.now m.phase.caller? mid.scheduler.nextId delay period?
          (.actions mode c actions) ∈ k := by
  induction s generalizing m with
  | done result => exact ⟨[], .refl, nofun⟩
  | act a next ih =>
    have hcalls := a.perform_calls c m.state
    rw [Script.run, Script.trace, after_bind]
    unfold outcome after at *
    cases hrun : a.perform c m.state with
    | error message st =>
      rw [hrun] at hcalls
      refine ⟨_, .performAll acting _ hcalls,
        fun a' mid delay period? mode actions hmem defers => ?_⟩
      cases List.mem_singleton.mp hmem
      exact defers.mem_events c m
    | ok answer st =>
      rw [hrun] at hcalls
      obtain ⟨k, later, hk⟩ := ih answer (m := { m with state := st }) acting
      refine ⟨_, (Course.performAll acting _ hcalls).trans later,
        fun a' mid delay period? mode actions hmem defers => ?_⟩
      rcases List.mem_cons.mp hmem with heq | hmem
      · cases heq
        exact List.mem_append_left _ (defers.mem_events c m)
      · have hnow : st.scheduler.current = m.now := by
          rw [hcalls]
          exact Scheduler.performAll_current _ _
        refine List.mem_append_right _ ?_
        rw [← hnow]
        exact hk a' mid delay period? mode actions hmem defers

end Course

/-! ### Evaluations that panic -/

section Stopping

variable {α : Type} {c : ContextId} {s : Script α} {m : Moment Work World} {a : Act}
  {mid last : EngineState} {message : Panic} {n : Notice}

/-- An evaluation of a script, begun at a moment, stops in an act that panics. -/
structure StopsIn (m : Moment Work World) (c : ContextId) (s : Script α) (a : Act)
    (mid last : EngineState) (n : Notice) : Prop where
  /-- The acts before it have been done, each of them to its end, and none comes after it. -/
  done : ∃ before, s.trace c m.state = before ++ [(a, mid)] ∧ Done c before m.state mid
  /-- The panic is reported, and nothing else is an error. -/
  errors : (noted n last).world.errors = m.state.world.errors ++ [n]
  /-- What was scheduled before goes on as planned. -/
  tasks : ∀ world h, Course workshop (.start world) h m →
    ∃ k, Course workshop m k { m with state := noted n last } ∧
      (∀ a' mid' delay period? mode actions, (a', mid') ∈ s.trace c m.state →
        a'.Defers delay period? mode actions →
        .scheduled m.now m.phase.caller? mid'.scheduler.nextId delay period?
          (.actions mode c actions) ∈ k) ∧
      ∀ l m', Course workshop { m with state := noted n last } l m' → Fits (h ++ k ++ l) →
        ∀ now caller? id delay period? task, .scheduled now caller? id delay period? task ∈ h ++ k →
          Follows (h ++ k ++ l) m' id (.of now caller? delay period?) task

theorem errors_noted (loud : n.level = .error) (st : EngineState) :
    (noted n st).world.errors = st.world.errors ++ [n] := by
  refine (World.errors_report st.world n).trans ?_
  rw [loud]
  rfl

theorem Script.stopsIn (acting : m.phase.Acting) (reached : (a, mid) ∈ s.trace c m.state)
    (panics : a.perform c mid = .error message last) (loud : n.level = .error) :
    StopsIn m c s a mid last n := by
  obtain ⟨hrun, hdone⟩ := Script.run_of_panic reached panics
  have hafter : (s.run c).after m.state = last := by
    unfold after
    rw [hrun]
  refine ⟨hdone, ?_, fun world h earlier => ?_⟩
  · have hnone := (s.preserves robust_errors c).after m.state
    rw [errors_noted loud, ← hafter]
    exact congrArg (· ++ [n]) hnone
  · obtain ⟨k, run, hk⟩ := s.course c acting
    rw [hafter] at run
    have reported : Course workshop m (k ++ []) { m with state := noted n last } :=
      run.snoc (.change (m := { m with state := last }) (·.report n) acting)
    rw [List.append_nil] at reported
    refine ⟨k, reported, hk, fun l m' later fits now caller? id delay period? task hev => ?_⟩
    exact ((earlier.trans reported).trans later).follows fits (List.mem_append_left l hev)

/-- An evaluation does what a script says and contains the panics in it: it is answered with a
    fallback then, and reported. -/
structure Contains (c : ContextId) (s : Script α) (fallback : α) (notice : Panic → Notice)
    (evaluation : StateM EngineState α) : Prop where
  panics : ∀ st a mid message last, (a, mid) ∈ s.trace c st →
    a.perform c mid = .error message last →
    evaluation st = (fallback, noted (notice message) last) ∧
      StopsIn ⟨st, .between⟩ c s a mid last (notice message)
  calm : ∀ st, (∀ a mid, (a, mid) ∈ s.trace c st → ∃ answer after,
      a.perform c mid = .ok answer after) →
    ∃ result last, s.run c st = .ok result last ∧ evaluation st = (result, last) ∧
      Done c (s.trace c st) st last ∧ last.world.errors = st.world.errors

theorem guarded_contains (c : ContextId) (s : Script α) (what : String) (fallback : α) :
    Contains c s fallback (.evaluationPanicked what) (guarded what fallback (s.run c)) := by
  constructor
  · intro st a mid message last reached panics
    refine ⟨?_, Script.stopsIn trivial reached panics rfl⟩
    unfold guarded
    rw [(Script.run_of_panic reached panics).1]
    rfl
  · intro st calm
    obtain ⟨result, last, hrun, hdone⟩ := Script.run_of_done calm
    refine ⟨result, last, hrun, ?_, hdone, ?_⟩
    · unfold guarded
      rw [hrun]
    · have hnone := (s.preserves robust_errors c).after st
      unfold after at hnone
      rw [hrun] at hnone
      exact hnone

end Stopping

/-! ### Firings that panic -/

section Firing

variable {c : ContextId} {h : List (Event Work)} {st origin last : EngineState}
  {e : QueueEntry Work}

/-- A firing of a task ends in a state, with a notice reported, and this is its own affair. -/
structure EndsAlone (st origin : EngineState) (e : QueueEntry Work) (last : EngineState)
    (n : Notice) : Prop where
  fire_eq : st.fire workshop e =
    { scheduler := last.scheduler.finish e, world := (noted n last).world }
  /-- All other tasks are still queued. -/
  others : ∀ f ∈ st.scheduler.queue, f.id ≠ e.id → f ∈ (st.fire workshop e).scheduler.queue
  /-- The task is due again a period later, if it repeats. -/
  again : ∀ period, e.period? = some period →
    { e with due := (st.scheduler.current + period) % tickSpan } ∈
      (st.fire workshop e).scheduler.queue
  /-- The tick goes on. -/
  loop : ∀ fuel, st.fireDue workshop (fuel + 1) =
    (((st.fire workshop e).fireDue workshop fuel).1 + 1,
      ((st.fire workshop e).fireDue workshop fuel).2)
  /-- What else is due fires before the tick is over, unless it is cancelled before. -/
  due : ∀ k m', Course workshop ⟨st.fire workshop e, .ticking origin⟩ k m' →
    (∀ now, .ticked now ∉ k) → m'.phase = .between →
    ∀ f ∈ st.scheduler.queue, f.id ≠ e.id → f.due ≤ st.scheduler.current →
      (∃ now, .fired now f ∈ k) ∨ WasCancelled f.id k

/-- Calls that cancel nothing leave every entry in its place. -/
theorem Scheduler.performAll_keeps {τ : Type} {s : Scheduler τ} (hs : s.Sound)
    {calls : List (Call τ)} (none : ∀ id, .cancel id ∉ calls) :
    (∀ f ∈ s.queue, f ∈ (s.performAll calls).queue) ∧
      ∀ id ∈ (s.performAll calls).cancelled, id ∈ s.cancelled := by
  induction calls generalizing s with
  | nil => exact ⟨fun f hf => hf, fun id hid => hid⟩
  | cons call calls ih =>
    have hcall : ∀ id other, call = .cancel other → other ≠ id := fun id other heq =>
      absurd (heq ▸ List.mem_cons_self) (none other)
    obtain ⟨hqueue, hcancelled⟩ := ih (hs.perform call) fun id hmem =>
      none id (List.mem_cons_of_mem _ hmem)
    refine ⟨fun f hf => hqueue f ?_, fun id hid => ?_⟩
    · exact (perform_keeps hs (hcall f.id)).1 f hf rfl
    · exact (perform_keeps hs (hcall id)).2 (hcancelled id hid)

/-- An evaluation leaves the tasks of others alone, even if it panics. -/
theorem Script.keeps_of_error {α : Type} {s : Script α} {message : Panic}
    (hst : st.scheduler.Sound) (panics : s.run c st = .error message last) :
    (∀ f ∈ st.scheduler.queue, f ∈ last.scheduler.queue) ∧
      (∀ id ∈ last.scheduler.cancelled, id ∈ st.scheduler.cancelled) ∧
      last.scheduler.current = st.scheduler.current := by
  have hlast : last.scheduler = st.scheduler.performAll (askedCalls c (s.trace c st)) := by
    have hcalls := s.run_calls c st
    unfold after at hcalls
    rwa [panics] at hcalls
  have hnone : ∀ id, .cancel id ∉ askedCalls c (s.trace c st) := by
    intro id hmem
    obtain ⟨act, -, hcall⟩ := List.mem_flatMap.mp hmem
    exact act.1.calls_ne_cancel c _ id hcall
  obtain ⟨hqueue, hcancelled⟩ := Scheduler.performAll_keeps hst hnone
  rw [hlast]
  exact ⟨hqueue, hcancelled, Scheduler.performAll_current _ _⟩

theorem Work.perform_of_error {id : TaskId} {task : Work} {message : Panic}
    (panics : task.run st = .error message last) :
    task.perform id st = noted (.taskPanicked id message) last := by
  unfold perform
  rw [panics]
  rfl

/-- A firing that does not drop its task. -/
theorem Scheduled.fire_of_run {τ ω : Type} {w : Workshop τ ω} {st st' : Scheduled τ ω}
    {e : QueueEntry τ} (ran : w.run e.id e.task (st.started e) = st')
    (kept : st'.scheduler.drops e = false) :
    st.fire w e = { scheduler := st'.scheduler.finish e, world := st'.world } := by
  have heq : w.run e.id e.task { st with scheduler := st.scheduler.start e } = st' := ran
  simp only [fire, heq, kept, Bool.false_eq_true, if_false]

/-- A task that panics ends by itself: its tick goes on after a report. -/
theorem endsAlone {world : World} {message : Panic} {mode : ExecMode} {actions : List Action}
    (run : Course workshop (.start world) h ⟨st, .ticking origin⟩)
    (hnext : st.scheduler.nextDue? = some e) (htask : e.task = .actions mode c actions)
    (panics : (actionsScript actions).run c (st.started e) = .error message last) :
    EndsAlone st origin e last (.taskPanicked e.id message) := by
  have hm := run.sound (Moment.sound_start workshop world)
  have hqueue : st.scheduler.Sound := hm.queue
  have hidle : st.scheduler.running = [] := hm.phase.1
  obtain ⟨hkeeps, hcancelled, hnow⟩ := Script.keeps_of_error (hqueue.start hnext) panics
  have hkept : e.id ∉ last.scheduler.cancelled := by
    intro hmem
    have hrunning := hqueue.cancelled_running e.id (hcancelled e.id hmem)
    rw [hidle] at hrunning
    cases hrunning
  have hperform : workshop.run e.id e.task (st.started e) =
      noted (.taskPanicked e.id message) last := by
    refine Work.perform_of_error ?_
    rw [htask, Work.run, ← actionsScript_run]
    exact panics
  have hfire : st.fire workshop e =
      { scheduler := last.scheduler.finish e
        world := (noted (.taskPanicked e.id message) last).world } := by
    have hdrops : (noted (.taskPanicked e.id message) last).scheduler.drops e = false := by
      simp [Scheduler.drops, noted, hkept]
    exact Scheduled.fire_of_run hperform hdrops
  have hothers : ∀ f ∈ st.scheduler.queue, f.id ≠ e.id →
      f ∈ (st.fire workshop e).scheduler.queue := by
    intro f hf hne
    rw [hfire]
    exact Scheduler.mem_finish_of_mem
      (hkeeps f ((hqueue.mem_start_queue hnext).mpr ⟨hf, hne⟩))
  refine ⟨hfire, hothers, fun period hperiod => ?_, Scheduled.fireDue_of_nextDue? workshop hnext,
    fun k m' later within idle f hf hne hdue => ?_⟩
  · rw [hfire]
    show _ ∈ (last.scheduler.finish e).queue
    rw [Scheduler.finish_again hperiod hkept, hnow]
    exact Scheduler.mem_insertByDue.mpr (.inl rfl)
  · obtain ⟨k', fired, -⟩ := Course.fire workshop_calling origin hnext
    have hsound := (run.trans fired).sound (Moment.sound_start workshop world)
    refine Course.fires_due hsound later within (hothers f hf hne) ?_ (by simp) idle
    show f.due ≤ (st.fire workshop e).scheduler.current
    rw [hfire, Scheduler.finish_current, hnow]
    exact hdue

end Firing

/-! ### Panics -/

/-- **Panics are contained.**  Wherever in requirements an act panics, they are not satisfied;
    wherever in actions one does, the trigger is over; and in a task it ends this firing.  In
    each case one error is reported, what was done before stays done, and nothing comes after;
    the tasks that were scheduled before go on as planned.  Without a panic no error is reported,
    and the answer is the verdict. -/
theorem panics_are_contained (c : ContextId) :
    (∀ requirements sideEffects,
      (requirementsScript sideEffects requirements).run c = allMet c sideEffects requirements ∧
      Contains c (requirementsScript sideEffects requirements) false
        (.evaluationPanicked "requirements") (isSatisfied c requirements sideEffects)) ∧
    (∀ actions, (actionsScript actions).run c = triggerAll c actions ∧
      Contains c (actionsScript actions) () (.evaluationPanicked "trigger") (trigger c actions)) ∧
    ∀ world h st origin e mode actions a mid message last,
      Course workshop (.start world) h ⟨st, .ticking origin⟩ →
      st.scheduler.nextDue? = some e → e.task = .actions mode c actions →
      (a, mid) ∈ (actionsScript actions).trace c (st.started e) →
      a.perform c mid = .error message last →
      StopsIn ⟨st.started e, .firing origin st e⟩ c (actionsScript actions) a mid last
          (.taskPanicked e.id message) ∧
        EndsAlone st origin e last (.taskPanicked e.id message) := by
  refine ⟨fun requirements sideEffects => ?_, fun actions => ?_, ?_⟩
  · refine ⟨requirementsScript_run c sideEffects requirements, ?_⟩
    rw [isSatisfied_eq_guarded]
    exact guarded_contains c _ "requirements" false
  · refine ⟨actionsScript_run c actions, ?_⟩
    rw [trigger_eq_guarded]
    exact guarded_contains c _ "trigger" ()
  · intro world h st origin e mode actions a mid message last run hnext htask reached panics
    refine ⟨Script.stopsIn trivial reached panics rfl, ?_⟩
    exact endsAlone run hnext htask (Script.run_of_panic reached panics).1

/-- A requirement that panics, negated, as the only alternative. -/
def alarm : Requirement :=
  .mk "||" (.any [.mk "!" (.not (.mk "alarm" (.custom fun _ => .fail "alarm") [])) []]) []

def ringing : Action := .mk "ring" (.constant 1) (.custom (.fail "ring"))

def saying (text : String) : Action := .mk "message" (.constant 1) (.message (.literal text))

/-- A message for later, an action that panics, and a message that is never sent. -/
def routine : List Action :=
  [.mk "delay" (.constant 1) (.delay 2 .sync [saying "later"]), ringing, saying "never"]

theorem panics_are_contained_routine :
    let st : EngineState := { world := {} }
    let e : QueueEntry Work := ⟨1, 0, some 3, .actions .sync 0 [ringing]⟩
    (isSatisfied 0 [alarm] true st).1 = false ∧
    (isSatisfied 0 [alarm] true st).2.world.errors = [.evaluationPanicked "requirements" "alarm"] ∧
    (trigger 0 routine st).2.world.errors = [.evaluationPanicked "trigger" "ring"] ∧
    (∃ k, Course workshop (.start {}) k ⟨(trigger 0 routine st).2, .between⟩ ∧
      .scheduled 0 none 0 2 none (.actions .sync 0 [saying "later"]) ∈ k) ∧
    ∃ h st origin, Course workshop (.start {}) h ⟨st, .ticking origin⟩ ∧
      st.scheduler.nextDue? = some e ∧
      { e with due := 4 } ∈ (st.fire workshop e).scheduler.queue := by
  intro st e
  obtain ⟨requirements, actions, firings⟩ := panics_are_contained 0
  obtain ⟨hanswer, hrefused⟩ := (requirements [alarm] true).2.panics st
    (.check false (.custom fun _ => .fail "alarm") trivial) st "alarm" st (.head _) rfl
  obtain ⟨mid, hmem⟩ : ∃ mid, (Act.run (.custom (.fail "ring")) trivial, mid) ∈
      (actionsScript routine).trace 0 st := ⟨_, .tail _ (.tail _ (.tail _ (.head _)))⟩
  obtain ⟨hstopped, hbroken⟩ := (actions routine).2.panics st _ mid "ring" mid hmem rfl
  obtain ⟨k, run, hk, -⟩ := hbroken.tasks {} [] .refl
  have hdeferred : .scheduled 0 none 0 2 none (.actions .sync 0 [saying "later"]) ∈ k :=
    hk _ _ _ _ _ _ (.tail _ (.head _)) .delay
  -- a timer that panics at its first turn
  have called : Course workshop (.start {}) _ _ :=
    Course.refl.snoc (.call (.scheduleRepeating 1 3 (.actions .sync 0 [ringing])) trivial)
  have begun : Course workshop (.start {}) _ _ := called.snoc (.tick _)
  obtain ⟨-, halone⟩ := firings {} _ _ _ e _ [ringing] (.run (.custom (.fail "ring")) trivial) _
    "ring" _ begun rfl rfl (.tail _ (.head _)) rfl
  refine ⟨?_, ?_, ?_, ⟨k, ?_, hdeferred⟩, _, _, _, begun, rfl, halone.again 3 rfl⟩
  · rw [hanswer]
  · rw [hanswer]
    exact hrefused.errors
  · rw [hstopped]
    exact hbroken.errors
  · rw [hstopped]
    exact run

end RuleEngine
