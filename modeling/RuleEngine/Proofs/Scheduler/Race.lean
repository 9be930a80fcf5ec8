/-
  RuleEngine/Proofs/Scheduler/Race.lean
  =====================================
  **A repeating task, and a task that cancels it.**

  A task that is to repeat for a while only is scheduled together with another one,
  the stopper, which cancels it.  Both are entries of their own, so which firings
  still happen is settled by the order of the queue: at every firing of the task the
  stopper is queued behind it, and at the firing of the stopper the task is.  So the
  task fires as long as its entry is due no later than the stopper, the tick of the
  stopper included since the task has the smaller number (`Race.settled`).

  The first part of the file cuts runs at a firing.
-/
import RuleEngine.Proofs.Scheduler.Cancelling

namespace RuleEngine

variable {τ ω : Type} {w : Workshop τ ω} {h events : List (Event τ)} {m m' : Moment τ ω}

/-! ### Cutting a run at a firing -/

/-- A run in which an entry fired can be cut where it did. -/
theorem Course.exists_fire (run : Course w m h m') {now : Nat} {e : QueueEntry τ}
    (hev : .fired now e ∈ h) :
    ∃ h₁ h₂ st origin, Course w m h₁ ⟨st, .ticking origin⟩ ∧ st.scheduler.nextDue? = some e ∧
      st.scheduler.current = now ∧ Course w ⟨st.started e, .firing origin st e⟩ h₂ m' ∧
      h = h₁ ++ [.fired now e] ++ h₂ := by
  induction run with
  | refl => simp at hev
  | @snoc h events m' m'' run step ih =>
    rcases List.mem_append.mp hev with hev | hev
    · obtain ⟨h₁, h₂, st, origin, first, due, hnow, second, rfl⟩ := ih hev
      exact ⟨h₁, h₂ ++ events, st, origin, first, due, hnow, second.snoc step,
        List.append_assoc _ _ _⟩
    · cases step with
      | call c acting => exact absurd (List.mem_singleton.mp hev) Moment.event_ne_fired
      | change f acting => simp at hev
      | tick st => simp at hev
      | @fire st origin f due =>
        obtain ⟨rfl, rfl⟩ := Event.fired.inj (List.mem_singleton.mp hev)
        exact ⟨_, [], st, origin, run, due, rfl, .refl, (List.append_nil _).symm⟩
      | finish done =>
        obtain ⟨_, heq⟩ := Scheduler.eq_of_mem_requeueEvents hev
        cases heq
      | rest drained returned => simp at hev

/-- A run that starts within a firing either does not leave it, or goes through the
    state that the firing ends in.  Nothing else fires before. -/
theorem Course.of_firing {st origin before : Scheduled τ ω} {e : QueueEntry τ}
    (run : Course w ⟨st, .firing origin before e⟩ h m') :
    (∀ now f, Event.fired now f ∉ h) ∧ m'.phase = .firing origin before e ∨
      ∃ h₁ h₂, h = h₁ ++ h₂ ∧ (∀ now f, Event.fired now f ∉ h₁) ∧
        Course w ⟨st, .firing origin before e⟩ h₁ ⟨before.fire w e, .ticking origin⟩ ∧
        Course w ⟨before.fire w e, .ticking origin⟩ h₂ m' := by
  induction run with
  | refl => exact Or.inl ⟨by simp, rfl⟩
  | @snoc h events m' m'' run step ih =>
    rcases ih with ⟨hquiet, hphase⟩ | ⟨h₁, h₂, rfl, hquiet, first, rest⟩
    · cases step with
      | call c acting =>
        refine Or.inl ⟨fun now f hev => ?_, hphase⟩
        rcases List.mem_append.mp hev with hev | hev
        · exact hquiet now f hev
        · exact Moment.event_ne_fired (List.mem_singleton.mp hev)
      | change f acting => exact Or.inl ⟨by simpa using hquiet, hphase⟩
      | tick st => cases hphase
      | fire due => cases hphase
      | @finish st _ _ _ done =>
        cases hphase
        refine Or.inr ⟨_, [], (List.append_nil _).symm, fun now f hev => ?_,
          run.snoc (.finish done), .refl⟩
        rcases List.mem_append.mp hev with hev | hev
        · exact hquiet now f hev
        · obtain ⟨_, heq⟩ := Scheduler.eq_of_mem_requeueEvents hev
          cases heq
      | rest drained returned => cases hphase
    · exact Or.inr ⟨h₁, h₂ ++ events, List.append_assoc _ _ _, hquiet, first, rest.snoc step⟩

/-- A task that makes a call is firing, so that it was seen to fire unless it did so at
    the beginning. -/
theorem Course.fired_of_caller (run : Course w m h m') {id : TaskId}
    (hidle : m.phase.caller? ≠ some id) :
    (m'.phase.caller? = some id → firedTicks id h ≠ []) ∧
      ∀ now other found, .cancelled now (some id) other found ∈ h → firedTicks id h ≠ [] := by
  induction run with
  | refl => exact ⟨fun hcaller => absurd hcaller hidle, by simp⟩
  | @snoc h events m' m'' run step ih =>
    obtain ⟨hphase, hcalls⟩ := ih
    have hkeep : firedTicks id h ≠ [] → firedTicks id (h ++ events) ≠ [] := by
      rw [firedTicks_append]
      exact fun hne => List.append_ne_nil_of_left_ne_nil hne _
    have hearlier : (∀ now other found, .cancelled now (some id) other found ∉ events) →
        ∀ now other found, .cancelled now (some id) other found ∈ h ++ events →
          firedTicks id (h ++ events) ≠ [] := by
      intro hnone now other found hev
      rcases List.mem_append.mp hev with hev | hev
      · exact hkeep (hcalls now other found hev)
      · exact absurd hev (hnone now other found)
    cases step with
    | call c acting =>
      refine ⟨fun hcaller => hkeep (hphase hcaller), fun now other found hev => hkeep ?_⟩
      rcases List.mem_append.mp hev with hev | hev
      · exact hcalls now other found hev
      · refine hphase ?_
        have heq := List.mem_singleton.mp hev
        cases c with
        | schedule delay task => simp [Moment.event] at heq
        | scheduleRepeating initial period task => simp [Moment.event] at heq
        | cancel other' =>
          simp only [Moment.event, Event.cancelled.injEq] at heq
          exact heq.2.1.symm
    | change f acting => exact ⟨fun hcaller => hkeep (hphase hcaller), hearlier (by simp)⟩
    | tick st => exact ⟨fun hcaller => by simp [Phase.caller?] at hcaller, hearlier (by simp)⟩
    | @fire st origin e due =>
      refine ⟨fun hcaller => ?_, hearlier (by simp)⟩
      have hid : e.id = id := Option.some.inj hcaller
      rw [firedTicks_append]
      simp [firedTicks, hid]
    | finish done =>
      refine ⟨fun hcaller => by simp [Phase.caller?] at hcaller,
        hearlier fun now other found hev => ?_⟩
      obtain ⟨_, heq⟩ := Scheduler.eq_of_mem_requeueEvents hev
      cases heq
    | rest drained returned =>
      exact ⟨fun hcaller => by simp [Phase.caller?] at hcaller, hearlier (by simp)⟩

/-! ### The race -/

/-- A repeating task and its stopper have been scheduled, and neither has fired. -/
structure Race (w : Workshop τ ω) (m : Moment τ ω) (id stopper : TaskId) (plan limit : Plan)
    (task stop : τ) : Prop where
  sound : m.Sound w []
  follows : Follows [] m id plan task
  stopper_follows : Follows [] m stopper limit stop
  first : id < stopper
  given : stopper < m.scheduler.nextId
  repeats : ∃ period, plan.period? = some period ∧ 0 < period
  once : limit.period? = none
  stops : ∀ st, (w.run stopper stop st).scheduler = (st.scheduler.cancel id).2

/-- Nobody but the stopper cancels one of the two. -/
def Undisturbed (id stopper : TaskId) (h : List (Event τ)) : Prop :=
  ∀ now caller? other, .cancelled now caller? other true ∈ h → other = id ∨ other = stopper →
    caller? = some stopper

theorem Undisturbed.of_append {id stopper : TaskId} {h k : List (Event τ)}
    (alone : Undisturbed id stopper (h ++ k)) : Undisturbed id stopper h :=
  fun now caller? other hev => alone now caller? other (List.mem_append_left k hev)

theorem Follows.exists_mem {id : TaskId} {plan : Plan} {task : τ} {st origin : Scheduled τ ω}
    (hf : Follows h ⟨st, .ticking origin⟩ id plan task) (hc : ¬ WasCancelled id h)
    (hmore : plan.period? = none → firedTicks id h = []) :
    ∃ e ∈ st.scheduler.queue, e.id = id ∧ e.due = plan.dueAt (firedTicks id h).length := by
  cases hf.standing with
  | waiting e queued id_eq period_eq task_eq awaits once => exact ⟨e, queued, id_eq, awaits.2.1⟩
  | firing j o b e phase_eq id_eq period_eq task_eq count turn once marked => cases phase_eq
  | ended absent idle reason once =>
    rcases reason with hcancelled | ⟨hp, hk⟩
    · exact absurd hcancelled hc
    · rw [hmore hp] at hk
      cases hk

namespace Race

variable {id stopper : TaskId} {plan limit : Plan} {task stop : τ}

theorem idle (race : Race w m id stopper plan limit task stop) :
    m.phase.caller? ≠ some stopper := by
  intro hcaller
  cases race.stopper_follows.standing with
  | waiting e queued id_eq period_eq task_eq awaits once =>
    exact race.sound.idle_of_mem queued (id_eq ▸ hcaller)
  | firing j o b e phase_eq id_eq period_eq task_eq count turn once marked => cases count
  | ended absent idle reason once => exact idle hcaller

theorem not_cancelled (race : Race w m id stopper plan limit task stop) (run : Course w m h m')
    (alone : Undisturbed id stopper h) (hnone : firedTicks stopper h = []) {other : TaskId}
    (hother : other = id ∨ other = stopper) : ¬ WasCancelled other h := by
  rintro ⟨now, caller?, hev⟩
  have hcaller := alone now caller? other hev hother
  rw [hcaller] at hev
  exact (run.fired_of_caller race.idle).2 now other true hev hnone

theorem exists_mem (race : Race w m id stopper plan limit task stop) {st origin : Scheduled τ ω}
    (run : Course w m h ⟨st, .ticking origin⟩) (fits : Fits h) (alone : Undisturbed id stopper h)
    (hnone : firedTicks stopper h = []) :
    (∃ e ∈ st.scheduler.queue, e.id = id ∧ e.due = plan.dueAt (firedTicks id h).length) ∧
      ∃ e ∈ st.scheduler.queue, e.id = stopper ∧ e.due = limit.due := by
  obtain ⟨period, hperiod, -⟩ := race.repeats
  have hgiven : id < m.scheduler.nextId := Nat.lt_trans race.first race.given
  have htask := race.follows.course race.sound hgiven run fits
  have hstopper := race.stopper_follows.course race.sound race.given run fits
  have hkept := race.not_cancelled run alone hnone (Or.inl rfl)
  have hkept' := race.not_cancelled run alone hnone (Or.inr rfl)
  constructor
  · exact htask.exists_mem hkept fun hp => by simp [hperiod] at hp
  · obtain ⟨e, he, hid, hdue⟩ := hstopper.exists_mem hkept' fun _ => hnone
    rw [List.nil_append, hnone] at hdue
    exact ⟨e, he, hid, hdue⟩

theorem due_le (race : Race w m id stopper plan limit task stop) {st origin : Scheduled τ ω}
    (run : Course w m h ⟨st, .ticking origin⟩) (fits : Fits h) (alone : Undisturbed id stopper h)
    (hnone : firedTicks stopper h = []) {e : QueueEntry τ} (due : st.scheduler.nextDue? = some e)
    (hid : e.id = id) : plan.dueAt (firedTicks id h).length ≤ limit.due := by
  have hm : Moment.Sound w h ⟨st, .ticking origin⟩ := run.sound race.sound
  obtain ⟨⟨f, hf, hfid, hfdue⟩, g, hg, hgid, hgdue⟩ := race.exists_mem run fits alone hnone
  obtain rfl := hm.queue.eq_of_id_eq hf (Scheduler.mem_of_nextDue? due) (hfid.trans hid.symm)
  have hne : g.id ≠ f.id := by
    rw [hgid, hid]
    exact (Nat.ne_of_lt race.first).symm
  rw [← hfdue, ← hgdue]
  exact QueueEntry.due_le_of_before (hm.queue.before_of_nextDue? due hg hne)

theorem lt_due (race : Race w m id stopper plan limit task stop) {st origin : Scheduled τ ω}
    (run : Course w m h ⟨st, .ticking origin⟩) (fits : Fits h) (alone : Undisturbed id stopper h)
    (hnone : firedTicks stopper h = []) {e : QueueEntry τ} (due : st.scheduler.nextDue? = some e)
    (hid : e.id = stopper) : limit.due < plan.dueAt (firedTicks id h).length := by
  have hm : Moment.Sound w h ⟨st, .ticking origin⟩ := run.sound race.sound
  obtain ⟨⟨f, hf, hfid, hfdue⟩, g, hg, hgid, hgdue⟩ := race.exists_mem run fits alone hnone
  obtain rfl := hm.queue.eq_of_id_eq hg (Scheduler.mem_of_nextDue? due) (hgid.trans hid.symm)
  have hne : f.id ≠ g.id := by
    rw [hfid, hgid]
    exact Nat.ne_of_lt race.first
  rw [← hfdue, ← hgdue]
  rcases (QueueEntry.before_iff g f).mp (hm.queue.before_of_nextDue? due hf hne) with hlt | ⟨-, hlt⟩
  · exact hlt
  · -- at one tick the task comes first, since it has the smaller number
    rw [hgid, hfid] at hlt
    exact absurd hlt (Nat.lt_asymm race.first)

theorem forall_due_le (race : Race w m id stopper plan limit task stop) (run : Course w m h m')
    (fits : Fits h) (alone : Undisturbed id stopper h) (hnone : firedTicks stopper h = []) {j : Nat}
    (hj : j < (firedTicks id h).length) : plan.dueAt j ≤ limit.due := by
  obtain ⟨period, hperiod, hpos⟩ := race.repeats
  have hgiven : id < m.scheduler.nextId := Nat.lt_trans race.first race.given
  have hmem : plan.nth j ∈ firedTicks id h := by
    have htask : Follows h m' id plan task := race.follows.course race.sound hgiven run fits
    rw [htask.ticks]
    exact List.mem_map_of_mem (List.mem_range.mpr hj)
  obtain ⟨e, hev, hid⟩ := mem_firedTicks.mp hmem
  obtain ⟨h₁, h₂, st, origin, before, due, hnow, -, rfl⟩ := run.exists_fire hev
  have hfits : Fits h₁ := (fits_append.mp (fits_append.mp fits).1).1
  have halone : Undisturbed id stopper h₁ := alone.of_append.of_append
  have hnone' : firedTicks stopper h₁ = [] := by
    rw [firedTicks_append, firedTicks_append] at hnone
    exact List.append_eq_nil_iff.mp (List.append_eq_nil_iff.mp hnone).1 |>.1
  have hm : Moment.Sound w h₁ ⟨st, .ticking origin⟩ := before.sound race.sound
  have htask := race.follows.course race.sound hgiven before hfits
  obtain ⟨hturn, -⟩ := htask.standing.fire_own hm due hid []
  have hcount : j = (firedTicks id h₁).length :=
    Plan.nth_injective hperiod hpos (hnow.symm.trans hturn)
  rw [hcount]
  exact race.due_le before hfits halone hnone' due hid

theorem stopper_fires (race : Race w m id stopper plan limit task stop) (run : Course w m h m')
    (fits : Fits h) (alone : Undisturbed id stopper h) (hover : limit.first < m'.horizon) :
    ∃ now e, .fired now e ∈ h ∧ e.id = stopper := by
  by_contra hnever
  have hnone : firedTicks stopper h = [] :=
    firedTicks_eq_nil fun now e hev hid => hnever ⟨now, e, hev, hid⟩
  have hkept := race.not_cancelled run alone hnone (Or.inr rfl)
  have hstopper := race.stopper_follows.course race.sound race.given run fits
  have hplan : limit.Has limit.first := by simp only [Plan.Has, race.once]
  obtain ⟨j, hj, -⟩ := hstopper.standing.exists_nth hkept hplan hover
  rw [List.nil_append, hnone] at hj
  exact absurd hj (Nat.not_lt_zero j)

/-- When the stopper fires, both it and the task that it stops are gone. -/
theorem gone_of_fire (race : Race w m id stopper plan limit task stop) {st origin : Scheduled τ ω}
    (run : Course w m h ⟨st, .ticking origin⟩) (fits : Fits h) {e : QueueEntry τ}
    (due : st.scheduler.nextDue? = some e) (hid : e.id = stopper) :
    Moment.Gone ⟨st.fire w e, .ticking origin⟩ id ∧
      Moment.Gone ⟨st.fire w e, .ticking origin⟩ stopper := by
  have hm : Moment.Sound w h ⟨st, .ticking origin⟩ := run.sound race.sound
  have hstopper : Follows h ⟨st, .ticking origin⟩ stopper limit stop :=
    race.stopper_follows.course race.sound race.given run fits
  obtain ⟨-, -, htask, hfiring⟩ := hstopper.standing.fire_own hm due hid []
  have honce : e.period? = none := by
    cases hfiring with
    | waiting f queued id_eq period_eq task_eq awaits once =>
      exact absurd (id_eq.trans hid.symm) ((hm.queue.mem_start_queue due).mp queued).2
    | firing j o b f phase_eq id_eq period_eq task_eq count turn once marked =>
      cases phase_eq
      exact period_eq.trans race.once
    | ended absent idle reason once => exact absurd (congrArg some hid) idle
  have hscheduler : (st.fire w e).scheduler = ((st.scheduler.start e).cancel id).2 := by
    rw [Scheduled.fire_eq, Scheduler.finish_once honce, hid, htask]
    exact race.stops _
  have hgiven : m.scheduler.nextId ≤ (st.fire w e).scheduler.nextId := by
    rw [hscheduler, Scheduler.cancel_nextId]
    exact run.nextId_le race.sound
  have hdueOf : ∀ other, (st.fire w e).scheduler.dueOf? other =
      if other = id then none else if other = e.id then none else st.scheduler.dueOf? other := by
    intro other
    rw [hscheduler, Scheduler.cancel_dueOf?, Scheduler.start_dueOf?]
  refine ⟨⟨?_, ?_, fun hphase => by cases hphase⟩, ?_, ?_, fun hphase => by cases hphase⟩
  · exact Nat.lt_of_lt_of_le (Nat.lt_trans race.first race.given) hgiven
  · rw [Moment.scheduler, hdueOf, if_pos rfl]
  · exact Nat.lt_of_lt_of_le race.given hgiven
  · rw [Moment.scheduler, hdueOf, if_neg (Nat.ne_of_lt race.first).symm, if_pos hid.symm]

theorem phase_ne (race : Race w m id stopper plan limit task stop) (run : Course w m h m')
    (fits : Fits h) (hover : limit.first < m'.horizon) : m'.phase.caller? ≠ some stopper := by
  intro hcaller
  have hstopper : Follows h m' stopper limit stop :=
    race.stopper_follows.course race.sound race.given run fits
  have hm : m'.Sound w h := run.sound race.sound
  cases hstopper.standing with
  | waiting e queued id_eq period_eq task_eq awaits once =>
    exact hm.idle_of_mem queued (id_eq ▸ hcaller)
  | firing j o b e phase_eq id_eq period_eq task_eq count turn once marked =>
    have hhorizon : m'.horizon = limit.first := by
      rw [Moment.horizon, phase_eq]
      exact turn.trans (by rw [once race.once, Plan.nth_zero])
    rw [hhorizon] at hover
    exact Nat.lt_irrefl _ hover
  | ended absent idle reason once => exact idle hcaller

/-- **Who wins at every turn.**  When the stopper's turn is over, the task has fired at
    exactly those turns that it was due at no later than the stopper, and both are
    gone for good. -/
theorem settled (race : Race w m id stopper plan limit task stop) (run : Course w m h m')
    (fits : Fits h) (alone : Undisturbed id stopper h) (hover : limit.first < m'.horizon) :
    limit.due < plan.dueAt (firedTicks id h).length ∧
      (∀ j < (firedTicks id h).length, plan.dueAt j ≤ limit.due) ∧
      m'.Gone id ∧ m'.Gone stopper := by
  obtain ⟨now, e, hev, hid⟩ := race.stopper_fires run fits alone hover
  obtain ⟨h₁, h₂, st, origin, before, due, hnow, after, rfl⟩ := run.exists_fire hev
  have hfits : Fits h₁ := (fits_append.mp (fits_append.mp fits).1).1
  have halone : Undisturbed id stopper h₁ := alone.of_append.of_append
  have hm : Moment.Sound w h₁ ⟨st, .ticking origin⟩ := before.sound race.sound
  -- the stopper fires once only, so that it has not done so before
  have hstopper : Follows h₁ ⟨st, .ticking origin⟩ stopper limit stop :=
    race.stopper_follows.course race.sound race.given before hfits
  have hnone : firedTicks stopper h₁ = [] := by
    obtain ⟨-, -, -, hfiring⟩ := hstopper.standing.fire_own hm due hid []
    have hcount := hfiring.count_le_one race.once
    exact List.length_eq_zero_iff.mp (Nat.le_zero.mp (Nat.le_of_succ_le_succ hcount))
  obtain ⟨hgone, hgone'⟩ := race.gone_of_fire before hfits due hid
  rcases after.of_firing with ⟨-, hphase⟩ | ⟨k₁, k₂, rfl, hquiet, firing, rest⟩
  · refine absurd ?_ (race.phase_ne run fits hover)
    rw [hphase]
    exact congrArg some hid
  · have hm' := firing.sound ((Step.fire due).sound hm)
    obtain ⟨hend, hrest⟩ := hgone.course hm' rest
    obtain ⟨hend', -⟩ := hgone'.course hm' rest
    have hfired : firedTicks id (h₁ ++ [.fired now e] ++ (k₁ ++ k₂)) = firedTicks id h₁ := by
      have hne : e.id ≠ id := hid ▸ (Nat.ne_of_lt race.first).symm
      have hown : firedTicks id [.fired now e] = [] := by simp [firedTicks, hne]
      have hk : firedTicks id k₁ = [] :=
        firedTicks_eq_nil fun now f hev => absurd hev (hquiet now f)
      simp only [firedTicks_append, hown, hk, hrest, List.append_nil]
    rw [hfired]
    exact ⟨race.lt_due before hfits halone hnone due hid,
      fun j hj => race.forall_due_le before hfits halone hnone hj, hend, hend'⟩

end Race

end RuleEngine
