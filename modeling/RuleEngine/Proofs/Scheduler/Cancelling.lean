/-
  RuleEngine/Proofs/Scheduler/Cancelling.lean
  ===========================================
  **What cancelling does.**

  A cancelled task does not fire again, wherever it is cancelled from.  One that waits
  leaves the queue.  One that is firing is not in the queue: if it repeats it is
  marked, and the mark keeps it from being queued again when its firing ends, whether
  or not the firing fails; if it does not repeat nothing is left to be done, and the
  call says so.  All three end in the same situation, a task that is `Moment.Gone`,
  which no step leaves.

  That the call can tell these cases apart rests on the agreement between the queue and
  what is kept beside it (`Scheduler.Consistent`), at every moment of a run.
-/
import RuleEngine.Proofs.Scheduler.Standing

namespace RuleEngine

variable {τ ω : Type} {w : Workshop τ ω} {h events : List (Event τ)} {m m' : Moment τ ω}

/-! ### Tasks that are gone -/

/-- A task got its number, is not queued, and will not be queued again: if it is firing,
    then for the last time. -/
structure Moment.Gone (m : Moment τ ω) (id : TaskId) : Prop where
  given : id < m.scheduler.nextId
  absent : m.scheduler.dueOf? id = none
  last : ∀ {origin before e}, m.phase = .firing origin before e → e.id = id →
    e.period? = none ∨ id ∈ m.scheduler.cancelled

/-- No entry of a task that is gone is queued. -/
theorem Moment.Gone.not_mem {id : TaskId} (hg : m.Gone id) (hm : m.Sound w h) :
    ∀ e ∈ m.scheduler.queue, e.id ≠ id :=
  hm.queue.dueOf_eq_none.mp hg.absent

theorem Moment.Gone.mem_step {id : TaskId} (hg : m.Gone id) (hm : m.Sound w h)
    (step : Step w m events m') : ∀ e ∈ m'.scheduler.queue, e.id ≠ id := by
  have habsent := hg.not_mem hm
  cases step with
  | call c acting =>
    intro e he
    rcases Scheduler.id_of_mem_perform he with he | he
    · exact habsent e he
    · rw [he]
      exact (Nat.ne_of_lt hg.given).symm
  | change f acting => exact habsent
  | tick st => exact habsent
  | fire due => exact fun e he => habsent e ((hm.queue.mem_start_queue due).mp he).1
  | @finish st origin before e done =>
    intro f hf hid
    change f ∈ (before.fire w e).scheduler.queue at hf
    rw [Scheduled.fire_of_done done] at hf
    rcases Scheduler.mem_finish_queue hf with hold | hown
    · exact habsent f hold hid
    · -- it is the task that fires, for the last time
      have heid : e.id = id := hown.symm.trans hid
      rcases hg.last rfl heid with honce | hcancelled
      · rw [Scheduler.finish_once honce] at hf
        exact habsent f hf hid
      · cases hp : e.period? with
        | none =>
          rw [Scheduler.finish_once hp] at hf
          exact habsent f hf hid
        | some period =>
          rw [Scheduler.finish_cancelled hp (heid ▸ hcancelled)] at hf
          exact habsent f hf hid
  | @rest st origin drained returned =>
    obtain ⟨-, htrail⟩ := hm.phase
    have heq : (origin.tick w).2 = st := htrail.tick_eq drained returned
    rw [heq]
    exact habsent

theorem Moment.Gone.last_step {id : TaskId} (hg : m.Gone id) (hm : m.Sound w h)
    (step : Step w m events m') {origin before : Scheduled τ ω} {e : QueueEntry τ}
    (hphase : m'.phase = .firing origin before e) (hid : e.id = id) :
    e.period? = none ∨ id ∈ m'.scheduler.cancelled := by
  cases step with
  | call c acting => exact (hg.last hphase hid).imp_right Scheduler.mem_cancelled_perform
  | change f acting => exact hg.last hphase hid
  | tick st => cases hphase
  | fire due =>
    cases hphase
    exact absurd hid (hg.not_mem hm e (Scheduler.mem_of_nextDue? due))
  | finish done => cases hphase
  | rest drained returned => cases hphase

/-- A task that is gone does not fire, and it stays gone. -/
theorem Moment.Gone.step {id : TaskId} (hg : m.Gone id) (hm : m.Sound w h)
    (step : Step w m events m') : m'.Gone id ∧ ∀ now e, .fired now e ∈ events → e.id ≠ id := by
  constructor
  · exact {
      given := Nat.lt_of_lt_of_le hg.given (step.nextId_le hm)
      absent := (step.sound_queue hm).dueOf_eq_none.mpr (hg.mem_step hm step)
      last := hg.last_step hm step }
  · intro now e hev
    cases step with
    | call c acting => exact absurd (List.mem_singleton.mp hev) Moment.event_ne_fired
    | change f acting => cases hev
    | tick st => cases List.mem_singleton.mp hev
    | fire due =>
      obtain ⟨-, rfl⟩ := Event.fired.inj (List.mem_singleton.mp hev)
      exact hg.not_mem hm e (Scheduler.mem_of_nextDue? due)
    | finish done =>
      obtain ⟨_, heq⟩ := Scheduler.eq_of_mem_requeueEvents hev
      cases heq
    | rest drained returned => cases hev

/-- A task that is gone does not fire any more. -/
theorem Moment.Gone.course {id : TaskId} {k : List (Event τ)} (hg : m.Gone id) (hm : m.Sound w h)
    (run : Course w m k m') : m'.Gone id ∧ firedTicks id k = [] := by
  induction run with
  | refl => exact ⟨hg, rfl⟩
  | snoc run step ih =>
    obtain ⟨hgone, hnone⟩ := ih
    obtain ⟨hgone', hquiet⟩ := hgone.step (run.sound hm) step
    exact ⟨hgone', by rw [firedTicks_append, hnone, firedTicks_eq_nil hquiet]; rfl⟩

/-! ### What is kept beside the queue -/

namespace Scheduler

/-- A task is queued, running or marked as cancelled. -/
def Knows (s : Scheduler τ) (id : TaskId) : Prop :=
  (∃ e ∈ s.queue, e.id = id) ∨ (∃ due, s.dueOf? id = some due) ∨ id ∈ s.running ∨
    id ∈ s.cancelled

/-- The queue and what is kept beside it agree. -/
structure Consistent (s : Scheduler τ) : Prop where
  dueOf_iff : ∀ id due, s.dueOf? id = some due ↔ ∃ e ∈ s.queue, e.due = due ∧ e.id = id
  known_lt : ∀ id, s.Knows id → id < s.nextId
  cancelled_subset : s.cancelled ⊆ s.running
  running_apart : ∀ id ∈ s.running, s.dueOf? id = none

theorem Sound.consistent {s : Scheduler τ} (hs : s.Sound) : s.Consistent where
  dueOf_iff := by
    intro id due
    rw [hs.dueOf_iff]
    exact exists_congr fun e => and_congr_right fun _ => And.comm
  known_lt := by
    rintro id (⟨e, he, rfl⟩ | ⟨due, hdue⟩ | hrunning | hcancelled)
    · exact hs.ids_lt e he
    · obtain ⟨e, he, rfl, -⟩ := hs.dueOf_iff.mp hdue
      exact hs.ids_lt e he
    · exact hs.running_lt id hrunning
    · exact hs.running_lt id (hs.cancelled_running id hcancelled)
  cancelled_subset := fun id hid => hs.cancelled_running id hid
  running_apart := fun id hid => hs.dueOf_eq_none.mpr (hs.running_apart id hid)

end Scheduler

theorem Moment.Sound.idle_between (hm : m.Sound w h) (hphase : m.phase = .between) :
    m.scheduler.running = [] ∧ m.scheduler.cancelled = [] := by
  have hknown := hm.phase
  rw [hphase] at hknown
  have hidle : m.scheduler.running = [] := hknown
  refine ⟨hidle, List.eq_nil_iff_forall_not_mem.mpr fun id hid => ?_⟩
  have hrunning := hm.queue.cancelled_running id hid
  rw [hidle] at hrunning
  cases hrunning

/-! ### Cancelled tasks are gone -/

/-- A task that was found to be cancelled is gone. -/
theorem Moment.Sound.gone_of_found (hm : m.Sound w h) {id : TaskId}
    (found : (m.scheduler.cancel id).1 = true) : (m.perform (.cancel id)).Gone id := by
  have habsent : (m.scheduler.cancel id).2.dueOf? id = none := by
    rw [Scheduler.cancel_dueOf?, if_pos rfl]
  cases hdue : m.scheduler.dueOf? id with
  | some due =>
    obtain ⟨e, he, hid, -⟩ := hm.queue.dueOf_iff.mp hdue
    refine ⟨?_, habsent, fun hphase hfid => ?_⟩
    · change id < (m.scheduler.cancel id).2.nextId
      rw [Scheduler.cancel_nextId, ← hid]
      exact hm.queue.ids_lt e he
    · -- a queued task is not firing
      have hcaller : m.phase.caller? = some id := by
        rw [show m.phase = _ from hphase, Phase.caller?, hfid]
      exact absurd (hid ▸ hcaller) (hm.idle_of_mem he)
  | none =>
    have hrunning : id ∈ m.scheduler.running := by
      by_contra hidle
      rw [Scheduler.cancel_absent hdue hidle] at found
      cases found
    refine ⟨?_, habsent, fun _ _ => Or.inr ?_⟩
    · change id < (m.scheduler.cancel id).2.nextId
      rw [Scheduler.cancel_nextId]
      exact hm.queue.running_lt id hrunning
    · exact Scheduler.mem_cancel_cancelled.mpr (Or.inr ⟨rfl, hdue, hrunning⟩)

/-- A task that there is nothing to cancel of was gone before. -/
theorem Moment.Sound.gone_of_not_found (hm : m.Sound w h) {id : TaskId}
    (missing : (m.scheduler.cancel id).1 = false) (given : id < m.scheduler.nextId) :
    m.perform (.cancel id) = m ∧ m.Gone id := by
  have habsent : m.scheduler.dueOf? id = none := by
    by_contra hsome
    obtain ⟨due, hdue⟩ := Option.ne_none_iff_exists'.mp hsome
    rw [Scheduler.cancel_queued hdue] at missing
    cases missing
  have hidle : id ∉ m.scheduler.running := by
    intro hrunning
    rw [Scheduler.cancel_firing habsent hrunning] at missing
    cases missing
  constructor
  · have hsame : m.scheduler.perform (.cancel id) = m.scheduler :=
      congrArg Prod.snd (Scheduler.cancel_absent habsent hidle)
    rw [Moment.perform, hsame]
    rfl
  · refine ⟨given, habsent, fun {origin before e} hphase hid => Or.inl ?_⟩
    have hknown := hm.phase
    rw [hphase] at hknown
    obtain ⟨-, -, hrunning, -, -⟩ := hknown
    cases hp : e.period? with
    | none => rfl
    | some period =>
      -- a repeating task that fires is running
      rw [hp, Option.isSome_some, if_pos rfl] at hrunning
      refine absurd ?_ hidle
      rw [Moment.scheduler, hrunning, hid]
      exact List.mem_singleton.mpr rfl

/-- **Cancelling is final.**  At every moment of a run the scheduler's collections agree,
    and between two ticks no task is running.  Whoever acts at that moment may cancel a
    task: when the call says that it found the task, no run from there on fires it, and
    when it says that there was nothing to cancel of a task that was scheduled before,
    it changed nothing and no run fires the task either. -/
theorem Course.cancel_is_final {world : ω} (run : Course w (.start world) h m) :
    m.scheduler.Consistent ∧
      (m.phase = .between → m.scheduler.running = [] ∧ m.scheduler.cancelled = []) ∧
      ∀ id, m.phase.Acting →
        ((m.scheduler.cancel id).1 = true →
          ∀ k m', Course w (m.perform (.cancel id)) k m' →
            ∀ now e, .fired now e ∈ k → e.id ≠ id) ∧
        ((m.scheduler.cancel id).1 = false → id < m.scheduler.nextId →
          m.perform (.cancel id) = m ∧
            ∀ k m', Course w m k m' → ∀ now e, .fired now e ∈ k → e.id ≠ id) := by
  have hm : m.Sound w h := run.sound (Moment.sound_start w world)
  refine ⟨hm.queue.consistent, hm.idle_between, fun id acting => ⟨?_, ?_⟩⟩
  · intro found k m' rest now e hev
    have hm' := (Step.call (w := w) (.cancel id) acting).sound hm
    obtain ⟨-, hnone⟩ := (hm.gone_of_found found).course hm' rest
    exact ne_of_firedTicks_eq_nil hnone hev
  · intro missing given
    obtain ⟨hsame, hgone⟩ := hm.gone_of_not_found missing given
    refine ⟨hsame, fun k m' rest now e hev => ?_⟩
    obtain ⟨-, hnone⟩ := hgone.course hm rest
    exact ne_of_firedTicks_eq_nil hnone hev

/-- A workshop in which every task cancels itself and then fails.  The world counts the
    failures. -/
def quitting : Workshop Unit Nat where
  run id _ st := { scheduler := (st.scheduler.cancel id).2, world := st.world + 1 }
  dropped _ failures := failures
  weight _ := 1

/-- The moment at which the second of two tasks starts to act.  It repeats; the first one
    fired once, and its own cancelling found nothing. -/
theorem course_quitting :
    ∃ h m, Course quitting (.start 0) h m ∧ m.phase.caller? = some 1 ∧
      m.phase.Acting ∧ m.scheduler.nextId = 2 ∧ m.scheduler.dueOf? 0 = none ∧
      m.scheduler.dueOf? 1 = none ∧ m.scheduler.running = [1] := by
  have first : Course quitting (.start 0) _ _ :=
    Course.refl.snoc (.call (.schedule 1 ()) trivial)
  have called : Course quitting (.start 0) _ _ :=
    first.snoc (.call (.scheduleRepeating 1 1 ()) trivial)
  have fired : Course quitting (.start 0) _ _ := (called.snoc (.tick _)).snoc (.fire rfl)
  have asked : Course quitting (.start 0) _ _ := fired.snoc (.call (.cancel 0) trivial)
  have failed : Course quitting (.start 0) _ _ :=
    (asked.snoc (.change (· + 1) trivial)).snoc (.finish rfl)
  exact ⟨_, _, failed.snoc (.fire rfl), rfl, trivial, rfl, rfl, rfl, rfl⟩

/-- The second task cancels itself while it fires, and does not fire again although the
    firing fails; of the first one there is nothing to cancel. -/
theorem cancel_is_final_quitting :
    ∃ h m, Course quitting (.start 0) h m ∧ (m.scheduler.cancel 1).1 = true ∧
      (∀ k m', Course quitting (m.perform (.cancel 1)) k m' →
        ∀ now e, .fired now e ∈ k → e.id ≠ 1) ∧
      (m.scheduler.cancel 0).1 = false ∧ m.perform (.cancel 0) = m ∧
      ∀ k m', Course quitting m k m' → ∀ now e, .fired now e ∈ k → e.id ≠ 0 := by
  obtain ⟨h, m, run, -, acting, hnext, hfirst, hsecond, hrunning⟩ := course_quitting
  obtain ⟨-, -, hfinal⟩ := Course.cancel_is_final run
  have found : (m.scheduler.cancel 1).1 = true := by
    rw [Scheduler.cancel_firing hsecond (by simp [hrunning])]
  have missing : (m.scheduler.cancel 0).1 = false := by
    rw [Scheduler.cancel_absent hfirst (by simp [hrunning])]
  obtain ⟨hsame, hnever⟩ := (hfinal 0 acting).2 missing (by rw [hnext]; decide)
  exact ⟨h, m, run, found, (hfinal 1 acting).1 found, missing, hsame, hnever⟩

end RuleEngine
