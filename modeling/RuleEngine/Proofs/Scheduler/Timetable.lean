/-
  RuleEngine/Proofs/Scheduler/Timetable.lean
  ==========================================
  **When tasks fire.**

  The main statement, `Course.fires_as_planned`, says that a task fires at the ticks of
  its plan and at no other, once each, and that it leaves out none until it is
  cancelled.  It holds at every moment of every run: whatever the tasks schedule and
  cancel while they fire, and whether or not their firings fail.
-/
import RuleEngine.Proofs.Scheduler.Standing

namespace RuleEngine

variable {τ ω : Type}

/-! ### Every run keeps the plans -/

/-- Every task that was scheduled in a run follows its plan. -/
theorem Course.follows {w : Workshop τ ω} {world : ω} {h : List (Event τ)} {m : Moment τ ω}
    (run : Course w (.start world) h m) (fits : Fits h) {now id delay : Nat}
    {caller? : Option TaskId} {period? : Option Nat} {task : τ}
    (scheduled : .scheduled now caller? id delay period? task ∈ h) :
    Follows h m id (.of now caller? delay period?) task := by
  induction run with
  | refl => simp at scheduled
  | @snoc h events m m' run step ih =>
    obtain ⟨hfits, hlast⟩ := fits_append.mp fits
    have hm : m.Sound w h := run.sound (Moment.sound_start w world)
    rcases List.mem_append.mp scheduled with hev | hev
    · exact (ih hfits hev).step hm step hlast (hm.scheduled_lt hev)
    · -- the task is new, so that the step is the call that scheduled it
      cases step with
      | call c acting =>
        have hcall := List.mem_singleton.mp hev
        exact Follows.scheduled hm acting hcall (hlast _ hev)
      | change f acting => simp at hev
      | tick st => simp at hev
      | fire due => simp at hev
      | finish done =>
        obtain ⟨_, heq⟩ := Scheduler.eq_of_mem_requeueEvents hev
        cases heq
      | rest drained returned => simp at hev

/-- **Tasks fire as planned.**  At every moment of a run in which no tick number passes
    the end of the counter, a task that was scheduled has fired at ticks of its plan
    only, at none of them twice, and each time as what it was scheduled to be; and as
    long as it was not cancelled it has fired at all ticks of its plan that are over. -/
theorem Course.fires_as_planned {w : Workshop τ ω} {world : ω} {h : List (Event τ)}
    {m : Moment τ ω} (run : Course w (.start world) h m) (fits : Fits h) {now id delay : Nat}
    {caller? : Option TaskId} {period? : Option Nat} {task : τ}
    (scheduled : .scheduled now caller? id delay period? task ∈ h) :
    (firedTicks id h).Pairwise (· < ·) ∧
      (∀ tick e, .fired tick e ∈ h → e.id = id →
        e.task = task ∧ (Plan.of now caller? delay period?).Has tick) ∧
      (¬ WasCancelled id h →
        ∀ tick, (Plan.of now caller? delay period?).Has tick → tick < m.horizon →
          tick ∈ firedTicks id h) := by
  have hf := run.follows fits scheduled
  have honce := fun hp => hf.standing.count_le_one hp
  refine ⟨?_, fun tick e hev hid => ⟨hf.tasks tick e hev hid, ?_⟩, fun hc tick hplan hover => ?_⟩
  · rw [hf.ticks]
    exact Plan.pairwise_nth honce
  · have hmem := mem_firedTicks.mpr ⟨e, hev, hid⟩
    rw [hf.ticks] at hmem
    obtain ⟨k, hk, rfl⟩ := List.mem_map.mp hmem
    refine Plan.has_nth fun hp => ?_
    have := honce hp
    have := List.mem_range.mp hk
    omega
  · obtain ⟨k, hk, hnth⟩ := hf.standing.exists_nth hc hplan hover
    rw [hf.ticks]
    exact List.mem_map.mpr ⟨k, List.mem_range.mpr hk, hnth⟩

/-- A workshop in which one kind of task schedules a task of the other kind, to fire
    within the same tick, whenever it fires. -/
def echoing : Workshop Bool Unit where
  run _ loud st :=
    if loud then { st with scheduler := (st.scheduler.schedule 0 false).2 } else st
  dropped _ w := w
  weight loud := if loud then 2 else 1

/-- What is seen when a loud task is scheduled between two ticks, without a delay, to
    fire at every other tick, and one tick is called. -/
def echo : List (Event Bool) :=
  [.scheduled 0 none 0 0 (some 2) true, .ticked 1, .fired 1 ⟨0, 0, some 2, true⟩,
    .scheduled 1 (some 0) 1 0 none false, .requeued 1 0 2, .fired 1 ⟨1, 1, none, false⟩]

theorem course_echo :
    ∃ st, Course echoing (.start ()) echo ⟨st, .between⟩ ∧ st.scheduler.current = 1 := by
  have called : Course echoing (.start ()) _ _ :=
    Course.refl.snoc (.call (.scheduleRepeating 0 2 true) trivial)
  have fired : Course echoing (.start ()) _ _ := (called.snoc (.tick _)).snoc (.fire rfl)
  have finished : Course echoing (.start ()) _ _ :=
    (fired.snoc (.call (.schedule 0 false) trivial)).snoc (.finish rfl)
  have echoed : Course echoing (.start ()) _ _ := (finished.snoc (.fire rfl)).snoc (.finish rfl)
  exact ⟨_, echoed.snoc (.rest rfl rfl), rfl⟩

theorem fits_echo : Fits echo := by
  intro ev hev
  simp only [echo, List.mem_cons, List.not_mem_nil, or_false] at hev
  rcases hev with rfl | rfl | rfl | rfl | rfl | rfl <;> decide

/-- Both tasks fire at the first tick: the loud one, because the tick at which it was
    due is over, and the one that it scheduled, because it did so within the tick. -/
theorem fires_as_planned_echo :
    ∃ st, Course echoing (.start ()) echo ⟨st, .between⟩ ∧ Fits echo ∧
      1 ∈ firedTicks 0 echo ∧ 1 ∈ firedTicks 1 echo := by
  obtain ⟨st, run, hnow⟩ := course_echo
  have hkept : ∀ id, ¬ WasCancelled id echo := by
    rintro id ⟨now, caller?, hev⟩
    simp [echo] at hev
  have hover : 1 < Moment.horizon (⟨st, .between⟩ : Moment Bool Unit) := by
    change 1 < st.scheduler.current + 1
    rw [hnow]
    decide
  have hloud : Event.scheduled 0 none 0 0 (some 2) true ∈ echo := by simp [echo]
  have hsoft : Event.scheduled 1 (some 0) 1 0 none false ∈ echo := by simp [echo]
  obtain ⟨-, -, loud⟩ := Course.fires_as_planned run fits_echo hloud
  obtain ⟨-, -, soft⟩ := Course.fires_as_planned run fits_echo hsoft
  exact ⟨st, run, fits_echo, loud (hkept 0) 1 ⟨0, rfl⟩ hover, soft (hkept 1) 1 rfl hover⟩

end RuleEngine
