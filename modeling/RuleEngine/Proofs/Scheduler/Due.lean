/-
  RuleEngine/Proofs/Scheduler/Due.lean
  ====================================
  **A tick is over when nothing is due.**

  An entry that is due while a tick goes on is queued until the tick fires it, unless it is
  cancelled before its turn (`Step.accounts`).  So it has been dealt with when the tick is
  over (`Course.fires_due`), whatever the other tasks of the tick do.
-/
import RuleEngine.Proofs.Scheduler.Standing

namespace RuleEngine

variable {τ ω : Type} {w : Workshop τ ω} {h k events : List (Event τ)} {m m' : Moment τ ω}
  {f : QueueEntry τ}

/-- Of an entry that is due it is seen that it fired, or that it was cancelled; or else it is
    queued, and the tick is not over. -/
def Moment.Accounts (m : Moment τ ω) (h : List (Event τ)) (f : QueueEntry τ) : Prop :=
  (f ∈ m.scheduler.queue ∧ f.due ≤ m.now ∧ m.phase ≠ .between) ∨
    (∃ now, .fired now f ∈ h) ∨ WasCancelled f.id h

theorem Moment.Accounts.of_seen (seen : (∃ now, .fired now f ∈ h) ∨ WasCancelled f.id h) :
    m.Accounts (h ++ events) f := by
  rcases seen with ⟨now, hfired⟩ | hcancelled
  · exact .inr (.inl ⟨now, List.mem_append_left _ hfired⟩)
  · exact .inr (.inr (hcancelled.append _))

/-- A call leaves an entry in the queue, or is seen to cancel it. -/
theorem Moment.Sound.mem_perform_or_cancelled (hm : m.Sound w h) (queued : f ∈ m.scheduler.queue)
    (c : Call τ) : f ∈ (m.perform c).scheduler.queue ∨ WasCancelled f.id [m.event c] := by
  by_cases hc : c = .cancel f.id
  · subst hc
    right
    refine ⟨m.now, m.phase.caller?, List.mem_singleton.mpr ?_⟩
    simp only [event, Scheduler.cancel_queued (hm.queue.dueOf_of_mem queued)]
  · left
    refine (perform_keeps hm.queue ?_).1 f queued rfl
    rintro other rfl heq
    exact hc (congrArg Call.cancel heq)

/-- Within a tick an entry that is due stays accounted for at every step. -/
theorem Step.accounts (hm : m.Sound w h) (step : Step w m events m')
    (within : ∀ now, .ticked now ∉ events) (accounts : m.Accounts k f) :
    m'.Accounts (k ++ events) f := by
  rcases accounts with ⟨queued, due, going⟩ | seen
  swap
  · exact .of_seen seen
  cases step with
  | call c acting =>
    rcases hm.mem_perform_or_cancelled queued c with hqueued | ⟨now, caller?, hcancelled⟩
    · have hnow : (m.perform c).now = m.now := Scheduler.perform_current m.scheduler c
      exact .inl ⟨hqueued, hnow ▸ due, going⟩
    · exact .inr (.inr ⟨now, caller?, List.mem_append_right _ hcancelled⟩)
  | change g acting => exact .inl ⟨queued, due, going⟩
  | tick st => exact absurd rfl going
  | @fire st origin e hnext =>
    by_cases hid : f.id = e.id
    · have hsame : f = e := hm.queue.eq_of_id_eq queued (Scheduler.mem_of_nextDue? hnext) hid
      refine .inr (.inl ⟨st.scheduler.current, List.mem_append_right _ ?_⟩)
      rw [hsame]
      exact List.mem_singleton_self _
    · exact .inl ⟨(hm.queue.mem_start_queue hnext).mpr ⟨queued, hid⟩, due, nofun⟩
  | @finish st origin before e done =>
    have hscheduler := Scheduled.fire_of_done done
    refine .inl ⟨?_, ?_, nofun⟩
    · rw [Moment.scheduler, hscheduler]
      exact Scheduler.mem_finish_of_mem queued
    · rw [Moment.now, Moment.scheduler, hscheduler, Scheduler.finish_current]
      exact due
  | @rest st origin drained returned =>
    -- nothing is due when the tick is over
    exact absurd due (Nat.not_le.mpr (hm.queue.lt_due_of_nextDue?_eq_none drained f queued))

/-- **A tick fires what is due.**  An entry that is due while a tick goes on has fired when the
    tick is over, unless it was cancelled before. -/
theorem Course.fires_due (hm : m.Sound w h) (run : Course w m k m')
    (within : ∀ now, .ticked now ∉ k) (queued : f ∈ m.scheduler.queue) (due : f.due ≤ m.now)
    (going : m.phase ≠ .between) (idle : m'.phase = .between) :
    (∃ now, .fired now f ∈ k) ∨ WasCancelled f.id k := by
  have haccounts : m'.Accounts k f := by
    clear idle
    induction run with
    | refl => exact .inl ⟨queued, due, going⟩
    | snoc run step ih =>
      have hearlier := ih fun now hmem => within now (List.mem_append_left _ hmem)
      exact step.accounts (run.sound hm) (fun now hmem => within now (List.mem_append_right _ hmem))
        hearlier
  rcases haccounts with ⟨-, -, hgoing⟩ | seen
  · exact absurd idle hgoing
  · exact seen

end RuleEngine
