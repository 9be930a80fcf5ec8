/-
  RuleEngine/Proofs/Scheduler/Load.lean
  =====================================
  **Why a tick comes to an end.**

  A tick fires until nothing is due, and firings queue new entries that may be due at
  once.  What goes down is the load: the firings that the due entries can still lead to.
  A firing takes the weight of its task out of it, and what the task schedules brings
  back less than that (`Workshop.Thrifty`).  A repeating task is queued again for a
  later tick, out of the load, as long as the sum of the tick and the period does not
  wrap.  So the loop ends within as many firings as the load is at the beginning
  (`Scheduled.tick_ends`).  Where the sum wraps, it need not end (`Scheduled.Spins.fireDue`).

  Which tasks a queue may hold is a predicate on a task and its period, since the tick
  that an entry is due at and the number of its task have no part in the argument.
-/
import Mathlib.Algebra.Order.BigOperators.Group.List
import Mathlib.Algebra.Order.Group.Nat
import Mathlib.Algebra.Ring.Nat
import RuleEngine.Proofs.Scheduler.Invariant

namespace RuleEngine

variable {τ ω : Type}

/-! ### The weight of calls -/

def Call.weight (w : Workshop τ ω) : Call τ → Nat
  | schedule _ task => w.weight task
  | scheduleRepeating _ _ task => w.weight task
  | cancel _ => 0

def callsWeight (w : Workshop τ ω) (calls : List (Call τ)) : Nat :=
  (calls.map (Call.weight w)).sum

theorem callsWeight_append (w : Workshop τ ω) (first second : List (Call τ)) :
    callsWeight w (first ++ second) = callsWeight w first + callsWeight w second := by
  simp [callsWeight]

/-! ### The load -/

namespace Scheduled

variable (w : Workshop τ ω)

def share (now : Nat) (e : QueueEntry τ) : Nat := if e.due ≤ now then w.weight e.task else 0

theorem share_le_weight (now : Nat) (e : QueueEntry τ) : share w now e ≤ w.weight e.task := by
  unfold share
  split
  · exact Nat.le_refl _
  · exact Nat.zero_le _

theorem load_eq_sum (s : Scheduler τ) : load w s = (s.queue.map (share w s.current)).sum := by
  unfold load
  induction s.queue with
  | nil => rfl
  | cons e rest ih =>
    by_cases hdue : e.due ≤ s.current
    · rw [List.filter_cons_of_pos (by simpa using hdue), List.foldr_cons, ih, List.map_cons,
        List.sum_cons, share, if_pos hdue]
    · rw [List.filter_cons_of_neg (by simpa using hdue), ih, List.map_cons, List.sum_cons, share,
        if_neg hdue, Nat.zero_add]

theorem load_push (s : Scheduler τ) (e : QueueEntry τ) :
    load w (s.push e) = share w s.current e + load w s := by
  rw [load_eq_sum, load_eq_sum]
  have hperm := (Scheduler.insertByDue_perm e s.queue).map (share w s.current)
  change ((Scheduler.insertByDue e s.queue).map (share w s.current)).sum = _
  rw [hperm.sum_nat, List.map_cons, List.sum_cons]

theorem load_add_le (s : Scheduler τ) (delay : Nat) (period? : Option Nat) (task : τ) :
    load w (s.add delay period? task).2 ≤ load w s + w.weight task := by
  have hpush := load_push w { s with nextId := s.nextId + 1 }
    ⟨(s.current + delay) % tickSpan, s.nextId, period?, task⟩
  have hshare := share_le_weight w s.current
    ⟨(s.current + delay) % tickSpan, s.nextId, period?, task⟩
  change load w (Scheduler.push _ _) ≤ _
  rw [hpush, Nat.add_comm]
  exact Nat.add_le_add_left hshare _

theorem load_cancel_le (s : Scheduler τ) (id : TaskId) : load w (s.cancel id).2 ≤ load w s := by
  rw [load_eq_sum, load_eq_sum, Scheduler.cancel_current]
  exact (Scheduler.cancel_queue_sublist.map _).sum_le_sum fun _ _ => Nat.zero_le _

theorem load_perform_le (s : Scheduler τ) (c : Call τ) :
    load w (s.perform c) ≤ load w s + c.weight w := by
  cases c with
  | schedule delay task => exact load_add_le w s delay none task
  | scheduleRepeating initial period task => exact load_add_le w s initial _ task
  | cancel id => exact load_cancel_le w s id

theorem load_performAll_le (s : Scheduler τ) (calls : List (Call τ)) :
    load w (s.performAll calls) ≤ load w s + callsWeight w calls := by
  induction calls generalizing s with
  | nil => exact Nat.le_refl _
  | cons c rest ih =>
    have hfirst := load_perform_le w s c
    have hrest := ih (s.perform c)
    change load w ((s.perform c).performAll rest) ≤ _
    simp only [callsWeight, List.map_cons, List.sum_cons] at hrest ⊢
    omega

variable {w}

/-- The entry that fires takes its weight out of the load. -/
theorem load_start {s : Scheduler τ} {e : QueueEntry τ} (hnext : s.nextDue? = some e) :
    load w s = w.weight e.task + load w (s.start e) := by
  obtain ⟨hqueue, hdue⟩ := Scheduler.nextDue?_eq_some.mp hnext
  rw [load_eq_sum, load_eq_sum, hqueue, List.map_cons, List.sum_cons, share, if_pos hdue]
  rfl

/-- A repeating task that is queued again for a later tick does not add to the load. -/
theorem load_finish {s : Scheduler τ} {e : QueueEntry τ}
    (hlater : ∀ period, e.period? = some period → s.current < (s.current + period) % tickSpan) :
    load w (s.finish e) = load w s := by
  cases hp : e.period? with
  | none => rw [Scheduler.finish_once hp]
  | some period =>
    by_cases hc : e.id ∈ s.cancelled
    · rw [Scheduler.finish_cancelled hp hc]
      rfl
    · rw [Scheduler.finish_again hp hc, load_push, share,
        if_neg (Nat.not_le_of_gt (hlater period hp)), Nat.zero_add]
      rfl

end Scheduled

/-! ### Queues of tasks of one kind -/

/-- The entries of the queue are tasks of a kind, their period included. -/
def Scheduler.Holds (kind : Option Nat → τ → Prop) (s : Scheduler τ) : Prop :=
  ∀ e ∈ s.queue, kind e.period? e.task

/-- What a call schedules is a task of a kind. -/
def Call.Holds (kind : Option Nat → τ → Prop) : Call τ → Prop
  | schedule _ task => kind none task
  | scheduleRepeating _ period task => kind (some (max period 1)) task
  | cancel _ => True

theorem Call.Holds.and {kind kind' : Option Nat → τ → Prop} {c : Call τ} (h : c.Holds kind)
    (h' : c.Holds kind') : c.Holds fun period? task => kind period? task ∧ kind' period? task := by
  cases c with
  | schedule delay task => exact ⟨h, h'⟩
  | scheduleRepeating initial period task => exact ⟨h, h'⟩
  | cancel id => trivial

/-- What tasks of a kind schedule is of the kind too, and weighs less than they do. -/
def Workshop.Thrifty (w : Workshop τ ω) (kind : Option Nat → τ → Prop) : Prop :=
  ∀ id period? task st, kind period? task →
    ∃ calls, (w.run id task st).scheduler = st.scheduler.performAll calls ∧
      callsWeight w calls < w.weight task ∧ ∀ c ∈ calls, c.Holds kind

namespace Scheduler

variable {kind : Option Nat → τ → Prop} {s : Scheduler τ}

theorem Holds.add (hs : s.Holds kind) {delay : Nat} {period? : Option Nat} {task : τ}
    (htask : kind period? task) : (s.add delay period? task).2.Holds kind := by
  intro e he
  rcases (mem_add_queue s delay period? task).mp he with rfl | he
  · exact htask
  · exact hs e he

theorem Holds.perform (hs : s.Holds kind) {c : Call τ} (hc : c.Holds kind) :
    (s.perform c).Holds kind := by
  cases c with
  | schedule delay task => exact hs.add hc
  | scheduleRepeating initial period task => exact hs.add hc
  | cancel id => exact fun e he => hs e (cancel_queue_sublist.subset he)

/-- Calls that schedule only tasks of a kind leave only such tasks in the queue. -/
theorem Holds.performAll {calls : List (Call τ)} (hs : s.Holds kind)
    (hcalls : ∀ c ∈ calls, c.Holds kind) : (s.performAll calls).Holds kind := by
  induction calls generalizing s with
  | nil => exact hs
  | cons c rest ih =>
    exact ih (hs.perform (hcalls c List.mem_cons_self)) fun c' hc' =>
      hcalls c' (List.mem_cons_of_mem c hc')

theorem Holds.start (hs : s.Holds kind) (e : QueueEntry τ) : (s.start e).Holds kind :=
  fun f hf => hs f (List.mem_of_mem_tail hf)

theorem Holds.finish (hs : s.Holds kind) {e : QueueEntry τ} (he : kind e.period? e.task) :
    (s.finish e).Holds kind := by
  intro f hf
  rcases requeued_of_mem_finish hf with hf | ⟨_, -, -, rfl⟩
  · exact hs f hf
  · exact he

theorem performAll_current (s : Scheduler τ) (calls : List (Call τ)) :
    (s.performAll calls).current = s.current := by
  induction calls generalizing s with
  | nil => rfl
  | cons c rest ih => exact (ih (s.perform c)).trans (perform_current s c)

end Scheduler

/-! ### The loop of a tick ends -/

namespace Scheduled

variable {w : Workshop τ ω} {kind : Option Nat → τ → Prop} {now : Nat}

/-- A firing keeps the kind of the queue, and the load gets smaller. -/
theorem fire_load_lt (hw : w.Thrifty kind)
    (hlater : ∀ period task, kind (some period) task → now < (now + period) % tickSpan)
    {st : Scheduled τ ω} {e : QueueEntry τ} (hst : st.scheduler.Holds kind)
    (hnow : st.scheduler.current = now) (hnext : st.scheduler.nextDue? = some e) :
    (st.fire w e).scheduler.Holds kind ∧ (st.fire w e).scheduler.current = now ∧
      load w (st.fire w e).scheduler < load w st.scheduler := by
  have he : kind e.period? e.task := hst e (Scheduler.mem_of_nextDue? hnext)
  obtain ⟨calls, hrun, hlight, hcalls⟩ := hw e.id e.period? e.task (st.started e) he
  have hfire : (st.fire w e).scheduler =
      ((st.scheduler.start e).performAll calls).finish e := by
    rw [fire_eq, hrun]
    rfl
  have hcurrent : ((st.scheduler.start e).performAll calls).current = now := by
    rw [Scheduler.performAll_current, Scheduler.start_current, hnow]
  refine ⟨?_, ?_, ?_⟩
  · rw [hfire]
    exact ((hst.start e).performAll hcalls).finish he
  · rw [hfire, Scheduler.finish_current, hcurrent]
  · -- the entry took its weight along, and does not bring it back within this tick
    have hagain : ∀ period, e.period? = some period →
        ((st.scheduler.start e).performAll calls).current <
          (((st.scheduler.start e).performAll calls).current + period) % tickSpan := by
      intro period hp
      rw [hcurrent]
      exact hlater period e.task (hp ▸ he)
    have hcalled := load_performAll_le w (st.scheduler.start e) calls
    have hstart := load_start (w := w) hnext
    rw [hfire, load_finish hagain]
    omega

/-- The loop comes to its end within as many firings as the load is. -/
theorem fireDue_ends (hw : w.Thrifty kind)
    (hlater : ∀ period task, kind (some period) task → now < (now + period) % tickSpan)
    {fuel : Nat} {st : Scheduled τ ω} (hst : st.scheduler.Holds kind)
    (hnow : st.scheduler.current = now) (hload : load w st.scheduler ≤ fuel) :
    (fireDue w fuel st).2.Drained ∧ (fireDue w fuel st).1 ≤ load w st.scheduler ∧
      (fireDue w fuel st).2.scheduler.Holds kind ∧
      (fireDue w fuel st).2.scheduler.current = now := by
  induction fuel generalizing st with
  | zero =>
    refine ⟨?_, Nat.zero_le _, hst, hnow⟩
    cases hnext : st.scheduler.nextDue? with
    | none => exact hnext
    | some e =>
      obtain ⟨-, -, hlt⟩ := fire_load_lt hw hlater hst hnow hnext
      exact absurd hload (Nat.not_le_of_gt (Nat.zero_lt_of_lt hlt))
  | succ fuel ih =>
    cases hnext : st.scheduler.nextDue? with
    | none =>
      rw [fireDue_of_drained w hnext]
      exact ⟨hnext, Nat.zero_le _, hst, hnow⟩
    | some e =>
      obtain ⟨hst', hnow', hlt⟩ := fire_load_lt hw hlater hst hnow hnext
      obtain ⟨hdrained, hcount, hkind, hcurrent⟩ := ih hst' hnow' (by omega)
      rw [fireDue_of_nextDue? w hnext]
      exact ⟨hdrained, by omega, hkind, hcurrent⟩

/-- **A tick comes to an end** if tasks are thrifty and no period wraps: then the loop
    finds nothing due after at most as many firings as the load was when it began, and
    any greater bound on the firings would make no difference. -/
theorem tick_ends (hw : w.Thrifty kind) {st : Scheduled τ ω} (hst : st.scheduler.Holds kind)
    (hlater : ∀ period task, kind (some period) task →
      st.begun.scheduler.current < (st.begun.scheduler.current + period) % tickSpan) :
    (st.tick w).2.Drained ∧ (st.tick w).1 ≤ load w st.begun.scheduler ∧
      (∀ fuel, load w st.begun.scheduler ≤ fuel → fireDue w fuel st.begun = st.tick w) ∧
      (st.tick w).2.scheduler.Holds kind ∧
      (st.tick w).2.scheduler.current = st.begun.scheduler.current := by
  have hbegun : st.begun.scheduler.Holds kind := hst
  obtain ⟨hdrained, hcount, hkind, hcurrent⟩ :=
    fireDue_ends hw hlater hbegun rfl (Nat.le_refl _)
  rw [← tick_eq_fireDue] at hdrained hcount hkind hcurrent
  refine ⟨hdrained, hcount, fun fuel hfuel => ?_, hkind, hcurrent⟩
  obtain ⟨more, rfl⟩ := Nat.exists_eq_add_of_le hfuel
  exact fireDue_add_of_drained w _ more _ hdrained

/-! ### Where a period wraps -/

/-- All that is queued is a repeating task that is due, and would be due at once when it is
    queued again, since the sum of the tick and its period wraps. -/
structure Spins (id : TaskId) (period : Nat) (task : τ) (s : Scheduler τ) : Prop where
  alone : ∃ due, due ≤ s.current ∧ s.queue = [⟨due, id, some period, task⟩]
  kept : id ∉ s.cancelled
  wraps : (s.current + period) % tickSpan ≤ s.current

variable {id period : Nat} {task : τ} {st : Scheduled τ ω}

/-- A firing that leaves the scheduler alone leaves it spinning. -/
theorem Spins.fire (quiet : ∀ st, (w.run id task st).scheduler = st.scheduler)
    (hs : Spins id period task st.scheduler) :
    ∃ e, st.scheduler.nextDue? = some e ∧ Spins id period task (st.fire w e).scheduler := by
  obtain ⟨⟨due, hdue, hqueue⟩, hkept, hwraps⟩ := hs
  have hfire : (st.fire w ⟨due, id, some period, task⟩).scheduler =
      (st.scheduler.start ⟨due, id, some period, task⟩).finish ⟨due, id, some period, task⟩ := by
    rw [fire_eq, quiet]
    rfl
  refine ⟨⟨due, id, some period, task⟩, ?_, ?_⟩
  · rw [Scheduler.nextDue?_eq_some, hqueue]
    exact ⟨rfl, hdue⟩
  · rw [hfire, Scheduler.finish_again rfl hkept]
    refine ⟨⟨_, hwraps, ?_⟩, hkept, hwraps⟩
    change Scheduler.insertByDue _ st.scheduler.queue.tail = _
    rw [hqueue]
    rfl

/-- **The period must not wrap.**  Such a task fires as often as the loop is let, and is
    due again. -/
theorem Spins.fireDue (quiet : ∀ st, (w.run id task st).scheduler = st.scheduler)
    (hs : Spins id period task st.scheduler) (fuel : Nat) :
    (fireDue w fuel st).1 = fuel ∧ ¬ (fireDue w fuel st).2.Drained := by
  induction fuel generalizing st with
  | zero =>
    obtain ⟨e, hnext, -⟩ := hs.fire quiet
    refine ⟨rfl, fun hdrained => ?_⟩
    cases hnext.symm.trans hdrained
  | succ fuel ih =>
    obtain ⟨e, hnext, hs'⟩ := hs.fire quiet
    rw [fireDue_of_nextDue? w hnext]
    exact ⟨congrArg (· + 1) (ih hs').1, (ih hs').2⟩

end Scheduled

end RuleEngine
