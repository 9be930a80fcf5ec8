/-
  RuleEngine/Proofs/Scheduler/Omission.lean
  =========================================
  **A scheduler without some of its tasks.**

  Some tasks of a scheduler are extra.  Without them it would have given smaller
  numbers to the others, but in the same order: the number of a task would be its
  `rank` among those that are not extra.  `Scheduler.Omits` relates a scheduler to one
  that has extra tasks as well; what the second one does for a task that is not extra,
  the first one does under the rank of that task, with the same answer, and what the
  second one does for an extra task leaves the first one as it is.

  The order of the queue breaks ties by number, so everything rests on the ranks being
  in the order of the numbers (`rank_lt_rank`).
-/
import RuleEngine.Proofs.Scheduler.Queue

namespace RuleEngine

variable {τ : Type}

/-! ### Ranks -/

/-- The number that a task has when the extra ones do not count. -/
def rank (extra : TaskId → Bool) (id : TaskId) : TaskId := (List.range id).countP fun i => !extra i

section Rank

variable {extra : TaskId → Bool} {a b : TaskId}

theorem rank_succ_of_extra (h : extra a = true) : rank extra (a + 1) = rank extra a := by
  simp [rank, List.range_succ, h]

theorem rank_succ (h : extra a = false) : rank extra (a + 1) = rank extra a + 1 := by
  simp [rank, List.range_succ, h]

theorem rank_le_rank (h : a ≤ b) : rank extra a ≤ rank extra b :=
  (List.range_sublist.mpr h).countP_le

theorem rank_lt_rank (ha : extra a = false) (h : a < b) : rank extra a < rank extra b := by
  have hnext : rank extra (a + 1) ≤ rank extra b := rank_le_rank h
  rw [rank_succ ha] at hnext
  exact hnext

theorem rank_lt_rank_iff (ha : extra a = false) : rank extra a < rank extra b ↔ a < b := by
  constructor
  · intro h
    by_contra hle
    exact Nat.not_lt.mpr (rank_le_rank (Nat.not_lt.mp hle)) h
  · exact rank_lt_rank ha

theorem rank_inj (ha : extra a = false) (hb : extra b = false) :
    rank extra a = rank extra b ↔ a = b := by
  constructor
  · intro h
    rcases Nat.lt_trichotomy a b with hlt | heq | hgt
    · exact absurd h (Nat.ne_of_lt (rank_lt_rank ha hlt))
    · exact heq
    · exact absurd h.symm (Nat.ne_of_lt (rank_lt_rank hb hgt))
  · rintro rfl
    rfl

/-- Where no task is extra the numbers are as they are. -/
@[simp] theorem rank_of_none (a : TaskId) : rank (fun _ => false) a = a := by
  simp [rank]

end Rank

/-! ### Queues -/

def QueueEntry.ranked (extra : TaskId → Bool) (e : QueueEntry τ) : QueueEntry τ :=
  { e with id := rank extra e.id }

theorem QueueEntry.ranked_before_iff {extra : TaskId → Bool} {e f : QueueEntry τ}
    (he : extra e.id = false) :
    (e.ranked extra).before (f.ranked extra) = true ↔ e.before f = true := by
  rw [before_iff, before_iff]
  simp only [ranked, rank_lt_rank_iff he]

namespace Scheduler

variable {extra : TaskId → Bool}

/-- The entries that are not of extra tasks, under their ranks. -/
def omitExtra (extra : TaskId → Bool) (q : List (QueueEntry τ)) : List (QueueEntry τ) :=
  (q.filter fun e => !extra e.id).map (QueueEntry.ranked extra)

/-- An extra entry is left out. -/
theorem omitExtra_cons_extra {e : QueueEntry τ} (h : extra e.id = true) (q : List (QueueEntry τ)) :
    omitExtra extra (e :: q) = omitExtra extra q := by
  simp [omitExtra, h]

/-- Any other entry stays, under its rank. -/
theorem omitExtra_cons {e : QueueEntry τ} (h : extra e.id = false) (q : List (QueueEntry τ)) :
    omitExtra extra (e :: q) = e.ranked extra :: omitExtra extra q := by
  simp [omitExtra, h]

theorem mem_omitExtra {q : List (QueueEntry τ)} {f : QueueEntry τ} :
    f ∈ omitExtra extra q ↔ ∃ e ∈ q, extra e.id = false ∧ e.ranked extra = f := by
  simp [omitExtra, and_assoc]

theorem insertByDue_of_before {e : QueueEntry τ} {q : List (QueueEntry τ)}
    (h : ∀ f ∈ q, e.before f = true) : insertByDue e q = e :: q := by
  cases q with
  | nil => rfl
  | cons f rest => simp [insertByDue, h f]

theorem omitExtra_insertByDue_extra {e : QueueEntry τ} (he : extra e.id = true)
    (q : List (QueueEntry τ)) : omitExtra extra (insertByDue e q) = omitExtra extra q := by
  induction q with
  | nil => exact omitExtra_cons_extra he []
  | cons f rest ih =>
    simp only [insertByDue]
    split
    · exact omitExtra_cons_extra he _
    · cases hf : extra f.id with
      | true => rw [omitExtra_cons_extra hf, omitExtra_cons_extra hf, ih]
      | false => rw [omitExtra_cons hf, omitExtra_cons hf, ih]

/-- An entry takes the same place among the others whether or not extra ones stand
    between them. -/
theorem omitExtra_insertByDue {e : QueueEntry τ} {q : List (QueueEntry τ)}
    (he : extra e.id = false) (ordered : Ordered q) :
    omitExtra extra (insertByDue e q) = insertByDue (e.ranked extra) (omitExtra extra q) := by
  induction q with
  | nil => exact omitExtra_cons he []
  | cons f rest ih =>
    obtain ⟨hfirst, hrest⟩ := List.pairwise_cons.mp ordered
    have hbefore := QueueEntry.ranked_before_iff (f := f) he
    simp only [insertByDue]
    split
    · rename_i hef
      rw [omitExtra_cons he]
      cases hf : extra f.id with
      | true =>
        -- the entry stood before an extra one, hence before all that come after that
        have hall : ∀ g ∈ omitExtra extra rest, (e.ranked extra).before g = true := by
          intro g hg
          obtain ⟨f', hf', -, rfl⟩ := mem_omitExtra.mp hg
          exact (QueueEntry.ranked_before_iff he).mpr (QueueEntry.before_trans hef (hfirst f' hf'))
        rw [omitExtra_cons_extra hf, insertByDue_of_before hall]
      | false => rw [omitExtra_cons hf, insertByDue, if_pos (hbefore.mpr hef)]
    · rename_i hef
      cases hf : extra f.id with
      | true => rw [omitExtra_cons_extra hf, omitExtra_cons_extra hf, ih hrest]
      | false =>
        rw [omitExtra_cons hf, omitExtra_cons hf, ih hrest, insertByDue,
          if_neg fun h => hef (hbefore.mp h)]

/-! ### Schedulers -/

/-- A scheduler is another one without its extra tasks. -/
structure Omits (extra : TaskId → Bool) (s s' : Scheduler τ) : Prop where
  current : s.current = s'.current
  nextId : s.nextId = rank extra s'.nextId
  queue : s.queue = omitExtra extra s'.queue
  running : ∀ id, extra id = false → (rank extra id ∈ s.running ↔ id ∈ s'.running)
  cancelled : ∀ id, extra id = false → (rank extra id ∈ s.cancelled ↔ id ∈ s'.cancelled)

theorem omits_empty : Omits extra ({} : Scheduler τ) {} where
  current := rfl
  nextId := rfl
  queue := rfl
  running := by simp
  cancelled := by simp

section Scheduling

variable {s s' : Scheduler τ} {e : QueueEntry τ}

/-- An entry that is not extra takes the same place in the queue without the extra ones. -/
theorem Omits.push (h : Omits extra s s') (ordered : Ordered s'.queue)
    (he : extra e.id = false) : Omits extra (s.push (e.ranked extra)) (s'.push e) :=
  { h with
    queue := by
      show insertByDue _ s.queue = omitExtra extra (insertByDue _ s'.queue)
      rw [omitExtra_insertByDue he ordered, h.queue] }

theorem Omits.push_extra (h : Omits extra s s') (he : extra e.id = true) :
    Omits extra s (s'.push e) :=
  { h with
    queue := by
      show s.queue = omitExtra extra (insertByDue _ s'.queue)
      rw [omitExtra_insertByDue_extra he, h.queue] }

variable (delay : Nat) (period? : Option Nat) (task : τ)

/-- Adding a task to both schedulers keeps one the other without its extra tasks. -/
theorem Omits.add (h : Omits extra s s') (hs' : s'.Sound) (given : extra s'.nextId = false) :
    Omits extra (s.add delay period? task).2 (s'.add delay period? task).2 := by
  have hnumbered : Omits extra { s with nextId := s.nextId + 1 }
      { s' with nextId := s'.nextId + 1 } :=
    { h with nextId := by rw [rank_succ given, h.nextId] }
  have hentry : (⟨(s.current + delay) % tickSpan, s.nextId, period?, task⟩ : QueueEntry τ) =
      QueueEntry.ranked extra ⟨(s'.current + delay) % tickSpan, s'.nextId, period?, task⟩ := by
    rw [h.current, h.nextId, QueueEntry.ranked]
  show Omits extra (Scheduler.push _ ⟨_, _, period?, task⟩) (Scheduler.push _ _)
  rw [hentry]
  exact hnumbered.push hs'.ordered given

theorem Omits.add_extra (h : Omits extra s s') (given : extra s'.nextId = true) :
    Omits extra s (s'.add delay period? task).2 := by
  have hnumbered : Omits extra s { s' with nextId := s'.nextId + 1 } :=
    { h with nextId := by rw [rank_succ_of_extra given, h.nextId] }
  exact hnumbered.push_extra given

end Scheduling

/-! ### Cancelling -/

/-- Cancelling takes the entries of a task out of the queue. -/
theorem Sound.cancel_queue {s : Scheduler τ} (hs : s.Sound) (id : TaskId) :
    (s.cancel id).2.queue = s.queue.filter fun e => e.id != id := by
  cases hdue : s.dueOf? id with
  | some due =>
    rw [cancel_queued hdue]
    refine List.filter_congr fun e he => ?_
    by_cases hid : e.id = id
    · have hown : e.due = due := by
        rw [← hid, hs.dueOf_of_mem he] at hdue
        exact Option.some.inj hdue
      simp [hid, hown]
    · have hid' : (e.id == id) = false := beq_false_of_ne hid
      simp [bne, hid']
  | none =>
    have hsame : (s.cancel id).2.queue = s.queue := by
      simp only [Scheduler.cancel, hdue]
      split <;> rfl
    rw [hsame, List.filter_eq_self.mpr]
    intro e he
    simpa using hs.dueOf_eq_none.mp hdue e he

theorem omitExtra_filter_ne {id : TaskId} (hid : extra id = false) (q : List (QueueEntry τ)) :
    omitExtra extra (q.filter fun e => e.id != id) =
      (omitExtra extra q).filter fun e => e.id != rank extra id := by
  simp only [omitExtra, List.filter_filter, List.filter_map]
  congr 1
  refine List.filter_congr fun e _ => ?_
  cases he : extra e.id with
  | true => simp
  | false =>
    have hrank : (rank extra e.id == rank extra id) = (e.id == id) := by
      rw [Bool.eq_iff_iff, beq_iff_eq, beq_iff_eq, rank_inj he hid]
    simp [QueueEntry.ranked, bne, hrank]

theorem omitExtra_filter_ne_extra {id : TaskId} (hid : extra id = true)
    (q : List (QueueEntry τ)) :
    omitExtra extra (q.filter fun e => e.id != id) = omitExtra extra q := by
  simp only [omitExtra, List.filter_filter]
  congr 1
  refine List.filter_congr fun e _ => ?_
  by_cases he : e.id = id
  · simp [he, hid]
  · simp [he]

section Cancelling

variable {s s' : Scheduler τ} {id : TaskId}

theorem Omits.dueOf_eq_none (h : Omits extra s s') (hs : s.Sound) (hs' : s'.Sound)
    (hid : extra id = false) : s.dueOf? (rank extra id) = none ↔ s'.dueOf? id = none := by
  rw [hs.dueOf_eq_none, hs'.dueOf_eq_none, h.queue]
  constructor
  · intro habsent e he heq
    exact habsent _ (mem_omitExtra.mpr ⟨e, he, by rw [heq]; exact hid, rfl⟩) (by rw [← heq]; rfl)
  · intro habsent f hf heq
    obtain ⟨e, he, hkept, rfl⟩ := mem_omitExtra.mp hf
    exact habsent e he ((rank_inj hkept hid).mp heq)

/-- A task that is not extra is found by both schedulers or by none. -/
theorem Omits.cancel_found (h : Omits extra s s') (hs : s.Sound) (hs' : s'.Sound)
    (hid : extra id = false) : (s.cancel (rank extra id)).1 = (s'.cancel id).1 := by
  have hqueued := h.dueOf_eq_none hs hs' hid
  cases hdue' : s'.dueOf? id with
  | some due' =>
    have hsome : s.dueOf? (rank extra id) ≠ none := by
      rw [Ne, hqueued, hdue']
      exact nofun
    obtain ⟨due, hdue⟩ := Option.ne_none_iff_exists'.mp hsome
    rw [cancel_queued hdue, cancel_queued hdue']
  | none =>
    have hdue := hqueued.mpr hdue'
    by_cases hrunning : id ∈ s'.running
    · rw [cancel_firing hdue' hrunning, cancel_firing hdue ((h.running id hid).mpr hrunning)]
    · rw [cancel_absent hdue' hrunning,
        cancel_absent hdue fun hmem => hrunning ((h.running id hid).mp hmem)]

/-- Cancelling a task in both keeps one the other without its extra tasks. -/
theorem Omits.cancel (h : Omits extra s s') (hs : s.Sound) (hs' : s'.Sound)
    (hid : extra id = false) :
    Omits extra (s.cancel (rank extra id)).2 (s'.cancel id).2 where
  current := by rw [cancel_current, cancel_current, h.current]
  nextId := by rw [cancel_nextId, cancel_nextId, h.nextId]
  queue := by rw [hs.cancel_queue, hs'.cancel_queue, h.queue, omitExtra_filter_ne hid]
  running := by
    intro other hother
    rw [cancel_running, cancel_running]
    exact h.running other hother
  cancelled := by
    intro other hother
    rw [mem_cancel_cancelled, mem_cancel_cancelled, h.cancelled other hother,
      rank_inj hother hid, h.dueOf_eq_none hs hs' hid, h.running id hid]

theorem Omits.cancel_extra (h : Omits extra s s') (hs' : s'.Sound) (hid : extra id = true) :
    Omits extra s (s'.cancel id).2 where
  current := by rw [cancel_current, h.current]
  nextId := by rw [cancel_nextId, h.nextId]
  queue := by rw [hs'.cancel_queue, h.queue, omitExtra_filter_ne_extra hid]
  running := by
    intro other hother
    rw [cancel_running]
    exact h.running other hother
  cancelled := by
    intro other hother
    have hne : other ≠ id := by
      rintro rfl
      rw [hid] at hother
      cases hother
    rw [mem_cancel_cancelled, h.cancelled other hother]
    simp [hne]

end Cancelling

/-! ### Firing -/

section Firing

variable {s s' : Scheduler τ} {e : QueueEntry τ}

/-- Where no extra task is due, both have the same entry due. -/
theorem Omits.nextDue? (h : Omits extra s s') (due : s'.nextDue? = some e)
    (he : extra e.id = false) : s.nextDue? = some (e.ranked extra) := by
  obtain ⟨hqueue, hdue⟩ := nextDue?_eq_some.mp due
  have hhead : s.queue = e.ranked extra :: omitExtra extra s'.queue.tail := by
    rw [h.queue, hqueue, omitExtra_cons he, List.tail_cons]
  rw [nextDue?_eq_some, hhead, h.current]
  exact ⟨rfl, hdue⟩

theorem Omits.nextDue?_eq_none (h : Omits extra s s') (hs' : s'.Sound)
    (drained : s'.nextDue? = none) : s.nextDue? = none := by
  cases hdue : s.nextDue? with
  | none => rfl
  | some f =>
    have hmem := mem_of_nextDue? hdue
    rw [h.queue] at hmem
    obtain ⟨e, he, -, rfl⟩ := mem_omitExtra.mp hmem
    have hlater := hs'.lt_due_of_nextDue?_eq_none drained e he
    have hdue' : e.due ≤ s.current := (nextDue?_eq_some.mp hdue).2
    rw [h.current] at hdue'
    exact absurd hlater (Nat.not_lt.mpr hdue')

/-- An entry that is not extra starts to fire without the extra ones too. -/
theorem Omits.start (h : Omits extra s s') (due : s'.nextDue? = some e)
    (he : extra e.id = false) : Omits extra (s.start (e.ranked extra)) (s'.start e) where
  current := h.current
  nextId := h.nextId
  queue := by
    show s.queue.tail = omitExtra extra s'.queue.tail
    rw [h.queue, (nextDue?_eq_some.mp due).1, omitExtra_cons he, List.tail_cons, List.tail_cons]
  running := by
    intro id hid
    have hown : rank extra id = (e.ranked extra).id ↔ id = e.id := rank_inj hid he
    rw [mem_start_running, mem_start_running, h.running id hid, hown]
    rfl
  cancelled := h.cancelled

theorem Omits.start_extra (h : Omits extra s s') (due : s'.nextDue? = some e)
    (he : extra e.id = true) : Omits extra s (s'.start e) where
  current := h.current
  nextId := h.nextId
  queue := by
    show s.queue = omitExtra extra s'.queue.tail
    rw [h.queue, (nextDue?_eq_some.mp due).1, omitExtra_cons_extra he, List.tail_cons]
  running := by
    intro id hid
    have hne : id ≠ e.id := by
      rintro rfl
      rw [he] at hid
      cases hid
    rw [mem_start_running, h.running id hid]
    simp [hne]
  cancelled := h.cancelled

/-- A repeating task that is not cancelled is queued again in both. -/
theorem Omits.finish (h : Omits extra s s') (hs' : s'.Sound) (he : extra e.id = false) :
    Omits extra (s.finish (e.ranked extra)) (s'.finish e) := by
  have hidle : ∀ (ids ids' : List TaskId),
      (∀ id, extra id = false → (rank extra id ∈ ids ↔ id ∈ ids')) →
      ∀ id, extra id = false →
        (rank extra id ∈ withoutTask (rank extra e.id) ids ↔ id ∈ withoutTask e.id ids') := by
    intro ids ids' hids id hid
    rw [mem_withoutTask, mem_withoutTask, hids id hid, Ne, rank_inj hid he]
  cases hp : e.period? with
  | none =>
    rw [finish_once hp, finish_once (e := e.ranked extra) hp]
    exact h
  | some period =>
    by_cases hc : e.id ∈ s'.cancelled
    · rw [finish_cancelled hp hc,
        finish_cancelled (e := e.ranked extra) hp ((h.cancelled e.id he).mpr hc)]
      exact { h with
        running := hidle _ _ h.running
        cancelled := hidle _ _ h.cancelled }
    · rw [finish_again hp hc,
        finish_again (e := e.ranked extra) hp fun hmem => hc ((h.cancelled e.id he).mp hmem)]
      have hrested : Omits extra { s with running := withoutTask (rank extra e.id) s.running }
          { s' with running := withoutTask e.id s'.running } :=
        { h with running := hidle _ _ h.running }
      have hdue : (s.current + period) % tickSpan = (s'.current + period) % tickSpan := by
        rw [h.current]
      rw [hdue]
      exact hrested.push (e := { e with due := (s'.current + period) % tickSpan }) hs'.ordered he

theorem Omits.finish_extra (h : Omits extra s s') (he : extra e.id = true) :
    Omits extra s (s'.finish e) := by
  have hidle : ∀ ids, ∀ id, extra id = false → (id ∈ withoutTask e.id ids ↔ id ∈ ids) := by
    intro ids id hid
    have hne : id ≠ e.id := by
      rintro rfl
      rw [he] at hid
      cases hid
    simp [mem_withoutTask, hne]
  cases hp : e.period? with
  | none => rwa [finish_once hp]
  | some period =>
    by_cases hc : e.id ∈ s'.cancelled
    · rw [finish_cancelled hp hc]
      exact { h with
        running := fun id hid => (h.running id hid).trans (hidle _ id hid).symm
        cancelled := fun id hid => (h.cancelled id hid).trans (hidle _ id hid).symm }
    · rw [finish_again hp hc]
      have hrested : Omits extra s { s' with running := withoutTask e.id s'.running } :=
        { h with running := fun id hid => (h.running id hid).trans (hidle _ id hid).symm }
      exact hrested.push_extra he

end Firing

end Scheduler

end RuleEngine
