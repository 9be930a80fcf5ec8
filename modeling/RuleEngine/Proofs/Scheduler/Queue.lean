/-
  RuleEngine/Proofs/Scheduler/Queue.lean
  ======================================
  **The order of the queue.**

  The queue stands in the order of `QueueEntry.before`, every number occurs in it at
  most once, and the numbers that were not given away yet are free.  What is kept
  beside the queue agrees with it: the due ticks are those of the queued entries, no
  running task is queued, and only running tasks are marked as cancelled.  These facts
  are gathered in `Scheduler.Sound`; scheduling, cancelling, taking the first entry
  and putting a repeating one back keep them.  Everything else about the scheduler is
  derived from them and from the membership lemmas below, and no later file looks
  into `insertByDue`.
-/
import Mathlib.Data.List.Nodup
import RuleEngine.Scheduler.Tick

namespace RuleEngine

variable {τ : Type}

/-! ### Comparing entries -/

namespace QueueEntry

theorem before_iff (a b : QueueEntry τ) :
    a.before b = true ↔ a.due < b.due ∨ (a.due = b.due ∧ a.id < b.id) := by
  simp [before]

theorem before_trans {a b c : QueueEntry τ} (hab : a.before b = true)
    (hbc : b.before c = true) : a.before c = true := by
  rw [before_iff] at hab hbc ⊢
  rcases hab with hab | ⟨hab, hid⟩ <;> rcases hbc with hbc | ⟨hbc, hid'⟩
  · exact Or.inl (Nat.lt_trans hab hbc)
  · exact Or.inl (hbc ▸ hab)
  · exact Or.inl (hab ▸ hbc)
  · exact Or.inr ⟨hab.trans hbc, Nat.lt_trans hid hid'⟩

theorem before_of_not_before {a b : QueueEntry τ} (hne : a.id ≠ b.id)
    (h : ¬ a.before b = true) : b.before a = true := by
  rw [before_iff] at h ⊢
  rcases Nat.lt_trichotomy a.due b.due with hlt | heq | hgt
  · exact absurd (Or.inl hlt) h
  · refine Or.inr ⟨heq.symm, Nat.lt_of_le_of_ne (Nat.not_lt.mp fun hlt => ?_) hne.symm⟩
    exact h (Or.inr ⟨heq, hlt⟩)
  · exact Or.inl hgt

theorem due_le_of_before {a b : QueueEntry τ} (h : a.before b = true) : a.due ≤ b.due := by
  rcases (before_iff a b).mp h with hlt | ⟨heq, -⟩
  · exact Nat.le_of_lt hlt
  · exact Nat.le_of_eq heq

end QueueEntry

namespace Scheduler

/-! ### Putting an entry in its place -/

theorem insertByDue_perm (e : QueueEntry τ) (q : List (QueueEntry τ)) :
    (insertByDue e q).Perm (e :: q) := by
  induction q with
  | nil => exact List.Perm.refl _
  | cons f rest ih =>
    simp only [insertByDue]
    split
    · exact List.Perm.refl _
    · exact (ih.cons f).trans (List.Perm.swap e f rest)

/-- An insertion adds its entry and takes none away. -/
theorem mem_insertByDue {e f : QueueEntry τ} {q : List (QueueEntry τ)} :
    f ∈ insertByDue e q ↔ f = e ∨ f ∈ q := by
  rw [(insertByDue_perm e q).mem_iff, List.mem_cons]

/-- Entries in the order in which they fire. -/
def Ordered (q : List (QueueEntry τ)) : Prop := q.Pairwise fun a b => a.before b = true

theorem ordered_insertByDue {e : QueueEntry τ} {q : List (QueueEntry τ)} (h : Ordered q)
    (hnew : ∀ f ∈ q, f.id ≠ e.id) : Ordered (insertByDue e q) := by
  induction q with
  | nil => exact List.pairwise_singleton _ _
  | cons f rest ih =>
    obtain ⟨hf, hrest⟩ := List.pairwise_cons.mp h
    simp only [insertByDue]
    split
    · rename_i hef
      refine List.pairwise_cons.mpr ⟨fun g hg => ?_, h⟩
      rcases List.mem_cons.mp hg with rfl | hg
      · exact hef
      · exact QueueEntry.before_trans hef (hf g hg)
    · rename_i hef
      refine List.pairwise_cons.mpr ⟨fun g hg => ?_, ih hrest fun g hg => hnew g (by simp [hg])⟩
      rcases mem_insertByDue.mp hg with rfl | hg
      · exact QueueEntry.before_of_not_before (hnew f (by simp)).symm hef
      · exact hf g hg

/-! ### Collections by task -/

theorem lookup_due_cons (id other : TaskId) (due : Nat) (dueOf : List (TaskId × Nat)) :
    ((id, due) :: dueOf).lookup other = if other = id then some due else dueOf.lookup other := by
  by_cases h : other = id
  · simp [h]
  · have hb : (other == id) = false := beq_false_of_ne h
    simp [List.lookup_cons, hb, h]

theorem lookup_withoutDue (id other : TaskId) (dueOf : List (TaskId × Nat)) :
    (withoutDue id dueOf).lookup other = if other = id then none else dueOf.lookup other := by
  induction dueOf with
  | nil => simp [withoutDue]
  | cons d rest ih =>
    obtain ⟨key, due⟩ := d
    rw [lookup_due_cons]
    by_cases hkey : key = id
    · have hdrop : withoutDue id ((key, due) :: rest) = withoutDue id rest := by
        simp [withoutDue, hkey]
      rw [hdrop, ih, hkey]
      by_cases ho : other = id <;> simp [ho]
    · have hkeep : withoutDue id ((key, due) :: rest) = (key, due) :: withoutDue id rest := by
        simp [withoutDue, hkey]
      rw [hkeep, lookup_due_cons, ih]
      by_cases ho : other = key <;> simp [ho, hkey]

theorem mem_withoutTask {id other : TaskId} {ids : List TaskId} :
    other ∈ withoutTask id ids ↔ other ∈ ids ∧ other ≠ id := by
  simp [withoutTask]

theorem push_dueOf? (s : Scheduler τ) (e : QueueEntry τ) (id : TaskId) :
    (s.push e).dueOf? id = if id = e.id then some e.due else s.dueOf? id := by
  change List.lookup id ((e.id, e.due) :: withoutDue e.id s.dueOf) = _
  rw [lookup_due_cons, lookup_withoutDue]
  by_cases h : id = e.id <;> simp only [h, if_true, if_false]
  rfl

/-! ### What every reachable scheduler satisfies -/

/-- The queue is in order, no number occurs twice, the due ticks are those of the queue,
    no task is queued while it is running, and only running tasks are cancelled. -/
structure Sound (s : Scheduler τ) : Prop where
  ordered : Ordered s.queue
  ids_nodup : (s.queue.map QueueEntry.id).Nodup
  ids_lt : ∀ e ∈ s.queue, e.id < s.nextId
  dueOf_iff : ∀ {id due}, s.dueOf? id = some due ↔ ∃ e ∈ s.queue, e.id = id ∧ e.due = due
  running_lt : ∀ id ∈ s.running, id < s.nextId
  running_apart : ∀ id ∈ s.running, ∀ e ∈ s.queue, e.id ≠ id
  cancelled_running : ∀ id ∈ s.cancelled, id ∈ s.running

theorem sound_empty : Sound ({} : Scheduler τ) where
  ordered := List.Pairwise.nil
  ids_nodup := List.nodup_nil
  ids_lt := by simp
  dueOf_iff := by simp [dueOf?]
  running_lt := by simp
  running_apart := by simp
  cancelled_running := by simp

theorem Sound.eq_of_id_eq {s : Scheduler τ} (hs : s.Sound) {e f : QueueEntry τ}
    (he : e ∈ s.queue) (hf : f ∈ s.queue) (h : e.id = f.id) : e = f :=
  List.inj_on_of_nodup_map hs.ids_nodup he hf h

/-- What is kept beside the queue is the due tick of each entry. -/
theorem Sound.dueOf_of_mem {s : Scheduler τ} (hs : s.Sound) {e : QueueEntry τ}
    (he : e ∈ s.queue) : s.dueOf? e.id = some e.due :=
  hs.dueOf_iff.mpr ⟨e, he, rfl, rfl⟩

theorem Sound.dueOf_eq_none {s : Scheduler τ} (hs : s.Sound) {id : TaskId} :
    s.dueOf? id = none ↔ ∀ e ∈ s.queue, e.id ≠ id := by
  constructor
  · rintro hnone e he rfl
    simp [hs.dueOf_of_mem he] at hnone
  · intro habsent
    by_contra hsome
    obtain ⟨due, hdue⟩ := Option.ne_none_iff_exists'.mp hsome
    obtain ⟨e, he, hid, -⟩ := hs.dueOf_iff.mp hdue
    exact habsent e he hid

theorem isScheduled_eq_false {s : Scheduler τ} {id : TaskId} :
    s.isScheduled id = false ↔ s.dueOf? id = none := by
  simp [isScheduled]

/-- Pushing the entry of a known task that is neither queued nor running keeps a scheduler sound. -/
theorem Sound.push {s : Scheduler τ} (hs : s.Sound) {e : QueueEntry τ} (hlt : e.id < s.nextId)
    (hfree : ∀ f ∈ s.queue, f.id ≠ e.id) (hidle : e.id ∉ s.running) : (s.push e).Sound where
  ordered := ordered_insertByDue hs.ordered hfree
  ids_nodup := by
    have hperm := (insertByDue_perm e s.queue).map QueueEntry.id
    refine hperm.nodup_iff.mpr (List.nodup_cons.mpr ⟨?_, hs.ids_nodup⟩)
    intro hmem
    obtain ⟨f, hf, hid⟩ := List.mem_map.mp hmem
    exact hfree f hf hid
  ids_lt := by
    intro f hf
    rcases mem_insertByDue.mp hf with rfl | hf
    · exact hlt
    · exact hs.ids_lt f hf
  dueOf_iff := by
    intro id due
    rw [push_dueOf?]
    have hmem : ∀ f, f ∈ (s.push e).queue ↔ f = e ∨ f ∈ s.queue := fun f => mem_insertByDue
    by_cases hid : id = e.id
    · subst hid
      simp only [if_true, Option.some.injEq, hmem]
      constructor
      · exact fun hdue => ⟨e, Or.inl rfl, rfl, hdue⟩
      · rintro ⟨f, rfl | hf, hfid, hdue⟩
        · exact hdue
        · exact absurd hfid (hfree f hf)
    · simp only [hid, if_false, hs.dueOf_iff, hmem]
      constructor
      · rintro ⟨f, hf, hfid, hdue⟩
        exact ⟨f, Or.inr hf, hfid, hdue⟩
      · rintro ⟨f, rfl | hf, hfid, hdue⟩
        · exact absurd hfid.symm hid
        · exact ⟨f, hf, hfid, hdue⟩
  running_lt := hs.running_lt
  running_apart := by
    intro id hrunning f hf
    rcases mem_insertByDue.mp hf with rfl | hf
    · rintro rfl
      exact hidle hrunning
    · exact hs.running_apart id hrunning f hf
  cancelled_running := hs.cancelled_running

/-! ### Scheduling -/

section Add

variable (s : Scheduler τ) (delay : Nat) (period? : Option Nat) (task : τ)

@[simp] theorem add_id : (s.add delay period? task).1 = s.nextId := rfl

@[simp] theorem add_current : (s.add delay period? task).2.current = s.current := rfl

@[simp] theorem add_nextId : (s.add delay period? task).2.nextId = s.nextId + 1 := rfl

@[simp] theorem add_running : (s.add delay period? task).2.running = s.running := rfl

@[simp] theorem add_cancelled : (s.add delay period? task).2.cancelled = s.cancelled := rfl

/-- A scheduled task is queued under the next number. -/
theorem mem_add_queue {e : QueueEntry τ} :
    e ∈ (s.add delay period? task).2.queue ↔
      e = ⟨(s.current + delay) % tickSpan, s.nextId, period?, task⟩ ∨ e ∈ s.queue :=
  mem_insertByDue

end Add

/-- Scheduling keeps a scheduler sound. -/
theorem Sound.add {s : Scheduler τ} (hs : s.Sound) (delay : Nat) (period? : Option Nat)
    (task : τ) : (s.add delay period? task).2.Sound := by
  have hgrown : ({ s with nextId := s.nextId + 1 } : Scheduler τ).Sound :=
    { hs with
      ids_lt := fun e he => Nat.lt_succ_of_lt (hs.ids_lt e he)
      running_lt := fun id hid => Nat.lt_succ_of_lt (hs.running_lt id hid) }
  refine hgrown.push (Nat.lt_succ_self _) ?_ ?_
  · intro f hf
    exact Nat.ne_of_lt (hs.ids_lt f hf)
  · intro hrunning
    exact Nat.lt_irrefl _ (hs.running_lt _ hrunning)

/-! ### Cancelling -/

section Cancel

variable (s : Scheduler τ) (id : TaskId)

@[simp] theorem cancel_current : (s.cancel id).2.current = s.current := by
  unfold cancel; (repeat' split) <;> rfl

@[simp] theorem cancel_nextId : (s.cancel id).2.nextId = s.nextId := by
  unfold cancel; (repeat' split) <;> rfl

@[simp] theorem cancel_running : (s.cancel id).2.running = s.running := by
  unfold cancel; (repeat' split) <;> rfl

variable {s id}

/-- Cancelling a queued task takes it out of the queue. -/
theorem cancel_queued {due : Nat} (h : s.dueOf? id = some due) :
    s.cancel id = (true, { s with
      queue := s.queue.filter fun e => !(e.due == due && e.id == id)
      dueOf := withoutDue id s.dueOf }) := by
  simp [cancel, h]

/-- Cancelling a repeating task that is firing leaves a mark. -/
theorem cancel_firing (h : s.dueOf? id = none) (hrunning : id ∈ s.running) :
    s.cancel id = (true, { s with cancelled := s.cancelled.insert id }) := by
  simp [cancel, h, hrunning]

theorem cancel_absent (h : s.dueOf? id = none) (hidle : id ∉ s.running) :
    s.cancel id = (false, s) := by
  simp [cancel, h, hidle]

theorem cancel_queue_sublist : (s.cancel id).2.queue.Sublist s.queue := by
  unfold cancel
  (repeat' split) <;> first | exact List.filter_sublist | exact List.Sublist.refl _

theorem Sound.mem_cancel_queue (hs : s.Sound) {e : QueueEntry τ} :
    e ∈ (s.cancel id).2.queue ↔ e ∈ s.queue ∧ e.id ≠ id := by
  cases hdue : s.dueOf? id with
  | some due =>
    rw [cancel_queued hdue]
    simp only [List.mem_filter, Bool.not_eq_true', Bool.and_eq_false_imp, beq_iff_eq,
      beq_eq_false_iff_ne]
    refine and_congr_right fun he => ⟨fun h hid => ?_, fun h _ => h⟩
    rw [← hid, hs.dueOf_of_mem he, Option.some.injEq] at hdue
    exact h hdue hid
  | none =>
    have hqueue : (s.cancel id).2.queue = s.queue := by
      simp only [cancel, hdue]
      split <;> rfl
    rw [hqueue]
    exact ⟨fun he => ⟨he, hs.dueOf_eq_none.mp hdue e he⟩, fun he => he.1⟩

theorem mem_cancel_cancelled {other : TaskId} :
    other ∈ (s.cancel id).2.cancelled ↔
      other ∈ s.cancelled ∨ other = id ∧ s.dueOf? id = none ∧ id ∈ s.running := by
  cases hdue : s.dueOf? id with
  | some due => simp [cancel_queued hdue]
  | none =>
    by_cases hrunning : id ∈ s.running
    · simp [cancel_firing hdue hrunning, hrunning, or_comm]
    · simp [cancel_absent hdue hrunning, hrunning]

theorem cancel_dueOf? (other : TaskId) :
    (s.cancel id).2.dueOf? other = if other = id then none else s.dueOf? other := by
  cases hdue : s.dueOf? id with
  | some due =>
    rw [cancel_queued hdue]
    exact lookup_withoutDue id other s.dueOf
  | none =>
    have hsame : (s.cancel id).2.dueOf = s.dueOf := by
      simp only [cancel, hdue]
      split <;> rfl
    rw [Scheduler.dueOf?, hsame]
    by_cases hid : other = id
    · rw [if_pos hid, hid]
      exact hdue
    · rw [if_neg hid]
      rfl

end Cancel

/-- Cancelling keeps a scheduler sound. -/
theorem Sound.cancel {s : Scheduler τ} (hs : s.Sound) (id : TaskId) : (s.cancel id).2.Sound where
  ordered := hs.ordered.sublist cancel_queue_sublist
  ids_nodup := hs.ids_nodup.sublist (cancel_queue_sublist.map _)
  ids_lt := by
    intro e he
    rw [cancel_nextId]
    exact hs.ids_lt e (hs.mem_cancel_queue.mp he).1
  dueOf_iff := by
    intro other due
    rw [cancel_dueOf?]
    by_cases hid : other = id
    · subst hid
      simp only [if_true, reduceCtorEq, false_iff]
      rintro ⟨e, he, heid, -⟩
      exact (hs.mem_cancel_queue.mp he).2 heid
    · simp only [hid, if_false, hs.dueOf_iff, hs.mem_cancel_queue]
      constructor
      · rintro ⟨e, he, rfl, rfl⟩
        exact ⟨e, ⟨he, hid⟩, rfl, rfl⟩
      · rintro ⟨e, ⟨he, -⟩, heid, hdue⟩
        exact ⟨e, he, heid, hdue⟩
  running_lt := by
    rw [cancel_running, cancel_nextId]
    exact hs.running_lt
  running_apart := by
    intro other hrunning e he
    rw [cancel_running] at hrunning
    exact hs.running_apart other hrunning e (hs.mem_cancel_queue.mp he).1
  cancelled_running := by
    intro other hother
    rw [cancel_running]
    rcases mem_cancel_cancelled.mp hother with hother | ⟨rfl, -, hrunning⟩
    · exact hs.cancelled_running other hother
    · exact hrunning

/-! ### Taking the first entry, and putting it back -/

theorem nextDue?_eq_some {s : Scheduler τ} {e : QueueEntry τ} :
    s.nextDue? = some e ↔ s.queue = e :: s.queue.tail ∧ e.due ≤ s.current := by
  unfold nextDue?
  cases hq : s.queue with
  | nil => simp
  | cons f rest =>
    by_cases hf : f.due ≤ s.current
    · simp only [hf, if_true, Option.some.injEq, List.tail_cons, List.cons.injEq, and_true]
      constructor
      · rintro rfl
        exact ⟨rfl, hf⟩
      · exact fun h => h.1
    · simp only [hf, if_false, List.tail_cons, List.cons.injEq, and_true, reduceCtorEq, false_iff]
      rintro ⟨rfl, h⟩
      exact hf h

theorem mem_of_nextDue? {s : Scheduler τ} {e : QueueEntry τ} (h : s.nextDue? = some e) :
    e ∈ s.queue := by
  rw [(nextDue?_eq_some.mp h).1]
  exact List.mem_cons_self

/-- What is due next comes before everything else in the queue. -/
theorem Sound.before_of_nextDue? {s : Scheduler τ} (hs : s.Sound) {e f : QueueEntry τ}
    (h : s.nextDue? = some e) (hf : f ∈ s.queue) (hne : f.id ≠ e.id) : e.before f = true := by
  have hord := hs.ordered
  rw [(nextDue?_eq_some.mp h).1] at hord hf
  rcases List.mem_cons.mp hf with rfl | hf
  · exact absurd rfl hne
  · exact (List.pairwise_cons.mp hord).1 f hf

/-- If nothing is due, everything in the queue is due later. -/
theorem Sound.lt_due_of_nextDue?_eq_none {s : Scheduler τ} (hs : s.Sound)
    (h : s.nextDue? = none) : ∀ e ∈ s.queue, s.current < e.due := by
  unfold nextDue? at h
  cases hq : s.queue with
  | nil => simp
  | cons f rest =>
    simp only [hq] at h
    have hf : s.current < f.due := by
      by_contra hle
      simp [Nat.not_lt.mp hle] at h
    intro e he
    rcases List.mem_cons.mp he with rfl | he
    · exact hf
    · have hord := hs.ordered
      rw [hq] at hord
      have := QueueEntry.due_le_of_before ((List.pairwise_cons.mp hord).1 e he)
      omega

@[simp] theorem start_current (s : Scheduler τ) (e : QueueEntry τ) :
    (s.start e).current = s.current := rfl

@[simp] theorem start_nextId (s : Scheduler τ) (e : QueueEntry τ) :
    (s.start e).nextId = s.nextId := rfl

@[simp] theorem start_cancelled (s : Scheduler τ) (e : QueueEntry τ) :
    (s.start e).cancelled = s.cancelled := rfl

theorem mem_start_running {s : Scheduler τ} {e : QueueEntry τ} {id : TaskId} :
    id ∈ (s.start e).running ↔ id = e.id ∧ e.period?.isSome ∨ id ∈ s.running := by
  cases h : e.period? <;> simp [start, h]

theorem start_running_of_idle {s : Scheduler τ} (h : s.running = []) (e : QueueEntry τ) :
    (s.start e).running = if e.period?.isSome then [e.id] else [] := by
  cases hp : e.period? <;> simp [start, hp, h]

theorem start_dueOf? (s : Scheduler τ) (e : QueueEntry τ) (id : TaskId) :
    (s.start e).dueOf? id = if id = e.id then none else s.dueOf? id :=
  lookup_withoutDue e.id id s.dueOf

/-- An entry that starts to fire leaves the queue, and no other one does. -/
theorem Sound.mem_start_queue {s : Scheduler τ} (hs : s.Sound) {e : QueueEntry τ}
    (hnext : s.nextDue? = some e) {f : QueueEntry τ} :
    f ∈ (s.start e).queue ↔ f ∈ s.queue ∧ f.id ≠ e.id := by
  obtain ⟨hq, -⟩ := nextDue?_eq_some.mp hnext
  have hnodup := hs.ids_nodup
  rw [hq, List.map_cons, List.nodup_cons] at hnodup
  change f ∈ s.queue.tail ↔ _
  rw [hq, List.mem_cons, List.tail_cons]
  constructor
  · intro hf
    exact ⟨Or.inr hf, fun hid => hnodup.1 (hid ▸ List.mem_map_of_mem hf)⟩
  · rintro ⟨rfl | hf, hid⟩
    · exact absurd rfl hid
    · exact hf

/-- A sound scheduler stays so when its next entry starts to fire. -/
theorem Sound.start {s : Scheduler τ} (hs : s.Sound) {e : QueueEntry τ}
    (hnext : s.nextDue? = some e) : (s.start e).Sound where
  ordered := hs.ordered.sublist (List.tail_sublist _)
  ids_nodup := hs.ids_nodup.sublist ((List.tail_sublist _).map _)
  ids_lt := fun f hf => hs.ids_lt f ((hs.mem_start_queue hnext).mp hf).1
  dueOf_iff := by
    intro id due
    rw [start_dueOf?]
    by_cases hid : id = e.id
    · subst hid
      simp only [if_true, reduceCtorEq, false_iff]
      rintro ⟨f, hf, hfid, -⟩
      exact ((hs.mem_start_queue hnext).mp hf).2 hfid
    · simp only [hid, if_false, hs.dueOf_iff, hs.mem_start_queue hnext]
      constructor
      · rintro ⟨f, hf, rfl, rfl⟩
        exact ⟨f, ⟨hf, hid⟩, rfl, rfl⟩
      · rintro ⟨f, ⟨hf, -⟩, hfid, hdue⟩
        exact ⟨f, hf, hfid, hdue⟩
  running_lt := by
    intro id hid
    rcases mem_start_running.mp hid with ⟨rfl, -⟩ | hid
    · exact hs.ids_lt e (mem_of_nextDue? hnext)
    · exact hs.running_lt id hid
  running_apart := by
    intro id hid f hf
    obtain ⟨hf, hne⟩ := (hs.mem_start_queue hnext).mp hf
    rcases mem_start_running.mp hid with ⟨rfl, -⟩ | hid
    · exact hne
    · exact hs.running_apart id hid f hf
  cancelled_running := by
    intro id hid
    exact mem_start_running.mpr (Or.inr (hs.cancelled_running id hid))

/-! ### The end of a firing -/

/-- A task without a period is over when it is done. -/
theorem finish_once {s : Scheduler τ} {e : QueueEntry τ} (h : e.period? = none) :
    s.finish e = s := by
  simp [finish, h]

/-- A repeating task that was cancelled while it fired is not queued again. -/
theorem finish_cancelled {s : Scheduler τ} {e : QueueEntry τ} {period : Nat}
    (h : e.period? = some period) (hc : e.id ∈ s.cancelled) :
    s.finish e = { s with
      running := withoutTask e.id s.running
      cancelled := withoutTask e.id s.cancelled } := by
  simp [finish, h, hc]

/-- A repeating task is queued again, a period later. -/
theorem finish_again {s : Scheduler τ} {e : QueueEntry τ} {period : Nat}
    (h : e.period? = some period) (hc : e.id ∉ s.cancelled) :
    s.finish e =
      ({ s with running := withoutTask e.id s.running } : Scheduler τ).push
        { e with due := (s.current + period) % tickSpan } := by
  simp [finish, h, hc]

@[simp] theorem finish_current (s : Scheduler τ) (e : QueueEntry τ) :
    (s.finish e).current = s.current := by
  unfold finish; (repeat' split) <;> rfl

@[simp] theorem finish_nextId (s : Scheduler τ) (e : QueueEntry τ) :
    (s.finish e).nextId = s.nextId := by
  unfold finish; (repeat' split) <;> rfl

theorem finish_running (s : Scheduler τ) (e : QueueEntry τ) :
    (s.finish e).running = if e.period?.isSome then withoutTask e.id s.running else s.running := by
  unfold finish
  cases e.period? with
  | none => rfl
  | some period => simp only []; split <;> rfl

/-- An entry that is queued after a firing was queued before it ended, or it is the
    one that fired, which repeats and is due again a period later. -/
theorem requeued_of_mem_finish {s : Scheduler τ} {e f : QueueEntry τ}
    (hf : f ∈ (s.finish e).queue) :
    f ∈ s.queue ∨ ∃ period, e.period? = some period ∧ e.id ∉ s.cancelled ∧
      f = { e with due := (s.current + period) % tickSpan } := by
  cases hp : e.period? with
  | none => rw [finish_once hp] at hf; exact Or.inl hf
  | some period =>
    by_cases hc : e.id ∈ s.cancelled
    · rw [finish_cancelled hp hc] at hf
      exact Or.inl hf
    · rw [finish_again hp hc] at hf
      rcases mem_insertByDue.mp hf with hown | hf
      · exact Or.inr ⟨period, rfl, hc, by rw [hown, hp]⟩
      · exact Or.inl hf

theorem mem_finish_queue {s : Scheduler τ} {e f : QueueEntry τ} (hf : f ∈ (s.finish e).queue) :
    f ∈ s.queue ∨ f.id = e.id := by
  rcases requeued_of_mem_finish hf with hf | ⟨_, -, -, rfl⟩
  · exact Or.inl hf
  · exact Or.inr rfl

theorem mem_finish_of_mem {s : Scheduler τ} {e f : QueueEntry τ} (hf : f ∈ s.queue) :
    f ∈ (s.finish e).queue := by
  cases hp : e.period? with
  | none => rw [finish_once hp]; exact hf
  | some period =>
    by_cases hc : e.id ∈ s.cancelled
    · rw [finish_cancelled hp hc]
      exact hf
    · rw [finish_again hp hc]
      exact mem_insertByDue.mpr (Or.inr hf)

/-- A task that is done leaves the queue sound, if none of its entries was in it. -/
theorem Sound.finish {s : Scheduler τ} (hs : s.Sound) {e : QueueEntry τ}
    (hlt : e.id < s.nextId) (hfree : ∀ f ∈ s.queue, f.id ≠ e.id) : (s.finish e).Sound := by
  have hrunning : ∀ id ∈ withoutTask e.id s.running, id ∈ s.running := fun id hid =>
    (mem_withoutTask.mp hid).1
  cases hp : e.period? with
  | none => rw [finish_once hp]; exact hs
  | some period =>
    by_cases hc : e.id ∈ s.cancelled
    · rw [finish_cancelled hp hc]
      exact { hs with
        running_lt := fun id hid => hs.running_lt id (hrunning id hid)
        running_apart := fun id hid => hs.running_apart id (hrunning id hid)
        cancelled_running := fun id hid =>
          have ⟨hid, hne⟩ := mem_withoutTask.mp hid
          mem_withoutTask.mpr ⟨hs.cancelled_running id hid, hne⟩ }
    · have hidle : ({ s with running := withoutTask e.id s.running } : Scheduler τ).Sound :=
        { hs with
          running_lt := fun id hid => hs.running_lt id (hrunning id hid)
          running_apart := fun id hid => hs.running_apart id (hrunning id hid)
          cancelled_running := fun id hid =>
            mem_withoutTask.mpr ⟨hs.cancelled_running id hid, fun heq => hc (heq ▸ hid)⟩ }
      rw [finish_again hp hc]
      exact hidle.push hlt hfree fun hid => (mem_withoutTask.mp hid).2 rfl

end Scheduler

end RuleEngine
