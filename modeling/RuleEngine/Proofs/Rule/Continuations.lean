/-
  RuleEngine/Proofs/Rule/Continuations.lean
  =========================================
  **When the leaves of a triggered tree run.**

  What a delay schedules is scheduled again by the delays within it, while the tick that
  its entry was due at is under way.  A tree is followed through all this by its tasks:
  those that its trigger scheduled, and those that these scheduled in turn (`Progress`).
  The turns that they took and those that the queue still holds of them are the agenda of
  the tree at any moment (`Outstanding.balance`): an entry that leaves the queue to fire
  runs the leaves that are due with it, and puts the rest back as new entries, unless it
  is handed to the runtime with all its leaves.

  A runtime runs what it is handed off the ticking thread, at a moment that nobody knows.
  So nothing is said of the tree beyond that, but for the tick and the leaves.
-/
import RuleEngine.Proofs.Rule.Spelling
import RuleEngine.Proofs.Scheduler.Standing

namespace RuleEngine

/-! ### What comes of a tree -/

/-- What is known of a tree after some events: the tasks that come from it, and which of
    them fired, each with its tick. -/
structure Progress where
  tasks : List TaskId
  fired : List (Nat × Work) := []

namespace Progress

/-- Nothing but that the tree was triggered, and scheduled the tasks that are numbered from
    one scheduler to the other. -/
def since (before after : Scheduler Work) : Progress where
  tasks := List.range' before.nextId (after.nextId - before.nextId)

/-- A task comes from the tree if one from the tree scheduled it. -/
def see (p : Progress) : Event Work → Progress
  | .scheduled _ caller? id _ _ _ =>
    if caller?.any (· ∈ p.tasks) then { p with tasks := p.tasks ++ [id] } else p
  | .fired now e => if e.id ∈ p.tasks then { p with fired := p.fired ++ [(now, e.task)] } else p
  | _ => p

def after (p : Progress) (h : List (Event Work)) : Progress := h.foldl see p

def turns (runtime : Bool) (p : Progress) : List Leaf.Turn :=
  p.fired.flatMap fun f => f.2.taken runtime f.1

/-- What is known of a tree one of whose tasks started to act as an entry, in a state that is
    not its own yet, when tasks up to a number have been scheduled since. -/
def acted (p : Progress) (before : Scheduler Work) (e : QueueEntry Work) (nextId : TaskId) :
    Progress where
  tasks := p.tasks ++ List.range' before.nextId (nextId - before.nextId)
  fired := p.fired ++ [(before.current, e.task)]

theorem after_append (p : Progress) (h k : List (Event Work)) :
    p.after (h ++ k) = (p.after h).after k :=
  List.foldl_append

theorem after_singleton (p : Progress) (event : Event Work) : p.after [event] = p.see event := rfl

theorem after_requeueEvents (p : Progress) (s : Scheduler Work) (e : QueueEntry Work) :
    p.after (s.requeueEvents e) = p := by
  unfold Scheduler.requeueEvents
  (repeat' split) <;> rfl

theorem see_event_of_apart {p : Progress} {m : Moment Work World}
    (apart : ∀ id, m.phase.caller? = some id → id ∉ p.tasks) (call : Call Work) :
    p.see (m.event call) = p := by
  have hcaller : ¬ (m.phase.caller?.any (· ∈ p.tasks)) = true := by
    cases hphase : m.phase.caller? with
    | none => simp
    | some id => simpa using apart id hphase
  cases call with
  | schedule delay task => exact if_neg hcaller
  | scheduleRepeating initial period task => exact if_neg hcaller
  | cancel id => rfl

/-- Whatever is scheduled while a task from the tree acts comes from the tree. -/
theorem see_event_of_acting {p : Progress} {m : Moment Work World} {before : Scheduler Work}
    {e : QueueEntry Work} (acting : m.phase.caller? = some e.id) (own : e.id ∈ p.tasks)
    (grown : before.nextId ≤ m.scheduler.nextId) (call : Call Work) :
    (p.acted before e m.scheduler.nextId).see (m.event call) =
      p.acted before e (m.perform call).scheduler.nextId := by
  have hcaller : m.phase.caller?.any
      (· ∈ (p.acted before e m.scheduler.nextId).tasks) = true := by
    rw [acting]
    simp [acted, own]
  have hgrown : p.acted before e (m.scheduler.nextId + 1) =
      { p.acted before e m.scheduler.nextId with
        tasks := (p.acted before e m.scheduler.nextId).tasks ++ [m.scheduler.nextId] } := by
    simp only [acted, List.append_assoc]
    rw [Nat.sub_add_comm grown, List.range'_1_concat, Nat.add_sub_of_le grown]
  cases call with
  | schedule delay task => exact (if_pos hcaller).trans hgrown.symm
  | scheduleRepeating initial period task => exact (if_pos hcaller).trans hgrown.symm
  | cancel id => exact congrArg (p.acted before e) (Scheduler.cancel_nextId m.scheduler id).symm

end Progress

/-! ### What the queue holds of a tree -/

namespace Scheduler

variable {τ : Type} {s : Scheduler τ} {tasks : List TaskId}

def share (s : Scheduler τ) (tasks : List TaskId) : List (QueueEntry τ) :=
  s.queue.filter fun e => e.id ∈ tasks

theorem mem_share {e : QueueEntry τ} : e ∈ s.share tasks ↔ e ∈ s.queue ∧ e.id ∈ tasks := by
  simp [share]

theorem share_push {e : QueueEntry τ} (other : e.id ∉ tasks) :
    ((s.push e).share tasks).Perm (s.share tasks) := by
  have hperm := (insertByDue_perm e s.queue).filter fun f => f.id ∈ tasks
  rwa [List.filter_cons_of_neg (by simpa using other)] at hperm

theorem share_cancel {id : TaskId} (other : (s.cancel id).1 = true → id ∉ tasks) :
    (s.cancel id).2.share tasks = s.share tasks := by
  cases hdue : s.dueOf? id with
  | none =>
    have hsame : (s.cancel id).2.queue = s.queue := by
      simp only [cancel, hdue]
      split <;> rfl
    rw [share, hsame, share]
  | some due =>
    rw [cancel_queued hdue] at other ⊢
    rw [share, List.filter_filter, share]
    refine List.filter_congr fun e _ => ?_
    by_cases he : e.id = id
    · simp [he, other rfl]
    · simp [he]

theorem share_perform (given : ∀ id ∈ tasks, id < s.nextId) {call : Call τ}
    (other : ∀ id, call = .cancel id → (s.cancel id).1 = true → id ∉ tasks) :
    ((s.perform call).share tasks).Perm (s.share tasks) := by
  have hnew : s.nextId ∉ tasks := fun hmem => Nat.lt_irrefl _ (given _ hmem)
  cases call with
  | schedule delay task => exact share_push (s := { s with nextId := s.nextId + 1 }) hnew
  | scheduleRepeating initial period task =>
    exact share_push (s := { s with nextId := s.nextId + 1 }) hnew
  | cancel id => exact List.Perm.of_eq (share_cancel (other id rfl))

/-- An entry that starts to fire leaves the share that it belongs to. -/
theorem share_of_nextDue? {e : QueueEntry τ} (due : s.nextDue? = some e) :
    s.share tasks =
      if e.id ∈ tasks then e :: (s.start e).share tasks else (s.start e).share tasks := by
  obtain ⟨hqueue, -⟩ := nextDue?_eq_some.mp due
  rw [share, hqueue, List.filter_cons]
  simp only [decide_eq_true_eq]
  rfl

theorem share_finish {e : QueueEntry τ} (other : e.id ∉ tasks) :
    ((s.finish e).share tasks).Perm (s.share tasks) := by
  unfold finish
  split
  · exact List.Perm.refl _
  · dsimp only
    split
    · exact List.Perm.refl _
    · exact share_push (s := { s with running := withoutTask e.id s.running }) other

end Scheduler

/-! ### The agenda of a tree -/

/-- What tasks from a tree did, and what they have to do yet, when they are triggered for
    a context and are over after a tick. -/
structure Outstanding (runtime : Bool) (c : ContextId) (last : Nat) (agenda : List Leaf.Turn)
    (p : Progress) (m : Moment Work World) : Prop where
  given : ∀ id ∈ p.tasks, id < m.scheduler.nextId
  ran : ∀ f ∈ p.fired, ∃ mode actions, f.2 = .actions mode c actions ∧ actionsPlain actions
  waits : ∀ e ∈ m.scheduler.share p.tasks, m.horizon ≤ e.due ∧ e.Continues c last
  balance : (p.turns runtime ++
    (m.scheduler.share p.tasks).flatMap (QueueEntry.future runtime)).Perm agenda

section Outstanding

variable {runtime : Bool} {c : ContextId} {last : Nat} {agenda : List Leaf.Turn} {p : Progress}
  {m m' : Moment Work World}

/-- Nothing is to be shown for steps that leave the entries of the tree alone. -/
theorem Outstanding.of_share (h : Outstanding runtime c last agenda p m)
    (hshare : (m'.scheduler.share p.tasks).Perm (m.scheduler.share p.tasks))
    (hnext : m.scheduler.nextId ≤ m'.scheduler.nextId)
    (hhorizon : ∀ e ∈ m.scheduler.queue, m.horizon ≤ e.due → m'.horizon ≤ e.due) :
    Outstanding runtime c last agenda p m' where
  given := fun id hid => Nat.lt_of_lt_of_le (h.given id hid) hnext
  ran := h.ran
  waits := by
    intro e he
    have hmem := hshare.mem_iff.mp he
    obtain ⟨hdue, hcontinues⟩ := h.waits e hmem
    exact ⟨hhorizon e (Scheduler.mem_share.mp hmem).1 hdue, hcontinues⟩
  balance := ((hshare.flatMap_right _).append_left _).trans h.balance

theorem lt_of_mem_between {before after id : TaskId} (grown : before ≤ after)
    (hid : id ∈ List.range' before (after - before)) : id < after := by
  have hlt := (List.mem_range'_1.mp hid).2
  rwa [Nat.add_sub_of_le grown] at hlt

theorem id_of_mem_entries {actions : List Action} (plain : actionsPlain actions) {mode : ExecMode}
    {now : Nat} {id : TaskId} {e : QueueEntry Work}
    (he : e ∈ (Work.actions mode c actions).entries runtime c now id) :
    e.id ∈ List.range' id ((Work.actions mode c actions).entries runtime c now id).length := by
  unfold Work.entries at he ⊢
  split at he
  · cases he
  · rw [if_neg ‹_›]
    exact id_of_mem_continuations (plainStep_of_plain plain) he

/-- What is queued of some tasks, and of those that were scheduled since, when a scheduler has
    got new entries. -/
theorem Scheduler.Gains.share {s s' : Scheduler Work} {new : List (QueueEntry Work)}
    (gains : s.Gains new s') (given : ∀ e ∈ s.queue, e.id < s.nextId)
    (fresh : ∀ e ∈ new, e.id ∈ List.range' s.nextId new.length) (tasks : List TaskId) :
    (s'.share (tasks ++ List.range' s.nextId (s'.nextId - s.nextId))).Perm
      (new ++ s.share tasks) := by
  rw [gains.nextId, Nat.add_sub_cancel_left]
  refine (gains.queue.filter _).trans (List.Perm.of_eq ?_)
  rw [List.filter_append]
  congr 1
  · refine List.filter_eq_self.mpr fun e he => ?_
    simpa using Or.inr (List.mem_range'_1.mp (fresh e he))
  · refine List.filter_congr fun e he => ?_
    have hold : e.id ∉ List.range' s.nextId new.length := fun hmem =>
      Nat.not_le_of_lt (given e he) (List.mem_range'_1.mp hmem).1
    simp only [List.mem_append, hold, or_false]

/-! ### Firings of the tree's own tasks -/

section Firing

variable {origin before : EngineState} {e : QueueEntry Work}

/-- An entry from the tree fires at the tick that it is due at. -/
theorem Outstanding.turn (h : Outstanding runtime c last agenda p ⟨before, .ticking origin⟩)
    (due : before.scheduler.nextDue? = some e) (own : e.id ∈ p.tasks) :
    e.due = before.scheduler.current ∧ e.Continues c last := by
  have hmem : e ∈ before.scheduler.share p.tasks :=
    Scheduler.mem_share.mpr ⟨Scheduler.mem_of_nextDue? due, own⟩
  obtain ⟨hle, hcontinues⟩ := h.waits e hmem
  exact ⟨Nat.le_antisymm (Scheduler.nextDue?_eq_some.mp due).2 hle, hcontinues⟩

/-- A firing takes the turns that are due with its entry; the others that the entry had to take
    are those of the entries that the firing queues. -/
theorem Outstanding.balance_acted
    (h : Outstanding runtime c last agenda p ⟨before, .ticking origin⟩) (hlast : last < tickSpan)
    (due : before.scheduler.nextDue? = some e) (own : e.id ∈ p.tasks) (id nextId : TaskId) :
    ((p.acted before.scheduler e nextId).turns runtime ++
      (e.task.entries runtime c before.scheduler.current id ++
        (before.scheduler.start e).share p.tasks).flatMap (QueueEntry.future runtime)).Perm
      agenda := by
  obtain ⟨hdue, -, mode, actions, htask, plain, hspan⟩ := h.turn due own
  have hbalance := h.balance
  have hshare : before.scheduler.share p.tasks = e :: (before.scheduler.start e).share p.tasks := by
    rw [Scheduler.share_of_nextDue? due, if_pos own]
  have hfuture :=
    Work.turns_perm plain (Nat.lt_of_le_of_lt hspan hlast) runtime mode c id
  rw [Moment.scheduler, hshare, List.flatMap_cons, QueueEntry.future, htask] at hbalance
  rw [Progress.turns, Progress.acted, List.flatMap_append, List.flatMap_singleton, htask,
    List.flatMap_append, ← hdue]
  refine List.Perm.trans ?_ hbalance
  -- the turns of the entry are taken now, or wait in the new entries
  rw [List.append_assoc, ← List.append_assoc (Work.taken ..)]
  exact (hfuture.symm.append_right _).append_left _

/-- What an entry queues when it fires, and what was queued beside it, is not overdue. -/
theorem Outstanding.waits_acted
    (h : Outstanding runtime c last agenda p ⟨before, .ticking origin⟩) (hlast : last < tickSpan)
    (due : before.scheduler.nextDue? = some e) (own : e.id ∈ p.tasks) (id : TaskId) :
    ∀ f ∈ e.task.entries runtime c before.scheduler.current id ++
        (before.scheduler.start e).share p.tasks,
      before.scheduler.current ≤ f.due ∧ f.Continues c last := by
  obtain ⟨hdue, -, mode, actions, htask, plain, hspan⟩ := h.turn due own
  have hroom : ∀ b ∈ actionsSteps actions, before.scheduler.current + b.span ≤ last := by
    intro b hb
    rw [← hdue]
    exact Nat.le_trans (Nat.add_le_add_left (actionsSpan_steps actions b hb) _) hspan
  intro f hf
  rcases List.mem_append.mp hf with hf | hf
  · rw [htask] at hf
    unfold Work.entries at hf
    split at hf
    · cases hf
    · obtain ⟨hcontinues, delay, _, _, -, hfdue⟩ :=
        continues_of_mem (plainStep_of_plain plain) hlast hroom hf
      exact ⟨hfdue ▸ Nat.le_add_right _ _, hcontinues⟩
  · refine h.waits f ?_
    change f ∈ before.scheduler.share p.tasks
    rw [Scheduler.share_of_nextDue? due, if_pos own]
    exact List.mem_cons_of_mem _ hf

/-- When a task of the tree is done, what is outstanding is what it queued and what it left in the
    queue. -/
theorem Outstanding.finish (h : Outstanding runtime c last agenda p ⟨before, .ticking origin⟩)
    (hlast : last < tickSpan) (sound : before.scheduler.Sound)
    (due : before.scheduler.nextDue? = some e) (own : e.id ∈ p.tasks)
    (ends : e.task.isHanded runtime = false →
      ∃ st, e.task.run (before.started e) = .ok () st)
    (hstate : m.scheduler = (e.task.dispatch runtime e.id (before.started e)).scheduler)
    (hphase : m.horizon = m.now) :
    Outstanding runtime c last agenda (p.acted before.scheduler e m.scheduler.nextId) m := by
  obtain ⟨hdue, -, mode, actions, htask, plain, hspan⟩ := h.turn due own
  have hbalance := h.balance_acted hlast due own before.scheduler.nextId m.scheduler.nextId
  have hwaits := h.waits_acted hlast due own before.scheduler.nextId
  rw [htask] at hbalance hwaits hstate ends
  have gains := Work.dispatch_gains plain e.id ends
  rw [← hstate] at gains
  have hshare := gains.share (sound.start due).ids_lt (fun f hf => id_of_mem_entries plain hf)
    p.tasks
  have hgrown : before.scheduler.nextId ≤ m.scheduler.nextId := by
    rw [gains.nextId]
    exact Nat.le_add_right _ _
  constructor
  · intro id hid
    rcases List.mem_append.mp hid with hid | hid
    · exact Nat.lt_of_lt_of_le (h.given id hid) hgrown
    · exact lt_of_mem_between hgrown hid
  · intro f hf
    rcases List.mem_append.mp hf with hf | hf
    · exact h.ran f hf
    · rw [List.mem_singleton.mp hf]
      exact ⟨mode, actions, htask, plain⟩
  · intro f hf
    rw [hphase, Moment.now, gains.current]
    exact hwaits f (hshare.mem_iff.mp hf)
  · exact ((hshare.flatMap_right _).append_left _).trans hbalance

end Firing

end Outstanding

/-! ### Runs that leave the tree alone -/

/-- If it is a task among some that acts at a moment, it succeeds, unless the runtime has it. -/
def Moment.Succeeds (runtime : Bool) (tasks : List TaskId) (m : Moment Work World) : Prop :=
  ∀ origin before e, m.phase = .firing origin before e → e.id ∈ tasks →
    e.task.isHanded runtime = false → ∃ st, e.task.run (before.started e) = .ok () st

/-- A run in which no task from a tree panics or is cancelled, and in which the counter does
    not start again from zero. -/
inductive SmoothCourse (runtime : Bool) (p : Progress) (m : Moment Work World) :
    List (Event Work) → Moment Work World → Prop where
  | refl : SmoothCourse runtime p m [] m
  | snoc {h events : List (Event Work)} {m' m'' : Moment Work World}
      (run : SmoothCourse runtime p m h m') (step : Step (workshopOf runtime) m' events m'')
      (succeeds : m''.Succeeds runtime (p.after (h ++ events)).tasks)
      (kept : ∀ now caller? id, .cancelled now caller? id true ∈ events → id ∉ (p.after h).tasks)
      (counted : ∀ now, .ticked now ∈ events → now < tickSpan) :
      SmoothCourse runtime p m (h ++ events) m''

/-- A run in which nothing panics is a run. -/
theorem SmoothCourse.course {runtime : Bool} {p : Progress} {m m' : Moment Work World}
    {h : List (Event Work)} (run : SmoothCourse runtime p m h m') :
    Course (workshopOf runtime) m h m' := by
  induction run with
  | refl => exact .refl
  | snoc _ step _ _ _ ih => exact ih.snoc step

section Smooth

variable {runtime : Bool} {p : Progress} {m : Moment Work World} {h : List (Event Work)}
  {st origin before : EngineState} {e : QueueEntry Work}

theorem Moment.succeeds_of_idle {m : Moment Work World} (idle : m.phase.caller? = none)
    (tasks : List TaskId) : m.Succeeds runtime tasks := by
  intro origin before e hphase
  rw [hphase] at idle
  cases idle

theorem Moment.succeeds_of_ends
    (ends : e.task.isHanded runtime = false → ∃ st, e.task.run (before.started e) = .ok () st)
    (tasks : List TaskId) : Moment.Succeeds runtime tasks ⟨st, .firing origin before e⟩ := by
  rintro _ _ _ ⟨⟩ -
  exact ends

/-- A task that only schedules goes on with a smooth run. -/
theorem SmoothCourse.schedules
    (ends : e.task.isHanded runtime = false → ∃ st, e.task.run (before.started e) = .ok () st)
    (run : SmoothCourse runtime p m h ⟨st, .firing origin before e⟩) (tasks : List (Nat × Work))
    {st' : EngineState}
    (hst' : st'.scheduler = st.scheduler.performAll (tasks.map fun t => .schedule t.1 t.2)) :
    ∃ k, SmoothCourse runtime p m k ⟨st', .firing origin before e⟩ := by
  induction tasks generalizing h st with
  | nil =>
    have hsame : st' = { st with world := st'.world } := by
      cases st'
      exact congrArg₂ Scheduled.mk hst' rfl
    rw [hsame]
    exact ⟨_, run.snoc (.change (fun _ => st'.world) trivial) (Moment.succeeds_of_ends ends _)
      (by simp) (by simp)⟩
  | cons t rest ih =>
    exact ih (run.snoc (.call (.schedule t.1 t.2) trivial) (Moment.succeeds_of_ends ends _)
      (by simp [Moment.event]) (by simp [Moment.event])) hst'

/-- A firing that succeeds, and only schedules, goes on with a smooth run. -/
theorem SmoothCourse.fire (run : SmoothCourse runtime p m h ⟨st, .ticking origin⟩)
    (due : st.scheduler.nextDue? = some e)
    (ends : e.task.isHanded runtime = false → ∃ st', e.task.run (st.started e) = .ok () st')
    (tasks : List (Nat × Work))
    (schedules : (e.task.dispatch runtime e.id (st.started e)).scheduler =
      (st.scheduler.start e).performAll (tasks.map fun t => .schedule t.1 t.2)) :
    ∃ k, SmoothCourse runtime p m k ⟨st.fire (workshopOf runtime) e, .ticking origin⟩ := by
  have fired := run.snoc (.fire due) (Moment.succeeds_of_ends ends _) (by simp) (by simp)
  obtain ⟨k, scheduled⟩ := fired.schedules ends tasks schedules
  refine ⟨_, scheduled.snoc (.finish rfl) (Moment.succeeds_of_idle rfl _) ?_ ?_⟩
  · intro now caller? id hev
    obtain ⟨_, heq⟩ := Scheduler.eq_of_mem_requeueEvents hev
    cases heq
  · intro now hev
    obtain ⟨_, heq⟩ := Scheduler.eq_of_mem_requeueEvents hev
    cases heq

end Smooth

/-- How a tree stands at a moment: none of its tasks acts, or one does, which succeeds, and
    what was outstanding when its entry was taken from the queue is known. -/
inductive OnTrack (runtime : Bool) (c : ContextId) (last : Nat) (agenda : List Leaf.Turn)
    (p : Progress) (m : Moment Work World) : Prop where
  | apart (other : ∀ id, m.phase.caller? = some id → id ∉ p.tasks)
      (outstanding : Outstanding runtime c last agenda p m)
  | acting {p' : Progress} {origin before : EngineState} {e : QueueEntry Work}
      (phase_eq : m.phase = .firing origin before e)
      (outstanding : Outstanding runtime c last agenda p' ⟨before, .ticking origin⟩)
      (sound : before.scheduler.Sound) (due : before.scheduler.nextDue? = some e)
      (own : e.id ∈ p'.tasks)
      (ends : e.task.isHanded runtime = false → ∃ st, e.task.run (before.started e) = .ok () st)
      (now_eq : m.now = before.scheduler.current)
      (grown : before.scheduler.nextId ≤ m.scheduler.nextId)
      (progress_eq : p = p'.acted before.scheduler e m.scheduler.nextId)

section Steps

variable {runtime : Bool} {c : ContextId} {last : Nat} {agenda : List Leaf.Turn} {p : Progress}
  {m m' : Moment Work World} {h events : List (Event Work)}

/-- After a step the tree is on track. -/
theorem Outstanding.step (outstanding : Outstanding runtime c last agenda p m)
    (other : ∀ id, m.phase.caller? = some id → id ∉ p.tasks) (hm : m.Sound (workshopOf runtime) h)
    (step : Step (workshopOf runtime) m events m')
    (succeeds : m'.Succeeds runtime (p.after events).tasks)
    (kept : ∀ now caller? id, .cancelled now caller? id true ∈ events → id ∉ p.tasks)
    (counted : ∀ now, .ticked now ∈ events → now < tickSpan) :
    OnTrack runtime c last agenda (p.after events) m' := by
  cases step with
  | call call acting =>
    rw [Progress.after_singleton, Progress.see_event_of_apart other]
    refine .apart other (outstanding.of_share (Scheduler.share_perform outstanding.given ?_)
      (Scheduler.nextId_le_perform _ call) fun e _ hle => ?_)
    · rintro id rfl hfound
      refine kept m.now m.phase.caller? id (List.mem_singleton.mpr ?_)
      rw [Moment.event, hfound]
    · rwa [horizon_perform]
  | change f acting => exact .apart other (outstanding.of_share (List.Perm.refl _) (Nat.le_refl _)
      fun e _ hle => hle)
  | tick st =>
    have hlt := counted _ (List.mem_singleton.mpr rfl)
    refine .apart (by simp [Phase.caller?]) (outstanding.of_share (List.Perm.refl _)
      (Nat.le_refl _) fun e _ hle => ?_)
    change (st.scheduler.current + 1) % tickSpan ≤ e.due
    rwa [Nat.mod_eq_of_lt hlt]
  | @fire st origin e due =>
    rw [Progress.after_singleton, Progress.see] at succeeds ⊢
    by_cases own : e.id ∈ p.tasks
    · rw [if_pos own] at succeeds ⊢
      have ends := succeeds _ _ e rfl own
      refine .acting rfl outstanding hm.queue due own ends rfl (Nat.le_refl _) ?_
      simp [Progress.acted, Moment.scheduler, Scheduled.started]
    · rw [if_neg own]
      refine .apart ?_ (outstanding.of_share (List.Perm.of_eq ?_) (Nat.le_refl _)
        fun e _ hle => hle)
      · rintro id hid
        rwa [← Option.some.inj hid]
      · exact ((Scheduler.share_of_nextDue? due).trans (if_neg own)).symm
  | @finish st origin before e done =>
    rw [Progress.after_requeueEvents]
    have hscheduler := Scheduled.fire_of_done done
    refine .apart (by simp [Phase.caller?]) (outstanding.of_share ?_ ?_ fun f _ hle => ?_)
    · rw [Moment.scheduler, hscheduler]
      exact Scheduler.share_finish (other e.id rfl)
    · rw [Moment.scheduler, Moment.scheduler, hscheduler, Scheduler.finish_nextId]
    · change (before.fire (workshopOf runtime) e).scheduler.current ≤ f.due
      rwa [hscheduler, Scheduler.finish_current]
  | @rest st origin drained returned =>
    obtain ⟨-, htrail⟩ := hm.phase
    have heq := htrail.tick_eq drained returned
    refine .apart (by simp [Phase.caller?]) (outstanding.of_share ?_ ?_ fun e he _ => ?_)
    · rw [heq]
      exact List.Perm.refl _
    · rw [heq]
      exact Nat.le_refl _
    · rw [heq]
      exact hm.queue.lt_due_of_nextDue?_eq_none drained e he

/-- **One step keeps a tree on track.** -/
theorem OnTrack.step (track : OnTrack runtime c last agenda p m) (hlast : last < tickSpan)
    (hm : m.Sound (workshopOf runtime) h) (step : Step (workshopOf runtime) m events m')
    (succeeds : m'.Succeeds runtime (p.after events).tasks)
    (kept : ∀ now caller? id, .cancelled now caller? id true ∈ events → id ∉ p.tasks)
    (counted : ∀ now, .ticked now ∈ events → now < tickSpan) :
    OnTrack runtime c last agenda (p.after events) m' := by
  cases track with
  | apart other outstanding => exact outstanding.step other hm step succeeds kept counted
  | @acting p' origin before e phase_eq outstanding sound due own ends now_eq grown progress_eq =>
    -- nothing is claimed of the queue while the task acts: what it leaves is known at the end
    obtain ⟨st, phase⟩ := m
    obtain rfl : phase = .firing origin before e := phase_eq
    cases step with
    | call call acting =>
      refine .acting rfl outstanding sound due own ends ?_ ?_ ?_
      · exact (Scheduler.perform_current _ call).trans now_eq
      · exact Nat.le_trans grown (Scheduler.nextId_le_perform _ call)
      · rw [Progress.after_singleton, progress_eq]
        exact Progress.see_event_of_acting rfl own grown call
    | change f acting => exact .acting rfl outstanding sound due own ends now_eq grown progress_eq
    | finish done =>
      -- whatever calls were seen, the state is the one that the task leads to
      have hscheduler : (before.fire (workshopOf runtime) e).scheduler = st.scheduler := by
        rw [Scheduled.fire_of_done done, Scheduler.finish_once (outstanding.turn due own).2.1]
      have hnext : (Moment.scheduler ⟨st, .firing origin before e⟩).nextId =
          (before.fire (workshopOf runtime) e).scheduler.nextId :=
        congrArg Scheduler.nextId hscheduler.symm
      rw [Progress.after_requeueEvents, progress_eq, hnext]
      exact .apart (by simp [Phase.caller?])
        (outstanding.finish (m := ⟨before.fire (workshopOf runtime) e, .ticking origin⟩) hlast sound
          due own ends (hscheduler.trans (congrArg Scheduled.scheduler done)) rfl)

end Steps

section Runs

variable {runtime : Bool} {c : ContextId} {last : Nat} {agenda : List Leaf.Turn} {p : Progress}
  {m m' : Moment Work World} {h k : List (Event Work)}

/-- A tree that is on track stays so on every run in which its tasks succeed. -/
theorem OnTrack.course (track : OnTrack runtime c last agenda p m) (hlast : last < tickSpan)
    (hm : m.Sound (workshopOf runtime) h) (run : SmoothCourse runtime p m k m') :
    OnTrack runtime c last agenda (p.after k) m' := by
  induction run with
  | refl => exact track
  | snoc run step succeeds kept counted ih =>
    rw [Progress.after_append] at succeeds ⊢
    exact ih.step hlast (run.course.sound hm) step succeeds kept counted

/-- Whatever fired of a tree was a plain list of actions in its context. -/
theorem OnTrack.ran (track : OnTrack runtime c last agenda p m) :
    ∀ f ∈ p.fired, ∃ mode actions, f.2 = .actions mode c actions ∧ actionsPlain actions := by
  cases track with
  | apart other outstanding => exact outstanding.ran
  | acting phase_eq outstanding sound due own ends now_eq grown progress_eq =>
    rw [progress_eq]
    intro f hf
    rcases List.mem_append.mp hf with hf | hf
    · exact outstanding.ran f hf
    · obtain ⟨-, -, mode, actions, htask, plain, -⟩ := outstanding.turn due own
      rw [List.mem_singleton.mp hf]
      exact ⟨mode, actions, htask, plain⟩

end Runs

/-! ### Triggering a tree -/

/-- What a trigger leaves outstanding are the delayed leaves of the tree. -/
theorem Action.Plain.outstanding {a : Action} (plain : a.Plain) (leadsOff : a.LeadsOff)
    {c : ContextId} {s : EngineState} (sound : s.scheduler.Sound)
    (room : s.scheduler.current + a.span < tickSpan) {st : EngineState}
    (triggered : a.trigger c s = .ok () st) (runtime : Bool) :
    Outstanding runtime c (s.scheduler.current + a.span)
      ((a.leaves.filter Leaf.isDelayed).map (Leaf.turn runtime s.scheduler.current))
      (.since s.scheduler st.scheduler) ⟨st, .between⟩ := by
  have hsteps := plain.steps
  rw [plain.trigger c] at triggered
  have gains := run_steps hsteps triggered
  have hspan : ∀ b ∈ a.steps, s.scheduler.current + b.span ≤ s.scheduler.current + a.span :=
    fun b hb => Nat.add_le_add_left (a.span_steps b hb) _
  have hshare := gains.share sound.ids_lt (fun f hf => id_of_mem_continuations hsteps hf) []
  have hempty : s.scheduler.share [] = [] := by simp [Scheduler.share]
  rw [hempty, List.append_nil, List.nil_append] at hshare
  have hfutures : (continuations c s.scheduler.current s.scheduler.nextId a.steps).flatMap
      (QueueEntry.future runtime) = _ :=
    futures_continuations runtime hsteps fun b hb => Nat.lt_of_le_of_lt (hspan b hb) room
  have hgrown : s.scheduler.nextId ≤ st.scheduler.nextId := by
    rw [gains.nextId]
    exact Nat.le_add_right _ _
  constructor
  · intro id hid
    exact lt_of_mem_between hgrown hid
  · intro f hf
    cases hf
  · intro e he
    obtain ⟨hcontinues, delay, mode, actions, hmem, hdue⟩ :=
      continues_of_mem hsteps room hspan (hshare.mem_iff.mp he)
    -- the current tick is over, so the first delay on a path has to lead beyond it
    refine ⟨?_, hcontinues⟩
    change st.scheduler.current + 1 ≤ e.due
    rw [gains.current, hdue]
    exact Nat.add_le_add_left (leadsOff delay mode actions hmem) _
  · rw [a.leaves_eq, ← hfutures]
    exact hshare.flatMap_right _

end RuleEngine
