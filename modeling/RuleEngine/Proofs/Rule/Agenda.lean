/-
  RuleEngine/Proofs/Rule/Agenda.lean
  ==================================
  **What a tree of chains and delays has to do, and when.**

  A tree of `chain` and `delay` rules over `message` and `command` leaves is an agenda:
  every leaf (`Leaf`) is to run as many ticks after the trigger as the delays on the way
  to it say together.  On a scheduler with a runtime the way ends at the first delay that
  asks for the runtime: what comes after it is handed over when that delay is over
  (`Leaf.turn`).  A chain only puts its members in order, so what a trigger does is a list
  of steps (`Action.steps`), each of which is a leaf or a delay.

  The trigger runs its steps one after another (`triggerAll_steps`).  Leaves leave the
  scheduler alone, and each delay queues one entry (`run_steps`).  Nothing is lost: the
  turns that the new entries still have to take are those of the delayed leaves
  (`futures_continuations`).
-/
import RuleEngine.Proofs.Rule.Calling

namespace RuleEngine

/-! ### Leaves -/

/-- A leaf of a tree, with the delays on the way to it: their ticks, and where what comes after
    them asks to run. -/
structure Leaf where
  delays : List (Nat × ExecMode)
  body : ActionBody

/-- What becomes of a leaf at a tick. -/
inductive Leaf.Turn where
  | run (tick : Nat) (body : ActionBody)
  /-- The runtime is handed the task that the leaf is in, with the delays that are left. -/
  | handed (tick : Nat) (leaf : Leaf)

def Leaf.Turn.tick : Leaf.Turn → Nat
  | run tick _ => tick
  | handed tick _ => tick

namespace Leaf

/-- The leaf, seen from one delay further up. -/
def below (delay : Nat) (mode : ExecMode) (l : Leaf) : Leaf :=
  { l with delays := (delay, mode) :: l.delays }

def isDelayed (l : Leaf) : Bool := !l.delays.isEmpty

def ticks (l : Leaf) : Nat := (l.delays.map Prod.fst).sum

/-- The turn of a leaf with some delays before it, counted from a tick. -/
def turnAfter (runtime : Bool) (body : ActionBody) : Nat → List (Nat × ExecMode) → Leaf.Turn
  | now, [] => .run now body
  | now, (delay, mode) :: rest =>
    if runtime && mode == .async then .handed (now + delay) ⟨rest, body⟩
    else turnAfter runtime body (now + delay) rest

/-- What becomes of the leaf when its tree is triggered at a tick, on a scheduler that may have
    a runtime. -/
def turn (runtime : Bool) (now : Nat) (l : Leaf) : Leaf.Turn :=
  turnAfter runtime l.body now l.delays

@[simp] theorem isDelayed_mk_nil (body : ActionBody) : (Leaf.mk [] body).isDelayed = false := rfl

@[simp] theorem isDelayed_below (delay : Nat) (mode : ExecMode) (l : Leaf) :
    (l.below delay mode).isDelayed = true := rfl

theorem turn_of_not_isDelayed {l : Leaf} (h : (!l.isDelayed) = true) (runtime : Bool) (now : Nat) :
    l.turn runtime now = .run now l.body := by
  have hnone : l.delays = [] := by simpa [isDelayed] using h
  rw [turn, hnone, turnAfter]

theorem turn_below (runtime : Bool) (now delay : Nat) (mode : ExecMode) (l : Leaf) :
    (l.below delay mode).turn runtime now =
      if runtime && mode == .async then .handed (now + delay) l else l.turn runtime (now + delay) :=
  rfl

end Leaf

/-! ### Trees -/

/-- A chance at which an action is never skipped. -/
def Formula.Certain (f : Formula) : Prop := f.const?.any (· == 1) = true

mutual

/-- The action is a tree of chains and delays over messages and commands, none of which is
    left to chance. -/
def Action.Plain : Action → Prop
  | .mk _ chance body => chance.Certain ∧ body.Plain

/-- The body is that of a chain, a delay, a message or a command, and so are those within. -/
def ActionBody.Plain : ActionBody → Prop
  | .chain actions => actionsPlain actions
  | .delay _ _ actions => actionsPlain actions
  | .message _ | .command _ => True
  | _ => False

/-- All of some actions are such trees. -/
def actionsPlain : List Action → Prop
  | [] => True
  | a :: rest => a.Plain ∧ actionsPlain rest

end

mutual

def Action.leaves : Action → List Leaf
  | .mk _ _ body => body.leaves

/-- The leaves of the body of an action: all of its members' in a chain, later ones in a
    delay, and itself otherwise. -/
def ActionBody.leaves : ActionBody → List Leaf
  | .chain actions => actionsLeaves actions
  | .delay delay mode actions => (actionsLeaves actions).map (Leaf.below delay mode)
  | body => [⟨[], body⟩]

def actionsLeaves : List Action → List Leaf
  | [] => []
  | a :: rest => a.leaves ++ actionsLeaves rest

end

mutual

/-- What an action comes to when it is triggered, without the chains. -/
def Action.steps : Action → List ActionBody
  | .mk _ _ body => body.steps

/-- What the body of an action comes to, without the chains. -/
def ActionBody.steps : ActionBody → List ActionBody
  | .chain actions => actionsSteps actions
  | body => [body]

def actionsSteps : List Action → List ActionBody
  | [] => []
  | a :: rest => a.steps ++ actionsSteps rest

end

mutual

def Action.span : Action → Nat
  | .mk _ _ body => body.span

/-- The largest sum of delays on a path of the body of an action. -/
def ActionBody.span : ActionBody → Nat
  | .chain actions => actionsSpan actions
  | .delay delay _ actions => delay + actionsSpan actions
  | _ => 0

def actionsSpan : List Action → Nat
  | [] => 0
  | a :: rest => max a.span (actionsSpan rest)

end

def ActionBody.isLeaf : ActionBody → Bool
  | .message _ | .command _ => true
  | _ => false

/-- A step of a plain tree. -/
inductive ActionBody.PlainStep : ActionBody → Prop where
  | leaf {body : ActionBody} (isLeaf : body.isLeaf) : PlainStep body
  | delay {delay : Nat} {mode : ExecMode} {actions : List Action} (plain : actionsPlain actions) :
      PlainStep (.delay delay mode actions)

/-- Every delay that is the first on its path takes a tick at least. -/
def Action.LeadsOff (a : Action) : Prop :=
  ∀ delay mode actions, .delay delay mode actions ∈ a.steps → 1 ≤ delay

/-! ### The steps of a tree -/

mutual

theorem Action.leaves_eq (a : Action) : a.leaves = a.steps.flatMap ActionBody.leaves := by
  cases a with
  | mk typeKey chance body =>
    rw [Action.leaves, Action.steps]
    exact ActionBody.leaves_eq body

theorem ActionBody.leaves_eq (body : ActionBody) :
    body.leaves = body.steps.flatMap ActionBody.leaves := by
  cases body with
  | chain actions =>
    rw [ActionBody.leaves, ActionBody.steps]
    exact actionsLeaves_eq actions
  | _ => simp [ActionBody.steps]

/-- The leaves of some actions are those of the steps that they come to. -/
theorem actionsLeaves_eq (actions : List Action) :
    actionsLeaves actions = (actionsSteps actions).flatMap ActionBody.leaves := by
  cases actions with
  | nil => simp [actionsLeaves, actionsSteps]
  | cons a rest =>
    rw [actionsLeaves, actionsSteps, List.flatMap_append, Action.leaves_eq a,
      actionsLeaves_eq rest]

end

mutual

theorem Action.span_steps (a : Action) : ∀ b ∈ a.steps, b.span ≤ a.span := by
  cases a with
  | mk typeKey chance body =>
    rw [Action.steps, Action.span]
    exact ActionBody.span_steps body

theorem ActionBody.span_steps (body : ActionBody) : ∀ b ∈ body.steps, b.span ≤ body.span := by
  cases body with
  | chain actions =>
    rw [ActionBody.steps, ActionBody.span]
    exact actionsSpan_steps actions
  | _ => simp [ActionBody.steps]

theorem actionsSpan_steps (actions : List Action) :
    ∀ b ∈ actionsSteps actions, b.span ≤ actionsSpan actions := by
  cases actions with
  | nil => simp [actionsSteps]
  | cons a rest =>
    rw [actionsSteps, actionsSpan]
    intro b hb
    rcases List.mem_append.mp hb with hb | hb
    · exact Nat.le_trans (Action.span_steps a b hb) (Nat.le_max_left _ _)
    · exact Nat.le_trans (actionsSpan_steps rest b hb) (Nat.le_max_right _ _)

end

mutual

theorem Action.Plain.steps {a : Action} (h : a.Plain) : ∀ b ∈ a.steps, b.PlainStep := by
  cases a with
  | mk typeKey chance body =>
    rw [Action.Plain] at h
    rw [Action.steps]
    exact h.2.steps

theorem ActionBody.Plain.steps {body : ActionBody} (h : body.Plain) :
    ∀ b ∈ body.steps, b.PlainStep := by
  cases body with
  | chain actions =>
    rw [ActionBody.Plain] at h
    rw [ActionBody.steps]
    exact plainStep_of_plain h
  | delay delay mode actions =>
    rw [ActionBody.Plain] at h
    simpa [ActionBody.steps] using ActionBody.PlainStep.delay h
  | message text => simpa [ActionBody.steps] using .leaf rfl
  | command text => simpa [ActionBody.steps] using .leaf rfl
  | _ => simp [ActionBody.Plain] at h

theorem plainStep_of_plain {actions : List Action} (h : actionsPlain actions) :
    ∀ b ∈ actionsSteps actions, b.PlainStep := by
  cases actions with
  | nil => simp [actionsSteps]
  | cons a rest =>
    rw [actionsPlain] at h
    rw [actionsSteps]
    intro b hb
    rcases List.mem_append.mp hb with hb | hb
    · exact h.1.steps b hb
    · exact plainStep_of_plain h.2 b hb

end

/-! ### Triggering a tree -/

theorem Action.admitted_of_certain {chance : Formula} (h : chance.Certain) (c : ContextId)
    (typeKey : String) : Action.admitted c typeKey chance = pure true := by
  have hconst : chance.const?.any (· == 1) = true := h
  unfold Action.admitted
  rw [if_pos hconst]

mutual

/-- Triggering a plain action runs the steps that it comes to, one after another. -/
theorem Action.Plain.trigger {a : Action} (h : a.Plain) (c : ContextId) :
    a.trigger c = forM a.steps (ActionBody.run c) := by
  cases a with
  | mk typeKey chance body =>
    rw [Action.Plain] at h
    rw [Action.trigger, Action.admitted_of_certain h.1, Action.steps, pure_bind]
    exact h.2.run c

/-- The body of a plain action runs the steps that it comes to. -/
theorem ActionBody.Plain.run {body : ActionBody} (h : body.Plain) (c : ContextId) :
    body.run c = forM body.steps (ActionBody.run c) := by
  cases body with
  | chain actions =>
    rw [ActionBody.Plain] at h
    rw [ActionBody.run, ActionBody.steps]
    exact triggerAll_steps h c
  | _ => simp [ActionBody.steps]

/-- Triggering plain actions runs their steps one after another. -/
theorem triggerAll_steps {actions : List Action} (h : actionsPlain actions) (c : ContextId) :
    triggerAll c actions = forM (actionsSteps actions) (ActionBody.run c) := by
  cases actions with
  | nil => rw [triggerAll, actionsSteps, List.forM_nil]
  | cons a rest =>
    rw [actionsPlain] at h
    rw [triggerAll, actionsSteps, List.forM_append, h.1.trigger c, triggerAll_steps h.2 c]

end

/-! ### What steps queue -/

/-- The entries that the delays among some steps queue at a tick, numbered from `id` on. -/
def continuations (c : ContextId) (now : Nat) : TaskId → List ActionBody → List (QueueEntry Work)
  | _, [] => []
  | id, .delay delay mode actions :: rest =>
    ⟨(now + delay) % tickSpan, id, none, .actions mode c actions⟩ ::
      continuations c now (id + 1) rest
  | id, _ :: rest => continuations c now id rest

def Work.steps : Work → List ActionBody
  | actions _ _ list => actionsSteps list
  | cancel _ => []

def Work.leaves : Work → List Leaf
  | actions _ _ list => actionsLeaves list
  | cancel _ => []

/-- The turns that the leaves of a task take, which is due at a tick: a task that is handed to
    the runtime takes them all along. -/
def Work.turns (runtime : Bool) (now : Nat) (work : Work) : List Leaf.Turn :=
  work.leaves.map (if work.isHanded runtime then .handed now else Leaf.turn runtime now)

/-- The turns that a queued entry has to take. -/
def QueueEntry.future (runtime : Bool) (e : QueueEntry Work) : List Leaf.Turn :=
  e.task.turns runtime e.due

/-- An entry is the continuation of a delay in a plain tree, and nothing of it is left to run
    after a tick. -/
def QueueEntry.Continues (c : ContextId) (last : Nat) (e : QueueEntry Work) : Prop :=
  e.period? = none ∧ ∃ mode actions, e.task = .actions mode c actions ∧ actionsPlain actions ∧
    e.due + actionsSpan actions ≤ last

/-- A scheduler has got some entries, under the next numbers, and nothing else has happened to
    it. -/
structure Scheduler.Gains (s : Scheduler Work) (new : List (QueueEntry Work))
    (s' : Scheduler Work) : Prop where
  current : s'.current = s.current
  nextId : s'.nextId = s.nextId + new.length
  queue : s'.queue.Perm (new ++ s.queue)

theorem Scheduler.Gains.refl (s : Scheduler Work) : s.Gains [] s := ⟨rfl, rfl, List.Perm.refl _⟩

section Steps

variable {c : ContextId} {now : Nat} {id : TaskId} {b : ActionBody} {bodies : List ActionBody}

theorem continuations_leaf (h : b.isLeaf) :
    continuations c now id (b :: bodies) = continuations c now id bodies := by
  rw [continuations]
  rintro delay mode actions rfl
  cases h

theorem ActionBody.leaves_of_isLeaf (h : b.isLeaf) : b.leaves = [⟨[], b⟩] := by
  cases b with
  | message text => simp [ActionBody.leaves]
  | command text => simp [ActionBody.leaves]
  | _ => cases h

theorem ActionBody.run_quiet (h : b.isLeaf) : Run.Quiet (b.run c) := by
  cases b with
  | message text =>
    rw [ActionBody.run]
    exact (Run.quiet_render c text).bind fun text => Run.quiet_message c text
  | command text =>
    rw [ActionBody.run]
    exact (Run.quiet_render c text).bind fun text => Run.quiet_command c text
  | _ => cases h

theorem id_of_mem_continuations (plain : ∀ b ∈ bodies, b.PlainStep) {e : QueueEntry Work}
    (he : e ∈ continuations c now id bodies) :
    e.id ∈ List.range' id (continuations c now id bodies).length := by
  induction bodies generalizing id with
  | nil => cases he
  | cons b rest ih =>
    have hplain : ∀ b ∈ rest, b.PlainStep := fun b hb => plain b (List.mem_cons_of_mem _ hb)
    cases plain b List.mem_cons_self with
    | leaf hleaf =>
      rw [continuations_leaf hleaf] at he ⊢
      exact ih hplain he
    | delay hactions =>
      rw [continuations] at he ⊢
      rw [List.length_cons, List.range'_succ]
      rcases List.mem_cons.mp he with rfl | he
      · exact List.mem_cons_self
      · exact List.mem_cons_of_mem _ (ih hplain he)

/-- The entry of a delay is due as many ticks later as the delay says. -/
theorem continues_of_mem (plain : ∀ b ∈ bodies, b.PlainStep) {last : Nat} (hlast : last < tickSpan)
    (room : ∀ b ∈ bodies, now + b.span ≤ last) {e : QueueEntry Work}
    (he : e ∈ continuations c now id bodies) :
    e.Continues c last ∧
      ∃ delay mode actions, .delay delay mode actions ∈ bodies ∧ e.due = now + delay := by
  induction bodies generalizing id with
  | nil => cases he
  | cons b rest ih =>
    have hplain : ∀ b ∈ rest, b.PlainStep := fun b hb => plain b (List.mem_cons_of_mem _ hb)
    have hroom : ∀ b ∈ rest, now + b.span ≤ last := fun b hb => room b (List.mem_cons_of_mem _ hb)
    cases plain b List.mem_cons_self with
    | leaf hleaf =>
      rw [continuations_leaf hleaf] at he
      obtain ⟨hcontinues, delay, mode, actions, hmem, hdue⟩ := ih hplain hroom he
      exact ⟨hcontinues, delay, mode, actions, List.mem_cons_of_mem _ hmem, hdue⟩
    | @delay delay mode actions hactions =>
      rw [continuations] at he
      rcases List.mem_cons.mp he with rfl | he
      · have hspan := room _ List.mem_cons_self
        rw [ActionBody.span, ← Nat.add_assoc] at hspan
        have hdue : (now + delay) % tickSpan = now + delay :=
          Nat.mod_eq_of_lt (Nat.lt_of_le_of_lt (Nat.le_of_add_right_le hspan) hlast)
        refine ⟨⟨rfl, mode, actions, rfl, hactions, ?_⟩, delay, mode, actions, List.mem_cons_self,
          hdue⟩
        exact (congrArg (· + actionsSpan actions) hdue).trans_le hspan
      · obtain ⟨hcontinues, delay', mode', actions', hmem, hdue⟩ := ih hplain hroom he
        exact ⟨hcontinues, delay', mode', actions', List.mem_cons_of_mem _ hmem, hdue⟩

/-- **What steps do to the scheduler.**  Their delays queue one entry each, and nothing
    else happens to it. -/
theorem run_steps (plain : ∀ b ∈ bodies, b.PlainStep) {st st' : EngineState}
    (ran : forM bodies (ActionBody.run c) st = .ok () st') :
    st.scheduler.Gains (continuations c st.scheduler.current st.scheduler.nextId bodies)
      st'.scheduler := by
  induction bodies generalizing st with
  | nil =>
    obtain rfl := (EStateM.Result.ok.inj ran).2
    exact .refl _
  | cons b rest ih =>
    rw [List.forM_cons, Run.bind_apply] at ran
    cases hb : b.run c st with
    | error message st₁ => rw [hb] at ran; cases ran
    | ok u st₁ =>
      rw [hb] at ran
      obtain ⟨hcurrent, hnext, hqueue⟩ :=
        ih (fun b hb => plain b (List.mem_cons_of_mem _ hb)) ran
      cases plain b List.mem_cons_self with
      | leaf hleaf =>
        have hsame : st₁.scheduler = st.scheduler := by
          have hquiet := ActionBody.run_quiet (c := c) hleaf st
          rwa [Run.after, hb] at hquiet
        rw [hsame] at hcurrent hnext hqueue
        rw [continuations_leaf hleaf]
        exact ⟨hcurrent, hnext, hqueue⟩
      | @delay delay mode actions hactions =>
        have hadded : st₁.scheduler =
            (st.scheduler.schedule delay (.actions mode c actions)).2 := by
          rw [ActionBody.run] at hb
          rw [← (EStateM.Result.ok.inj hb).2]
          rfl
        rw [hadded] at hcurrent hnext hqueue
        rw [continuations]
        refine ⟨hcurrent, ?_, ?_⟩
        · rw [hnext, List.length_cons]
          exact Nat.add_right_comm _ _ _
        · refine hqueue.trans ?_
          exact ((Scheduler.insertByDue_perm _ _).append_left _).trans List.perm_middle

/-- The leaves among some steps, which run at once, are their leaves without a delay. -/
theorem filter_isLeaf (plain : ∀ b ∈ bodies, b.PlainStep) :
    ((bodies.flatMap ActionBody.leaves).filter (!·.isDelayed)).map Leaf.body =
      bodies.filter ActionBody.isLeaf := by
  induction bodies with
  | nil => rfl
  | cons b rest ih =>
    have hrest := ih fun b hb => plain b (List.mem_cons_of_mem _ hb)
    rw [List.flatMap_cons, List.filter_append, List.map_append, hrest]
    cases plain b List.mem_cons_self with
    | leaf hleaf => simp [ActionBody.leaves_of_isLeaf hleaf, hleaf]
    | delay hactions =>
      simp [ActionBody.leaves, ActionBody.isLeaf, List.filter_map, Function.comp_def]

/-- **No leaf is lost.**  The turns that the new entries have to take are those of the delayed
    leaves of the steps that queue them. -/
theorem futures_continuations (runtime : Bool) (plain : ∀ b ∈ bodies, b.PlainStep)
    (room : ∀ b ∈ bodies, now + b.span < tickSpan) :
    (continuations c now id bodies).flatMap (QueueEntry.future runtime) =
      ((bodies.flatMap ActionBody.leaves).filter Leaf.isDelayed).map (Leaf.turn runtime now) := by
  induction bodies generalizing id with
  | nil => rfl
  | cons b rest ih =>
    have hplain : ∀ b ∈ rest, b.PlainStep := fun b hb => plain b (List.mem_cons_of_mem _ hb)
    have hroom : ∀ b ∈ rest, now + b.span < tickSpan := fun b hb =>
      room b (List.mem_cons_of_mem _ hb)
    rw [List.flatMap_cons, List.filter_append, List.map_append]
    cases plain b List.mem_cons_self with
    | leaf hleaf =>
      rw [continuations_leaf hleaf, ih hplain hroom, ActionBody.leaves_of_isLeaf hleaf]
      simp
    | @delay delay mode actions hactions =>
      have hlt : now + delay < tickSpan := by
        have hspan := room _ List.mem_cons_self
        rw [ActionBody.span] at hspan
        omega
      have hleaves : ((actionsLeaves actions).map (Leaf.below delay mode)).filter Leaf.isDelayed =
          (actionsLeaves actions).map (Leaf.below delay mode) := by
        rw [List.filter_eq_self]
        intro l hl
        obtain ⟨l, -, rfl⟩ := List.mem_map.mp hl
        rfl
      rw [continuations, List.flatMap_cons, ih hplain hroom]
      congr 1
      rw [QueueEntry.future, ActionBody.leaves, hleaves, Nat.mod_eq_of_lt hlt, Work.turns,
        List.map_map]
      refine List.map_congr_left fun l _ => ?_
      exact (ite_apply _ _ _ l).trans (Leaf.turn_below runtime now delay mode l).symm

end Steps

/-- The turns of some actions when their tick comes are those that their steps take at once, and
    those of the entries that the steps queue. -/
theorem turns_perm {actions : List Action} (plain : actionsPlain actions) {now : Nat}
    (room : now + actionsSpan actions < tickSpan) (runtime : Bool) (c : ContextId) (id : TaskId) :
    ((actionsLeaves actions).map (Leaf.turn runtime now)).Perm
      (((actionsSteps actions).filter ActionBody.isLeaf).map (Leaf.Turn.run now) ++
        (continuations c now id (actionsSteps actions)).flatMap (QueueEntry.future runtime)) := by
  have hsteps := plainStep_of_plain plain
  have hroom : ∀ b ∈ actionsSteps actions, now + b.span < tickSpan := by
    intro b hb
    exact Nat.lt_of_le_of_lt (Nat.add_le_add_left (actionsSpan_steps actions b hb) now) room
  rw [actionsLeaves_eq, futures_continuations runtime hsteps hroom, ← filter_isLeaf hsteps,
    List.map_map]
  set leaves := (actionsSteps actions).flatMap ActionBody.leaves
  have hnow : (leaves.filter (!·.isDelayed)).map (Leaf.Turn.run now ∘ Leaf.body) =
      (leaves.filter (!·.isDelayed)).map (Leaf.turn runtime now) := by
    refine List.map_congr_left fun l hl => ?_
    exact (Leaf.turn_of_not_isDelayed (List.mem_filter.mp hl).2 runtime now).symm
  rw [hnow, ← List.map_append]
  refine List.Perm.map _ ?_
  exact (List.perm_append_comm.trans (List.filter_append_perm Leaf.isDelayed leaves)).symm

/-! ### What a task does when it is due -/

/-- The entries that a task queues when it is due at a tick; one that is handed over queues
    none by itself. -/
def Work.entries (runtime : Bool) (c : ContextId) (now : Nat) (id : TaskId) (work : Work) :
    List (QueueEntry Work) :=
  if work.isHanded runtime then [] else continuations c now id work.steps

/-- The turns that a task takes at once when it is due at a tick. -/
def Work.taken (runtime : Bool) (now : Nat) (work : Work) : List Leaf.Turn :=
  if work.isHanded runtime then work.leaves.map (.handed now)
  else (work.steps.filter ActionBody.isLeaf).map (.run now)

section Due

variable {actions : List Action}

/-- A task that is due takes some of its turns at once, and leaves the others to the entries
    that it queues. -/
theorem Work.turns_perm (plain : actionsPlain actions) {now : Nat}
    (room : now + actionsSpan actions < tickSpan) (runtime : Bool) (mode : ExecMode)
    (c : ContextId) (id : TaskId) :
    ((Work.actions mode c actions).turns runtime now).Perm
      ((Work.actions mode c actions).taken runtime now ++
        ((Work.actions mode c actions).entries runtime c now id).flatMap
          (QueueEntry.future runtime)) := by
  unfold Work.turns Work.taken Work.entries
  by_cases handed : (Work.actions mode c actions).isHanded runtime = true
  · rw [if_pos handed, if_pos handed, if_pos handed]
    simp
  · rw [if_neg handed, if_neg handed, if_neg handed]
    exact RuleEngine.turns_perm plain room runtime c id

/-- **What a task does to the scheduler** when it is due: it queues its entries. -/
theorem Work.dispatch_gains (plain : actionsPlain actions) {runtime : Bool} {mode : ExecMode}
    {c : ContextId} (id : TaskId) {st : EngineState}
    (ends : (Work.actions mode c actions).isHanded runtime = false →
      ∃ st', (Work.actions mode c actions).run st = .ok () st') :
    st.scheduler.Gains
      ((Work.actions mode c actions).entries runtime c st.scheduler.current st.scheduler.nextId)
      ((Work.actions mode c actions).dispatch runtime id st).scheduler := by
  unfold Work.entries Work.dispatch
  cases handed : (Work.actions mode c actions).isHanded runtime with
  | true => exact .refl _
  | false =>
    obtain ⟨st', ran⟩ := ends handed
    simp only [Bool.false_eq_true, if_false]
    rw [Work.perform, ran]
    rw [Work.run, triggerAll_steps plain] at ran
    exact run_steps (plainStep_of_plain plain) ran

end Due

end RuleEngine
