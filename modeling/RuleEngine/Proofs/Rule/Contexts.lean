/-
  RuleEngine/Proofs/Rule/Contexts.lean
  ====================================
  **Contexts are kept apart.**

  An engine that is used for many contexts runs their rules in turn, and their delays and
  timers stand in one queue.  Still every context has a history of its own: a list of the acts
  that were done for it, each with the state that it was done in.  An invariant of the whole
  history (`Told`) says that every queued task runs for the context whose rules have deferred
  it, and that a context is what the writes of its own acts have made of it.  A single act
  keeps it (`Told.act`), so a script does, a firing, a tick, and a run of any length.

  Nor does what is done for a context see the others (`Apart`), and this holds of any rules.
  That nothing but `set` writes, and that all queued actions come from delays and timers, is said
  of rules of the built-in types.
-/
import RuleEngine.Proofs.Entries
import RuleEngine.Proofs.Rule.Native
import RuleEngine.Proofs.Rule.Overlooking

namespace RuleEngine

open Run

/-! ### Writes -/

/-- The context with properties written, one after another. -/
def Context.setAll (x : Context) (writes : List (String × Node)) : Context :=
  { x with properties := insertAll x.properties writes }

theorem Context.setAll_append (x : Context) (writes more : List (String × Node)) :
    x.setAll (writes ++ more) = (x.setAll writes).setAll more := by
  unfold setAll insertAll
  rw [List.foldl_append]

/-- What an act writes to the context that it is done for: a text that it renders there, unless
    the platform fails over it. -/
def Act.write? (c : ContextId) (st : EngineState) : Act → Option (String × Node)
  | .run (.set key value) _ =>
    match (Run.render c value).outcome st with
    | .ok _ => some (key, .ofText (value.render (st.world.scope c)))
    | .error _ => none
  | _ => none

theorem Run.eq_of_render {c : ContextId} {t : TextTemplate} {st : EngineState} {text : String}
    (h : (render c t).outcome st = .ok text) : text = t.render (st.world.scope c) := by
  have hscope : Preserves (·.world.scope c) (forIn t.references PUnit.unit fun target _ => do
      resolve c target
      return ForInStep.yield PUnit.unit) :=
    preserves_forIn fun target _ =>
      ((preserves_readClosed c).resolve target).bind fun _ => preserves_pure _
  obtain ⟨_, _, hvalue⟩ := outcome_bind_eq_ok.mp h
  rw [← hscope.after st]
  exact (Except.ok.inj hvalue).symm

/-- A native act makes its write to the context that it is done for, and nothing else. -/
theorem Act.Native.context_after {a : Act} (native : a.Native) {c : ContextId} {st : EngineState}
    (hc : c < st.world.contexts.length) :
    ((a.perform c).after st).world.context c =
      (st.world.context c).setAll (a.write? c st).toList := by
  have hlight : a.Light → ((a.perform c).after st).world.context c = st.world.context c := by
    intro light
    exact World.context_congr ((light.preserves coarse_contexts c).after st) c
  cases a with
  | run body simple =>
    rw [Act.perform] at hlight ⊢
    cases body with
    | delay delay mode actions => rw [ActionBody.run]; rfl
    | timer delay period duration mode actions => rw [ActionBody.run]; rfl
    | set key value =>
      have hpreserves : Preserves (·.world.contexts) (render c value) :=
        (preserves_readClosed c).render value
      have hsame := hpreserves.after st
      have hrendered := World.context_congr hsame c
      have hwrite : (Act.run (.set key value) simple).write? c st =
          match (render c value).outcome st with
          | .ok _ => some (key, .ofText (value.render (st.world.scope c)))
          | .error _ => none := rfl
      rw [hwrite, ActionBody.run, after_bind, outcome_bind, after_bind]
      cases hrender : (render c value).outcome st with
      | ok text =>
        refine (World.context_setContext (by rwa [hsame]) _).trans ?_
        rw [hrendered, eq_of_render hrender]
        rfl
      | error message => exact hrendered
    | guest _ _ | custom _ => exact native.elim
    | _ => exact hlight trivial
  | check sideEffects body simple =>
    cases body with
    | guest _ _ | custom _ => exact native.elim
    | _ => exact hlight trivial
  | _ => exact hlight trivial

/-! ### Histories -/

structure Performed where
  context : ContextId
  /-- The entry of the task that ran, if it was not a trigger or an event. -/
  caller? : Option (QueueEntry Work)
  act : Act
  state : EngineState

def writesFor (c : ContextId) (history : List Performed) : List (String × Node) :=
  (history.filter (·.context == c)).filterMap fun p => p.act.write? p.context p.state

/-- An act for the context has deferred the actions, by the task. -/
def DeferredIn (history : List Performed) (c : ContextId) (task : TaskId)
    (actions : List Action) : Prop :=
  ∃ p ∈ history, p.context = c ∧ p.state.scheduler.nextId = task ∧
    ∃ delay period? mode, p.act.Defers delay period? mode actions

theorem writesFor_append (c : ContextId) (past more : List Performed) :
    writesFor c (past ++ more) = writesFor c past ++ writesFor c more := by
  unfold writesFor
  rw [List.filter_append, List.filterMap_append]

theorem writesFor_singleton (c : ContextId) (p : Performed) :
    writesFor c [p] = if p.context = c then (p.act.write? p.context p.state).toList else [] := by
  unfold writesFor
  by_cases h : p.context = c
  · rw [List.filter_cons_of_pos (by simpa using h), if_pos h]
    cases hwrite : p.act.write? p.context p.state <;> simp [hwrite]
  · rw [List.filter_cons_of_neg (by simpa using h), if_neg h]
    rfl

/-- What was deferred in the past stays so. -/
theorem DeferredIn.append {past : List Performed} {c : ContextId} {task : TaskId}
    {actions : List Action} (h : DeferredIn past c task actions) (more : List Performed) :
    DeferredIn (past ++ more) c task actions := by
  obtain ⟨p, hmem, hp⟩ := h
  exact ⟨p, List.mem_append_left more hmem, hp⟩

/-- If a task runs, it runs actions that an act for the context has deferred. -/
def CalledFor (past : List Performed) (c : ContextId) (caller? : Option (QueueEntry Work)) : Prop :=
  ∀ e, caller? = some e →
    ∃ mode actions, e.task = .actions mode c actions ∧ DeferredIn past c e.id actions

theorem CalledFor.append {past : List Performed} {c : ContextId}
    {caller? : Option (QueueEntry Work)} (h : CalledFor past c caller?) (more : List Performed) :
    CalledFor (past ++ more) c caller? := by
  intro e he
  obtain ⟨mode, actions, htask, hdeferred⟩ := h e he
  exact ⟨mode, actions, htask, hdeferred.append more⟩

/-- How an act stands to those before it: every context is what the writes for it have made of
    it, and if a task runs, then for the context for which an act has deferred it. -/
structure InTurn (world : World) (past : List Performed) (p : Performed) : Prop where
  contexts : ∀ c, p.state.world.context c = (world.context c).setAll (writesFor c past)
  called : CalledFor past p.context p.caller?

/-- A task may run for a context. -/
structure Captured (world : World) (past : List Performed) (task : TaskId) (c : ContextId)
    (actions : List Action) : Prop where
  exists_context : c < world.contexts.length
  native : actionsNative actions
  deferred : DeferredIn past c task actions

/-- A history leads from a world to a state: it tells what the contexts are, and where the
    queued tasks come from. -/
structure Told (world : World) (past : List Performed) (st : EngineState) : Prop where
  length : st.world.contexts.length = world.contexts.length
  contexts : ∀ c, st.world.context c = (world.context c).setAll (writesFor c past)
  queued : ∀ e ∈ st.scheduler.queue, ∀ mode c actions, e.task = .actions mode c actions →
    Captured world past e.id c actions
  acts : ∀ before p, before ++ [p] <+: past → InTurn world before p

def performed (c : ContextId) (caller? : Option (QueueEntry Work))
    (acts : List (Act × EngineState)) : List Performed :=
  acts.map fun act => ⟨c, caller?, act.1, act.2⟩

section Told

variable {world : World} {past : List Performed} {st st' : EngineState} {c : ContextId}
  {caller? : Option (QueueEntry Work)}

theorem told_nil (world : World) : Told world [] { world } where
  length := rfl
  contexts _ := rfl
  queued _ he := nomatch he
  acts before p hprefix := by simp at hprefix

/-- What a history tells does not change with a state that has the same contexts, and no
    other tasks. -/
theorem Told.congr (told : Told world past st)
    (hcontexts : st'.world.contexts = st.world.contexts)
    (hqueue : ∀ e ∈ st'.scheduler.queue, e ∈ st.scheduler.queue) : Told world past st' where
  length := by rw [hcontexts]; exact told.length
  contexts c := (World.context_congr hcontexts c).trans (told.contexts c)
  queued e he := told.queued e (hqueue e he)
  acts := told.acts

theorem Act.Defers.native {a : Act} {delay : Nat} {period? : Option Nat} {mode : ExecMode}
    {actions : List Action} (defers : a.Defers delay period? mode actions) (native : a.Native) :
    actionsNative actions := by
  cases defers with
  | delay => exact native
  | timer => exact native

/-- An act queues what it defers, for the context that it is done for; and a timer is cancelled
    by a task that does nothing else. -/
theorem Act.mem_queue_after {a : Act} {e : QueueEntry Work}
    (h : e ∈ ((a.perform c).after st).scheduler.queue) :
    e ∈ st.scheduler.queue ∨ (∃ task, e.task = .cancel task) ∨
      ∃ delay period? mode actions, a.Defers delay period? mode actions ∧
        e.task = .actions mode c actions ∧ e.id = st.scheduler.nextId := by
  rw [a.perform_calls] at h
  cases a with
  | run body simple =>
    cases body with
    | delay delay mode actions =>
      rcases (Scheduler.mem_add_queue ..).mp h with rfl | hmem
      · exact .inr (.inr ⟨delay, none, mode, actions, .delay, rfl, rfl⟩)
      · exact .inl hmem
    | timer delay period duration mode actions =>
      rcases (Scheduler.mem_add_queue ..).mp h with rfl | hmem
      · exact .inr (.inl ⟨_, rfl⟩)
      · rcases (Scheduler.mem_add_queue ..).mp hmem with rfl | hmem
        · exact .inr (.inr ⟨delay, some period, mode, actions, .timer, rfl, rfl⟩)
        · exact .inl hmem
    | _ => exact .inl h
  | _ => exact .inl h

/-- An act is told of with the context it is done for. -/
theorem Told.act (told : Told world past st) (hc : c < world.contexts.length) {a : Act}
    (native : a.Native) (called : CalledFor past c caller?) :
    Told world (past ++ [⟨c, caller?, a, st⟩]) ((a.perform c).after st) := by
  constructor
  · exact ((a.preserves robust_contextCount c).after st).trans told.length
  · -- the act may have made a write, for its own context only
    intro c'
    rw [writesFor_append, Context.setAll_append, ← told.contexts c', writesFor_singleton]
    by_cases heq : c = c'
    · subst heq
      rw [if_pos rfl]
      exact native.context_after (told.length ▸ hc)
    · rw [if_neg heq]
      exact a.context_after (Ne.symm heq) st
  · -- what is queued was queued before, or by this act
    intro e he mode c' actions htask
    rcases Act.mem_queue_after he with hmem | ⟨task, hcancel⟩ |
        ⟨delay, period?, mode', actions', defers, htask', hid⟩
    · obtain ⟨hc', hnative, hdeferred⟩ := told.queued e hmem mode c' actions htask
      exact ⟨hc', hnative, hdeferred.append _⟩
    · rw [hcancel] at htask
      cases htask
    · rw [htask'] at htask
      cases htask
      refine ⟨hc, defers.native native, _, List.mem_append_right past List.mem_cons_self, rfl,
        hid.symm, delay, period?, _, defers⟩
  · intro before p hprefix
    rcases List.prefix_concat_iff.mp hprefix with heq | hprefix
    · obtain ⟨rfl, hp⟩ := List.append_inj' heq rfl
      cases hp
      exact ⟨told.contexts, called⟩
    · exact told.acts before p hprefix

/-- All acts of an evaluation are told of. -/
theorem Told.script {α : Type} (told : Told world past st) (hc : c < world.contexts.length)
    {s : Script α} (native : s.Every Act.Native) (called : CalledFor past c caller?) :
    Told world (past ++ performed c caller? (s.trace c st)) ((s.run c).after st) := by
  induction s generalizing past st with
  | done result =>
    rw [Script.trace, performed, List.map_nil, List.append_nil]
    exact told
  | act a next ih =>
    have hact := told.act hc native.1 called
    rw [Script.run, Script.trace, performed, List.map_cons, List.append_cons, after_bind]
    unfold outcome after at hact ⊢
    cases hrun : a.perform c st with
    | ok answer mid =>
      rw [hrun] at hact
      exact ih answer hact (native.2 answer) (called.append _)
    | error message mid =>
      rw [hrun] at hact
      simpa using hact

/-- What scripts of the built-in types do to contexts is told by their calls, also where a panic
    cuts them short. -/
theorem Told.contained {α : Type} (told : Told world past st) (hc : c < world.contexts.length)
    {s : Script α} (native : s.Every Act.Native) (notice : Panic → Notice)
    (called : CalledFor past c caller?) :
    Told world (past ++ performed c caller? (s.trace c st)) (contained notice (s.run c) st) :=
  (told.script hc native called).congr (contained_contexts ..) fun e he => by
    rwa [contained_scheduler] at he

end Told

/-! ### Firings and ticks -/

/-- The acts of a firing, in a state in which its entry heads the queue. -/
def firingHistory (e : QueueEntry Work) (st : EngineState) : List Performed :=
  match e.task with
  | .actions _ c actions => performed c (some e) ((actionsScript actions).trace c (st.started e))
  | .cancel _ => []

/-- The acts of the due tasks, at most `fuel` of them. -/
def dueHistory : Nat → EngineState → List Performed
  | 0, _ => []
  | fuel + 1, st =>
    match st.scheduler.nextDue? with
    | none => []
    | some e => firingHistory e st ++ dueHistory fuel (st.fire workshop e)

section Firings

variable {world : World} {past : List Performed} {st : EngineState} {e : QueueEntry Work}

/-- The task of an entry is put back after its firing, or it is not. -/
theorem Told.concluded (told : Told world past st)
    (own : ∀ mode c actions, e.task = .actions mode c actions →
      Captured world past e.id c actions) :
    Told world past (concluded e st) where
  length := by rw [concluded_contexts]; exact told.length
  contexts c := (World.context_congr (concluded_contexts e st) c).trans (told.contexts c)
  queued f hf := by
    rcases Scheduler.requeued_of_mem_finish hf with hmem | ⟨period, -, -, rfl⟩
    · exact told.queued f hmem
    · exact own
  acts := told.acts

/-- What fires is told of, and it runs for the context that was captured when it was deferred. -/
theorem Told.fire (told : Told world past st) (hnext : st.scheduler.nextDue? = some e) :
    Told world (past ++ firingHistory e st) (st.fire workshop e) := by
  have hown := told.queued e (Scheduler.mem_of_nextDue? hnext)
  have hstarted : Told world past (st.started e) :=
    told.congr rfl fun f hf => List.mem_of_mem_tail hf
  unfold firingHistory
  cases htask : e.task with
  | actions mode c actions =>
    obtain ⟨hc, hnative, hdeferred⟩ := hown mode c actions htask
    have hcalled : CalledFor past c (some e) := by
      rintro _ ⟨⟩
      exact ⟨mode, actions, htask, hdeferred⟩
    have hran := hstarted.contained hc (actionsScript_native hnative) (.taskPanicked e.id) hcalled
    -- a timer is queued again, still under the number by which its actions were deferred
    rw [fire_of_actions htask]
    refine hran.concluded fun mode' c' actions' htask' => ?_
    obtain ⟨hc', hnative', hdeferred'⟩ := hown mode' c' actions' htask'
    exact ⟨hc', hnative', hdeferred'.append _⟩
  | cancel task =>
    rw [fire_of_cancel htask, List.append_nil]
    refine Told.concluded ?_ hown
    exact hstarted.congr rfl fun f hf => Scheduler.cancel_queue_sublist.subset hf

/-- What is told of the tasks of a tick follows firing by firing. -/
theorem Told.fireDue (told : Told world past st) (fuel : Nat) :
    Told world (past ++ dueHistory fuel st) (st.fireDue workshop fuel).2 := by
  induction fuel generalizing past st with
  | zero =>
    rw [dueHistory, List.append_nil]
    exact told
  | succ fuel ih =>
    rw [dueHistory]
    cases hnext : st.scheduler.nextDue? with
    | none =>
      rw [Scheduled.fireDue_of_drained workshop hnext, List.append_nil]
      exact told
    | some e =>
      rw [Scheduled.fireDue_of_nextDue? workshop hnext, ← List.append_assoc]
      exact ih (told.fire hnext)

end Firings

/-! ### Uses of an engine -/

/-- What an engine is used for.  A use leads from state to state (`Use.run`), by acts that make up
    its history (`Use.history`). -/
inductive Use where
  | trigger (c : ContextId) (actions : List Action)
  | fire (book : RuleBook) (event : String) (c : ContextId)
  | tick

namespace Use

def run : Use → EngineState → EngineState
  | trigger c actions, st => (RuleEngine.trigger c actions st).2
  | fire book event c, st => (book.fire event c st).2
  | tick, st => (st.tick workshop).2

def history : Use → EngineState → List Performed
  | trigger c actions, st => performed c none ((actionsScript actions).trace c st)
  | fire book event c, st =>
    match book.rules? event with
    | none => []
    | some rules => performed c none (rules.script.trace c st)
  | tick, st => dueHistory (Scheduled.load workshop st.begun.scheduler) st.begun

/-- The rules are of the built-in types, and they run for one of so many contexts. -/
def Native (contexts : Nat) : Use → Prop
  | trigger c actions => c < contexts ∧ actionsNative actions
  | fire book event c =>
    c < contexts ∧ ∀ rules, book.rules? event = some rules → rules.Native
  | tick => True

def runAll : List Use → EngineState → EngineState
  | [], st => st
  | use :: rest, st => runAll rest (use.run st)

def historyAll : List Use → EngineState → List Performed
  | [], _ => []
  | use :: rest, st => use.history st ++ historyAll rest (use.run st)

end Use

section Uses

variable {world : World} {past : List Performed} {st : EngineState}

/-- **One use** of the engine does to contexts what its events tell. -/
theorem Told.use (told : Told world past st) {use : Use}
    (native : use.Native world.contexts.length) :
    Told world (past ++ use.history st) (use.run st) := by
  cases use with
  | trigger c actions =>
    rw [Use.history, Use.run, trigger_eq_guarded, guarded_snd]
    exact told.contained native.1 (actionsScript_native native.2) _ nofun
  | fire book event c =>
    rw [Use.history, Use.run]
    cases hrules : book.rules? event with
    | none =>
      rw [RuleBook.fire_of_unknown hrules, List.append_nil]
      exact told.congr rfl fun f hf => hf
    | some rules =>
      rw [RuleBook.fire_eq_guarded hrules, guarded_snd]
      exact told.contained native.1 (EventRules.script_native (native.2 rules hrules)) _ nofun
  | tick =>
    have hbegun : Told world past st.begun := told.congr rfl fun f hf => hf
    exact hbegun.fireDue _

/-- Whatever an engine is used for, its history tells what was done for which context. -/
theorem Told.uses (told : Told world past st) {uses : List Use}
    (native : ∀ use ∈ uses, use.Native world.contexts.length) :
    Told world (past ++ Use.historyAll uses st) (Use.runAll uses st) := by
  induction uses generalizing past st with
  | nil =>
    rw [Use.historyAll, List.append_nil]
    exact told
  | cons use rest ih =>
    obtain ⟨hfirst, hrest⟩ := List.forall_mem_cons.mp native
    rw [Use.historyAll, ← List.append_assoc]
    exact ih (told.use hfirst) hrest

end Uses

/-- **Contexts are kept apart.**  A trigger, an event or a firing for a context neither sees nor
    changes another one.  In every run with rules of the built-in types, each act finds the
    contexts as the writes before it have left them, and what a task does is done for the context
    for which its actions were deferred.  So in the end a context is what the writes of the acts
    for it have made of it, in their order. -/
theorem contexts_are_kept_apart :
    (∀ c, (∀ actions, Apart c (trigger c actions)) ∧
      (∀ book event, Apart c (RuleBook.fire book event c)) ∧
      ∀ e mode actions, e.task = .actions mode c actions →
        Apart c fun st : EngineState => ((), st.fire workshop e)) ∧
    ∀ (world : World) (uses : List Use), (∀ use ∈ uses, use.Native world.contexts.length) →
      (∀ past p later, Use.historyAll uses { world } = past ++ p :: later →
        InTurn world past p ∧ ∀ other ≠ p.context, ∀ x,
          Overlooks other x (p.act.perform p.context)) ∧
      ∀ c, (Use.runAll uses { world }).world.context c =
        (world.context c).setAll (writesFor c (Use.historyAll uses { world })) := by
  refine ⟨fun c => ⟨trigger_apart c, fun book event => book.fire_apart event c, ?_⟩, ?_⟩
  · exact fun e mode actions htask => fire_apart htask
  · intro world uses native
    have told := (told_nil world).uses native
    rw [List.nil_append] at told
    refine ⟨fun past p later hhistory => ⟨?_, fun other hne x => p.act.overlooks hne⟩,
      told.contexts⟩
    refine told.acts past p ⟨later, ?_⟩
    rw [hhistory, List.append_assoc]
    rfl

def writing (key : String) (value : TextTemplate) : Action :=
  .mk "set" (.constant 1) (.set key value)

/-- A reward for later, which is the tier that is written in the meantime. -/
def rewarding : List Action :=
  [.mk "delay" (.constant 1)
    (.delay 1 .sync [writing "reward" ⟨"\x7btier\x7d", [.reference (.property "tier")]⟩]),
   writing "tier" (.literal "gold")]

def oneSubject : World := { contexts := [⟨⟨"7", "Ada"⟩, [], []⟩, ⟨⟨"7", "Ada"⟩, [], []⟩] }

theorem contexts_are_kept_apart_of_one_subject :
    let uses := [Use.trigger 0 rewarding, .trigger 1 [writing "tier" (.literal "silver")], .tick]
    let st := Use.runAll uses { world := oneSubject }
    (st.world.context 0).properties = [("tier", .ofText "gold"), ("reward", .ofText "gold")] ∧
    (st.world.context 1).properties = [("tier", .ofText "silver")] := by
  intro uses st
  have native : ∀ use ∈ uses, use.Native oneSubject.contexts.length := by
    simp [uses, Use.Native, oneSubject, rewarding, writing, actionsNative, Action.Native,
      ActionBody.Native]
  obtain ⟨-, hfinal⟩ := contexts_are_kept_apart.2 oneSubject uses native
  constructor
  · rw [hfinal 0]
    rfl
  · rw [hfinal 1]
    rfl

end RuleEngine
