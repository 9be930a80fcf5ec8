/-
  RuleEngine/Proofs/Rule/Overlooking.lean
  =======================================
  **What runs for a context overlooks the others.**

  Rules run for one context.  They come to the same when another context is replaced before,
  and the replaced one is left as it is (`Run.Overlooks`): nothing reads a context but the one
  that it runs for, and nothing else is written.  This holds of every act, of those that hand
  over to a guest or to a rule of the application too (`Act.overlooks`), and so of whatever
  acts make up: of triggers (`trigger_apart`), of events (`RuleBook.fire_apart`) and of tasks
  that fire (`fire_apart`).  That the subjects of two contexts are the same makes no difference.
-/
import RuleEngine.Proofs.Guest.Property
import RuleEngine.Proofs.Rule.Firing
import RuleEngine.Proofs.Rule.Preserving

namespace RuleEngine

theorem World.context_congr {w w' : World} (h : w'.contexts = w.contexts) (c : ContextId) :
    w'.context c = w.context c := by
  unfold context
  rw [h]

def replacing (other : ContextId) (x : Context) (st : EngineState) : EngineState :=
  { st with world := st.world.setContext other x }

namespace Run

/-- What a step comes to, with a context replaced after it. -/
def replaced {α : Type} (other : ContextId) (x : Context) :
    EStateM.Result Panic EngineState α → EStateM.Result Panic EngineState α
  | .ok a st => .ok a (replacing other x st)
  | .error message st => .error message (replacing other x st)

/-- A step comes to the same when a context is replaced first, and leaves it as it is. -/
def Overlooks {α : Type} (other : ContextId) (x : Context) (step : Run α) : Prop :=
  ∀ st, step (replacing other x st) = replaced other x (step st)

section Steps

variable {α β : Type} {other : ContextId} {x : Context}

/-- A sequence overlooks another context if its steps do. -/
theorem Overlooks.bind {step : Run α} {f : α → Run β} (hstep : Overlooks other x step)
    (hf : ∀ a, Overlooks other x (f a)) : Overlooks other x (step >>= f) := by
  intro st
  rw [bind_apply, bind_apply, hstep st]
  cases step st with
  | ok a st' => exact hf a st'
  | error message st' => rfl

theorem overlooks_pure (a : α) : Overlooks other x (pure a : Run α) := fun _ => rfl

theorem overlooks_throw (message : Panic) : Overlooks other x (throw message : Run α) :=
  fun _ => rfl

theorem overlooks_ask {f : World → α} (h : ∀ w, f (w.setContext other x) = f w) :
    Overlooks other x (ask f) := fun st =>
  congrArg (EStateM.Result.ok · (replacing other x st)) (h st.world)

theorem overlooks_change {f : World → World}
    (h : ∀ w, f (w.setContext other x) = (f w).setContext other x) :
    Overlooks other x (change f) := by
  intro st
  show EStateM.Result.ok () { st with world := f (st.world.setContext other x) } = _
  rw [h st.world]
  rfl

theorem overlooks_call (call : PlatformCall) : Overlooks other x (Run.call call) := by
  refine (overlooks_ask fun _ => rfl).bind fun platform => ?_
  cases platform.fault call with
  | some message => exact overlooks_throw message
  | none => exact overlooks_pure _

theorem overlooks_useCooldown (subject key : String) (window : Duration) :
    Overlooks other x (useCooldown subject key window) := by
  intro st
  have hask : ∀ st : EngineState, ask id st = .ok st.world st := fun _ => rfl
  have hsame : (replacing other x st).world.ledger.check (replacing other x st).world.clock subject
      key window = st.world.ledger.check st.world.clock subject key window := rfl
  unfold useCooldown
  rcases hused : st.world.ledger.check st.world.clock subject key window with ⟨_ | left, ledger⟩
  · simp only [bind_apply, hask, hsame, hused]
    rfl
  · simp only [bind_apply, hask, hsame, hused]
    rfl

end Steps

section Context

variable {c other : ContextId} {x : Context} (hne : other ≠ c)

include hne

theorem unseen_replaced : Guest.Unseen (some c) (·.setContext other x) :=
  Guest.unseen_setContext (fun hmem => hne (Option.some.inj hmem).symm) x

theorem context_replacing (w : World) : (w.setContext other x).context c = w.context c :=
  (unseen_replaced hne).context_eq w c rfl

theorem scope_replacing (w : World) : (w.setContext other x).scope c = w.scope c :=
  congrArg (Context.scope · w.platform) (context_replacing hne w)

theorem overlooks_changeContext (f : Context → Context) :
    Overlooks other x (changeContext c f) := by
  refine overlooks_change fun w => ?_
  rw [context_replacing hne]
  exact ((unseen_replaced hne).setContext w c rfl _).symm

/-- A guest sees the context that it is called for. -/
theorem overlooks_guest (g : GuestId) (payload : String) :
    Overlooks other x (Run.guest c g payload) := by
  intro st
  have hask : ∀ st : EngineState, ask id st = .ok st.world st := fun _ => rfl
  have hinvoke : Guest.invoke (st.world.setContext other x) g (some c) (st.world.guest g).entry
      payload = _ :=
    Guest.invoke_setContext (fun hmem => hne (Option.some.inj hmem).symm) x
  have hworld : (replacing other x st).world = st.world.setContext other x := rfl
  have hguest : (st.world.setContext other x).guest g = st.world.guest g := rfl
  unfold Run.guest
  simp only [bind_apply, hask, hworld, hguest, hinvoke]
  rcases Guest.invoke st.world g (some c) (st.world.guest g).entry payload with
    ⟨(_ | _ | _) | code, w⟩
  all_goals rfl

theorem overlooks_actClosed : ActClosed c (Overlooks other x) where
  pure := overlooks_pure
  bind := Overlooks.bind
  context := overlooks_ask (context_replacing hne)
  scope := overlooks_ask (scope_replacing hne)
  call := overlooks_call
  report _ _ := fun _ => rfl
  deliver _ := (overlooks_call _).bind fun _ => overlooks_change fun _ => rfl
  roll := fun _ => rfl
  useCooldown := overlooks_useCooldown
  panic := overlooks_throw
  schedule _ _ := fun _ => rfl
  scheduleRepeating _ _ _ := fun _ => rfl
  changeContext := overlooks_changeContext hne
  guest := overlooks_guest hne

end Context

end Run

open Run

/-- An act for one context overlooks every other one. -/
theorem Act.overlooks {c other : ContextId} {x : Context} (hne : other ≠ c) (a : Act) :
    Overlooks other x (a.perform c) :=
  (overlooks_actClosed hne).act a

/-- So does every script. -/
theorem Script.overlooks {α : Type} {c other : ContextId} {x : Context} (hne : other ≠ c)
    (s : Script α) : Overlooks other x (s.run c) :=
  (overlooks_actClosed hne).script s

/-! ### Evaluations -/

/-- What is done for a context neither sees another one nor changes it. -/
structure Apart {α : Type} (c : ContextId) (evaluation : EngineState → α × EngineState) :
    Prop where
  overlooks : ∀ other ≠ c, ∀ x st,
    evaluation (replacing other x st) = ((evaluation st).1, replacing other x (evaluation st).2)
  keeps : ∀ other ≠ c, ∀ st, (evaluation st).2.world.context other = st.world.context other

section Evaluations

variable {c other : ContextId} {x : Context} {st : EngineState}

theorem replacing_self : replacing other (st.world.context other) st = st := by
  have hset : st.world.contexts.set other (st.world.context other) = st.world.contexts := by
    refine List.ext_getElem? fun i => ?_
    rw [List.getElem?_set]
    split
    · rename_i heq
      subst heq
      split
      · rename_i hlt
        simp [World.context, hlt]
      · rename_i hge
        exact (List.getElem?_eq_none (Nat.le_of_not_lt hge)).symm
    · rfl
  unfold replacing World.setContext
  rw [hset]

/-- What overlooks other contexts and makes none does not change them. -/
theorem apart_of_overlooks {α : Type} {evaluation : EngineState → α × EngineState}
    (overlooks : ∀ other ≠ c, ∀ x st, evaluation (replacing other x st) =
      ((evaluation st).1, replacing other x (evaluation st).2))
    (length : ∀ st, (evaluation st).2.world.contexts.length = st.world.contexts.length) :
    Apart c evaluation := by
  refine ⟨overlooks, fun other hne st => ?_⟩
  have hsame := congrArg Prod.snd (overlooks other hne (st.world.context other) st)
  rw [replacing_self] at hsame
  by_cases hlt : other < st.world.contexts.length
  · rw [hsame]
    exact World.context_setContext (by rw [length]; exact hlt) _
  · have hnone : ∀ w : World, w.contexts.length = st.world.contexts.length →
        w.contexts[other]? = none := fun w hw =>
      List.getElem?_eq_none (by rw [hw]; exact Nat.le_of_not_lt hlt)
    unfold World.context
    rw [hnone _ (length st), hnone _ rfl]

/-- An act changes no context but the one that it is done for. -/
theorem Act.context_after (hne : other ≠ c) (a : Act) (st : EngineState) :
    ((a.perform c).after st).world.context other = st.world.context other := by
  have hapart : Apart c fun st => ((), (a.perform c).after st) := by
    refine apart_of_overlooks (fun other hne x st => congrArg (Prod.mk ()) ?_) fun st => ?_
    · unfold after
      rw [a.overlooks hne st]
      cases a.perform c st <;> rfl
    · exact (a.preserves robust_contextCount c).after st
  exact hapart.keeps other hne st

/-- The state after a step whose panic is reported. -/
def contained {α : Type} (notice : Panic → Notice) (step : Run α) (st : EngineState) :
    EngineState :=
  match step st with
  | .ok _ st => st
  | .error message st => noted (notice message) st

section Contained

variable {α : Type} (notice : Panic → Notice) (step : Run α)

theorem guarded_snd (what : String) (fallback : α) (st : EngineState) :
    (guarded what fallback step st).2 = contained (.evaluationPanicked what) step st := by
  unfold guarded contained
  cases step st <;> rfl

theorem Work.perform_actions (id : TaskId) (mode : ExecMode) (actions : List Action)
    (st : EngineState) :
    (Work.actions mode c actions).perform id st =
      contained (.taskPanicked id) ((actionsScript actions).run c) st := by
  unfold Work.perform contained
  rw [actionsScript_run, Work.run]
  cases triggerAll c actions st <;> rfl

theorem contained_contexts (st : EngineState) :
    (contained notice step st).world.contexts = (step.after st).world.contexts := by
  unfold contained after
  cases step st <;> rfl

theorem contained_scheduler (st : EngineState) :
    (contained notice step st).scheduler = (step.after st).scheduler := by
  unfold contained after
  cases step st <;> rfl

theorem contained_overlooks {step : Run α} (h : Overlooks other x step) (st : EngineState) :
    contained notice step (replacing other x st) =
      replacing other x (contained notice step st) := by
  unfold contained
  rw [h st]
  cases step st <;> rfl

end Contained

theorem guarded_apart {α : Type} (s : Script α) (what : String) (fallback : α) :
    Apart c (guarded what fallback (s.run c)) := by
  refine apart_of_overlooks (fun other hne x st => ?_) fun st => ?_
  · unfold guarded
    rw [s.overlooks hne st]
    cases s.run c st <;> rfl
  · rw [guarded_snd, contained_contexts]
    exact (s.preserves robust_contextCount c).after st

theorem trigger_apart (c : ContextId) (actions : List Action) : Apart c (trigger c actions) := by
  rw [trigger_eq_guarded]
  exact guarded_apart _ _ _

/-- Firing an event for one context and using another one do not disturb each other. -/
theorem RuleBook.fire_apart (book : RuleBook) (event : String) (c : ContextId) :
    Apart c (book.fire event c) := by
  cases hrules : book.rules? event with
  | none =>
    have hfire : book.fire event c = fun st => (false, noted (.noRulesFor event) st) :=
      funext fun st => RuleBook.fire_of_unknown hrules
    rw [hfire]
    exact ⟨fun _ _ _ _ => rfl, fun _ _ _ => rfl⟩
  | some rules =>
    rw [RuleBook.fire_eq_guarded hrules]
    exact guarded_apart _ _ _

/-- What is left to do when a task has run. -/
def concluded (e : QueueEntry Work) (st : EngineState) : EngineState where
  scheduler := st.scheduler.finish e
  world := if st.scheduler.drops e then workshop.dropped e.id st.world else st.world

theorem concluded_contexts (e : QueueEntry Work) (st : EngineState) :
    (concluded e st).world.contexts = st.world.contexts := by
  unfold concluded
  dsimp only
  split <;> rfl

theorem concluded_replacing (e : QueueEntry Work) (st : EngineState) :
    concluded e (replacing other x st) = replacing other x (concluded e st) := by
  unfold concluded replacing
  dsimp only
  split <;> rfl

/-- A task with actions runs their script, and what is left to do follows. -/
theorem fire_of_actions {e : QueueEntry Work} {mode : ExecMode} {actions : List Action}
    (htask : e.task = .actions mode c actions) (st : EngineState) :
    st.fire workshop e = concluded e
      (contained (.taskPanicked e.id) ((actionsScript actions).run c) (st.started e)) := by
  rw [← Work.perform_actions e.id mode, ← htask]
  rfl

theorem fire_of_cancel {e : QueueEntry Work} {task : TaskId} (htask : e.task = .cancel task)
    (st : EngineState) :
    st.fire workshop e = concluded e { st.started e with
      scheduler := ((st.started e).scheduler.cancel task).2 } := by
  have hperform : workshop.run e.id e.task (st.started e) = { st.started e with
      scheduler := ((st.started e).scheduler.cancel task).2 } := by
    rw [htask]
    rfl
  rw [← hperform]
  rfl

theorem fire_apart {e : QueueEntry Work} {mode : ExecMode} {actions : List Action}
    (htask : e.task = .actions mode c actions) :
    Apart c fun st : EngineState => ((), st.fire workshop e) := by
  refine apart_of_overlooks (fun other hne x st => congrArg (Prod.mk ()) ?_) fun st => ?_
  · rw [fire_of_actions htask, fire_of_actions htask, ← concluded_replacing,
      ← contained_overlooks _ ((actionsScript actions).overlooks hne)]
    rfl
  · rw [fire_of_actions htask, concluded_contexts, contained_contexts]
    exact ((actionsScript actions).preserves robust_contextCount c).after (st.started e)

end Evaluations

end RuleEngine
