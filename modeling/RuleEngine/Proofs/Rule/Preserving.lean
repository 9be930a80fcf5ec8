/-
  RuleEngine/Proofs/Rule/Preserving.lean
  ======================================
  **What rules leave as it is.**

  Most of what rules do are reports, deliveries, rolls and cooldowns.  A view of the state in
  which these do not show (`Coarse`) is preserved by every act but a few (`Act.Light`): by
  those that schedule, that write a property, and that hand over to a guest or to a rule of
  the application.

  The scheduler is such a view, and only delays and timers change it (`Act.perform_calls`).
  A view of the world in which contexts and guests do not show either (`Robust`) is preserved by
  every act, whatever it hands over to (`Act.preserves`).  So are the errors that were reported:
  an error is reported where a panic is met, and nowhere else.  So is the number of contexts.
-/
import RuleEngine.Proofs.Rule.Closure

namespace RuleEngine

/-! ### Steps and views -/

section Preserves

variable {ε σ α β γ : Type} {view : σ → γ}

/-- A step leaves a view of its state as it is, even if it fails. -/
def Preserves (view : σ → γ) (x : EStateM ε σ α) : Prop :=
  ∀ s, match x s with
    | .ok _ s' | .error _ s' => view s' = view s

theorem preserves_pure (a : α) : Preserves view (pure a : EStateM ε σ α) := fun _ => rfl

theorem preserves_throw (e : ε) : Preserves view (throw e : EStateM ε σ α) := fun _ => rfl

theorem preserves_get : Preserves view (get : EStateM ε σ σ) := fun _ => rfl

theorem preserves_modify {f : σ → σ} (h : ∀ s, view (f s) = view s) :
    Preserves view (modify f : EStateM ε σ PUnit) := h

/-- A sequence leaves a view as it is if its steps do. -/
theorem Preserves.bind {x : EStateM ε σ α} {f : α → EStateM ε σ β} (hx : Preserves view x)
    (hf : ∀ a, Preserves view (f a)) : Preserves view (x >>= f) := by
  intro s
  have hfirst := hx s
  show match EStateM.bind x f s with
    | .ok _ s' | .error _ s' => view s' = view s
  unfold EStateM.bind
  cases h : x s with
  | error e s' =>
    rw [h] at hfirst
    exact hfirst
  | ok a s' =>
    rw [h] at hfirst
    have hlater := hf a s'
    dsimp only at hfirst ⊢
    rw [hfirst] at hlater
    exact hlater

theorem Preserves.modify_bind {f : σ → σ} {g : PUnit → EStateM ε σ β}
    (hf : ∀ s, view (f s) = view s) (hg : Preserves view (g ⟨⟩)) :
    Preserves view (modify f >>= g) :=
  Preserves.bind (preserves_modify hf) fun _ => hg

theorem preserves_forIn {l : List α} {init : β} {g : α → β → EStateM ε σ (ForInStep β)}
    (hg : ∀ a b, Preserves view (g a b)) : Preserves view (forIn l init g) := by
  induction l generalizing init with
  | nil => exact preserves_pure init
  | cons a rest ih =>
    rw [List.forIn_cons]
    refine (hg a init).bind fun step => ?_
    cases step with
    | done b => exact preserves_pure b
    | yield b => exact ih

/-- What a step preserves is the same after it. -/
theorem Preserves.after {view : EngineState → γ} {x : Run α} (hx : Preserves view x)
    (st : EngineState) : view (x.after st) = view st := by
  have h := hx st
  unfold Run.after
  cases hrun : x st with
  | ok a st' => rw [hrun] at h; exact h
  | error message st' => rw [hrun] at h; exact h

end Preserves

/-! ### Coarse views -/

/-- Reports below the level of an error, deliveries, rolls and cooldowns do not show in a view. -/
structure Coarse {γ : Type} (view : EngineState → γ) : Prop where
  report : ∀ st n, n.level ≠ .error → view { st with world := st.world.report n } = view st
  deliveries : ∀ st deliveries, view { st with world := { st.world with deliveries } } = view st
  dice : ∀ st dice, view { st with world := { st.world with dice } } = view st
  ledger : ∀ st ledger, view { st with world := { st.world with ledger } } = view st

theorem coarse_scheduler : Coarse (·.scheduler) :=
  ⟨fun _ _ _ => rfl, fun _ _ => rfl, fun _ _ => rfl, fun _ _ => rfl⟩

theorem coarse_contexts : Coarse (·.world.contexts) :=
  ⟨fun _ _ _ => rfl, fun _ _ => rfl, fun _ _ => rfl, fun _ _ => rfl⟩

/-- The errors that were reported, in order. -/
def World.errors (w : World) : List Notice := w.notices.toList.filter (·.level == .error)

theorem World.errors_report (w : World) (n : Notice) :
    (w.report n).errors = w.errors ++ if n.level == .error then [n] else [] := by
  unfold errors report
  rw [Array.toList_push, List.filter_append, List.filter_singleton]
  cases n.level == .error <;> rfl

theorem World.errors_report_of_ne {w : World} {n : Notice} (h : n.level ≠ .error) :
    (w.report n).errors = w.errors := by
  rw [errors_report, if_neg (by simpa using h), List.append_nil]

namespace Run

section Coarse

variable {γ : Type} {view : EngineState → γ}

theorem preserves_ask {α : Type} (f : World → α) : Preserves view (ask f) := fun _ => rfl

theorem preserves_change {f : World → World}
    (h : ∀ st : EngineState, view { st with world := f st.world } = view st) :
    Preserves view (change f) := h

theorem preserves_call (call : PlatformCall) : Preserves view (Run.call call) := by
  refine (preserves_ask _).bind fun platform => ?_
  cases platform.fault call with
  | some message => exact preserves_throw message
  | none => exact preserves_pure _

theorem preserves_readClosed (c : ContextId) : ReadClosed c (Preserves view) where
  pure := preserves_pure
  bind := Preserves.bind
  context := preserves_ask _
  scope := preserves_ask _
  call := preserves_call

theorem preserves_lightClosed (coarse : Coarse view) (c : ContextId) :
    LightClosed c (Preserves view) where
  toReadClosed := preserves_readClosed c
  report n h := preserves_change fun st => coarse.report st n h
  deliver d := by
    refine (preserves_call _).bind fun _ => ?_
    exact preserves_change fun st => coarse.deliveries st _
  roll := by
    refine (preserves_ask _).bind fun dice => ?_
    exact (preserves_change fun st => coarse.dice st _).bind fun _ => preserves_pure _
  useCooldown subject key window := by
    refine (preserves_ask _).bind fun w => ?_
    obtain ⟨left?, ledger⟩ := w.ledger.check w.clock subject key window
    have hledger : Preserves view (change ({ · with ledger })) :=
      preserves_change fun st => coarse.ledger st ledger
    cases left? with
    | some left =>
      refine hledger.bind fun _ => Preserves.bind ?_ fun _ => preserves_pure _
      exact preserves_change fun st => coarse.report st _ (by simp [Notice.level])
    | none => exact hledger.bind fun _ => preserves_pure _

end Coarse

end Run

open Run

/-- A light act shows in no coarse view. -/
theorem Act.Light.preserves {γ : Type} {view : EngineState → γ} {a : Act} (light : a.Light)
    (coarse : Coarse view) (c : ContextId) : Preserves view (a.perform c) :=
  (preserves_lightClosed coarse c).light light

/-! ### The scheduler -/

def Act.calls (c : ContextId) (s : Scheduler Work) : Act → List (Call Work)
  | .run (.delay delay mode actions) _ => [.schedule delay (.actions mode c actions)]
  | .run (.timer delay period duration mode actions) _ =>
    [.scheduleRepeating delay period (.actions mode c actions),
      .schedule duration (.cancel s.nextId)]
  | _ => []

def askedCalls (c : ContextId) (acts : List (Act × EngineState)) : List (Call Work) :=
  acts.flatMap fun act => act.1.calls c act.2.scheduler

/-- An act does to the scheduler what it asks for. -/
theorem Act.perform_calls (c : ContextId) (a : Act) (st : EngineState) :
    ((a.perform c).after st).scheduler = st.scheduler.performAll (a.calls c st.scheduler) := by
  have hlight : a.Light → ((a.perform c).after st).scheduler = st.scheduler := fun light =>
    (light.preserves coarse_scheduler c).after st
  cases a with
  | run body simple =>
    rw [Act.perform] at hlight ⊢
    cases body with
    | delay delay mode actions => rw [ActionBody.run]; rfl
    | timer delay period duration mode actions => rw [ActionBody.run]; rfl
    | set key value =>
      rw [ActionBody.run]
      refine Quiet.bind ?_ (fun _ => Run.quiet_pure true) st
      exact (quiet_render c value).bind fun text => quiet_changeContext c _
    | guest id payload =>
      rw [ActionBody.run]
      refine Quiet.bind ?_ (fun _ => Run.quiet_pure true) st
      refine (payload.render_quiet c).bind fun text => ?_
      exact (quiet_guest c id text).bind fun _ => Run.quiet_pure _
    | custom procedure =>
      rw [ActionBody.run]
      exact (procedure.run_quiet c).bind (fun _ => Run.quiet_pure true) st
    | _ => exact hlight trivial
  | check sideEffects body simple =>
    rw [Act.perform] at hlight ⊢
    cases body with
    | guest id payload =>
      rw [RequirementBody.check]
      refine (payload.render_quiet c).bind (fun text => ?_) st
      exact (quiet_guest c id text).bind fun _ => Run.quiet_pure _
    | custom procedure =>
      rw [RequirementBody.check]
      exact (procedure sideEffects).run_quiet c st
    | _ => exact hlight trivial
  | _ => exact hlight trivial

/-- A script does to the scheduler what its acts ask for, whether or not it ends in a panic. -/
theorem Script.run_calls {α : Type} (c : ContextId) (s : Script α) (st : EngineState) :
    ((s.run c).after st).scheduler = st.scheduler.performAll (askedCalls c (s.trace c st)) := by
  induction s generalizing st with
  | done result => rfl
  | act a next ih =>
    have hact := a.perform_calls c st
    rw [Script.run, Script.trace, askedCalls, List.flatMap_cons, Scheduler.performAll_append,
      ← hact, Run.after_bind]
    cases hrun : a.perform c st with
    | ok answer after => simpa [Run.outcome, Run.after, hrun, askedCalls] using ih answer after
    | error message after => simp [Run.outcome, Run.after, hrun, Scheduler.performAll]

/-- The act defers some actions: they are due after a delay, and perhaps again and again. -/
inductive Act.Defers : Act → Nat → Option Nat → ExecMode → List Action → Prop
  | delay {delay : Nat} {mode : ExecMode} {actions : List Action}
    {simple : (ActionBody.delay delay mode actions).Simple} :
    Defers (.run (.delay delay mode actions) simple) delay none mode actions
  | timer {delay period duration : Nat} {mode : ExecMode} {actions : List Action}
    {simple : (ActionBody.timer delay period duration mode actions).Simple} :
    Defers (.run (.timer delay period duration mode actions) simple) delay (some period) mode
      actions

/-- Actions are deferred by a task of their own, for the same context. -/
theorem Act.Defers.mem_events {a : Act} {delay : Nat} {period? : Option Nat} {mode : ExecMode}
    {actions : List Action} (defers : a.Defers delay period? mode actions) (c : ContextId)
    (m : Moment Work World) :
    .scheduled m.now m.phase.caller? m.scheduler.nextId delay period? (.actions mode c actions) ∈
      m.events (a.calls c m.scheduler) := by
  cases defers <;> exact List.mem_cons_self

/-- No act cancels a task. -/
theorem Act.calls_ne_cancel (c : ContextId) (a : Act) (s : Scheduler Work) (id : TaskId) :
    .cancel id ∉ a.calls c s := by
  unfold calls
  split <;> simp

/-! ### Views of the world -/

/-- Reports below the level of an error, deliveries, rolls and cooldowns do not show in a view of
    the world, nor does it show what the contexts and the guests are. -/
structure Robust {γ : Type} (view : World → γ) : Prop where
  report : ∀ w n, n.level ≠ .error → view (w.report n) = view w
  deliveries : ∀ w deliveries, view { w with deliveries } = view w
  dice : ∀ w dice, view { w with dice } = view w
  ledger : ∀ w ledger, view { w with ledger } = view w
  context : ∀ w c x, view (w.setContext c x) = view w
  guest : ∀ w g x, view (w.setGuest g x) = view w

theorem robust_errors : Robust World.errors where
  report _ _ h := World.errors_report_of_ne h
  deliveries _ _ := rfl
  dice _ _ := rfl
  ledger _ _ := rfl
  context _ _ _ := rfl
  guest _ _ _ := rfl

theorem robust_contextCount : Robust (·.contexts.length) where
  report _ _ _ := rfl
  deliveries _ _ := rfl
  dice _ _ := rfl
  ledger _ _ := rfl
  context _ _ _ := List.length_set
  guest _ _ _ := rfl

section Robust

variable {γ : Type} {view : World → γ}

theorem Robust.coarse (robust : Robust view) : Coarse (view ·.world) where
  report st n h := robust.report st.world n h
  deliveries st deliveries := robust.deliveries st.world deliveries
  dice st dice := robust.dice st.world dice
  ledger st ledger := robust.ledger st.world ledger

namespace Guest

section Step

variable (f : Frame)

theorem preserves_change {g : World → World} (h : ∀ w, view (g w) = view w) :
    Preserves (view ·.world) (Step.change g : Step Unit) := fun m => h m.world

theorem preserves_readText (start length : Int32) :
    Preserves (view ·.world) (Step.readText f start length) := by
  unfold Step.readText
  split
  · exact preserves_pure _
  · exact preserves_get.bind fun _ => preserves_pure _

theorem preserves_writeText (out capacity : Int32) (text : String) :
    Preserves (view ·.world) (Step.writeText f out capacity text) := by
  unfold Step.writeText
  split
  · exact preserves_pure _
  dsimp only
  split
  · exact preserves_pure _
  refine preserves_get.bind fun m => ?_
  split
  · exact .modify_bind (fun _ => rfl) (preserves_pure _)
  · exact preserves_pure _

theorem preserves_runDry {α : Type} : Preserves (view ·.world) (Step.runDry : Step α) :=
  .modify_bind (fun _ => rfl) (preserves_throw _)

theorem preserves_detaching {α : Type} {x : Step α} (hx : Preserves (view ·.world) x) :
    Preserves (view ·.world) (Step.detaching x) := by
  intro m
  have h := hx m
  unfold Step.detaching
  rcases hrun : x m with ⟨a, m'⟩ | ⟨_ | _ | _, m'⟩ <;> (rw [hrun] at h; exact h)

variable (robust : Robust view)

include robust

theorem preserves_report {n : Notice} (h : n.level ≠ .error) :
    Preserves (view ·.world) (Step.report n) :=
  preserves_change fun w => robust.report w n h

theorem preserves_attached : Preserves (view ·.world) (Step.attached f) := by
  refine preserves_get.bind fun m => ?_
  cases m.attached? with
  | some c => exact preserves_pure _
  | none =>
    exact (preserves_report robust (by simp [Notice.level])).bind fun _ => preserves_pure _

theorem preserves_deliver (d : Delivery) : Preserves (view ·.world) (Step.deliver d) := by
  refine preserves_get.bind fun m => ?_
  split
  · exact preserves_throw _
  · exact preserves_change fun w => robust.deliveries w _

theorem preserves_log (start length : Int32) :
    Preserves (view ·.world) (Step.log f start length) := by
  refine (preserves_readText f start length).bind fun text? => ?_
  cases text? with
  | some text => exact preserves_report robust (by simp [Notice.level])
  | none => exact preserves_pure _

theorem preserves_sendMessage (start length : Int32) :
    Preserves (view ·.world) (Step.sendMessage f start length) := by
  refine (preserves_attached f robust).bind fun context? => ?_
  refine (preserves_readText f start length).bind fun text? => ?_
  split
  · refine preserves_get.bind fun m => ?_
    refine (preserves_forIn fun target _ => ?_).bind fun _ => preserves_pure _
    exact (preserves_deliver robust _).bind fun _ => preserves_pure _
  · exact preserves_pure _

theorem preserves_runCommand (start length : Int32) :
    Preserves (view ·.world) (Step.runCommand f start length) := by
  refine (preserves_attached f robust).bind fun context? => ?_
  refine (preserves_readText f start length).bind fun text? => ?_
  split
  · exact preserves_get.bind fun m => preserves_deliver robust _
  · exact preserves_pure _

theorem preserves_getProperty (keyStart keyLength out capacity : Int32) :
    Preserves (view ·.world) (Step.getProperty f keyStart keyLength out capacity) := by
  refine (preserves_attached f robust).bind fun context? => ?_
  cases context? with
  | none => exact preserves_pure _
  | some c =>
    refine (preserves_readText f keyStart keyLength).bind fun key? => ?_
    cases key? with
    | none => exact preserves_pure _
    | some key =>
      refine preserves_get.bind fun m => ?_
      split
      · exact preserves_pure _
      · exact preserves_writeText f out capacity _

theorem preserves_setProperty (keyStart keyLength valueStart valueLength : Int32) :
    Preserves (view ·.world) (Step.setProperty f keyStart keyLength valueStart valueLength) := by
  refine (preserves_attached f robust).bind fun context? => ?_
  cases context? with
  | none => exact preserves_pure _
  | some c =>
    refine (preserves_readText f keyStart keyLength).bind fun key? => ?_
    refine (preserves_readText f valueStart valueLength).bind fun value? => ?_
    split
    · exact preserves_change fun w => robust.context w c _
    · exact preserves_pure _

theorem preserves_subjectId (out capacity : Int32) :
    Preserves (view ·.world) (Step.subjectId f out capacity) := by
  refine (preserves_attached f robust).bind fun context? => ?_
  cases context? with
  | none => exact preserves_pure _
  | some c => exact preserves_get.bind fun m => preserves_writeText f out capacity _

theorem preserves_runCode {α : Type} (code : Code α) :
    Preserves (view ·.world) (Step.runCode f code) := by
  induction code with
  | done result => exact preserves_pure _
  | trap cause => exact preserves_throw _
  | outOfFuel => exact preserves_runDry
  | burn units next ih =>
    refine preserves_get.bind fun m => ?_
    dsimp only
    split
    · exact .modify_bind (fun _ => rfl) ih
    · exact preserves_runDry
  | load address next ih => exact preserves_get.bind fun m => ih _
  | store address byte next ih =>
    refine preserves_get.bind fun m => ?_
    split
    · exact .modify_bind (fun _ => rfl) (ih true)
    · exact ih false
  | grow more next ih =>
    refine preserves_get.bind fun m => ?_
    dsimp only
    split
    · exact .modify_bind (fun _ => rfl) (ih _)
    · exact ih none
  | readRegister number next ih => exact preserves_get.bind fun m => ih _
  | writeRegister number value next ih => exact .modify_bind (fun _ => rfl) ih
  | log start length next ih => exact (preserves_log f robust start length).bind fun _ => ih
  | sendMessage start length next ih =>
    exact (preserves_sendMessage f robust start length).bind fun _ => ih
  | runCommand start length next ih =>
    exact (preserves_runCommand f robust start length).bind fun _ => ih
  | setProperty keyStart keyLength valueStart valueLength next ih =>
    exact (preserves_setProperty f robust keyStart keyLength valueStart valueLength).bind
      fun _ => ih
  | getProperty keyStart keyLength out capacity next ih =>
    exact (preserves_getProperty f robust keyStart keyLength out capacity).bind
      fun answer => ih answer
  | subjectId out capacity next ih =>
    exact (preserves_subjectId f robust out capacity).bind fun answer => ih answer

theorem preserves_reserve (a : Allocator) (length : Int32) :
    Preserves (view ·.world) (Step.reserve f a length) := by
  cases a with
  | bump =>
    refine preserves_get.bind fun m => ?_
    exact .modify_bind (fun _ => rfl) (preserves_pure _)
  | fixed address => exact preserves_pure _
  | trapping => exact preserves_throw _
  | computes code =>
    intro m
    have h := preserves_runCode f robust (code length) m
    unfold Step.reserve
    dsimp only
    rcases hrun : Step.runCode f (code length) m with ⟨address, m'⟩ | ⟨_ | _ | _, m'⟩ <;>
      (rw [hrun] at h; exact h)

theorem preserves_placePayload (alloc? : Option Allocator) (payload : String) :
    Preserves (view ·.world) (Step.placePayload f alloc? payload) := by
  unfold Step.placePayload
  dsimp only
  cases alloc? with
  | none => exact preserves_pure _
  | some a =>
    dsimp only
    split
    · exact preserves_pure _
    split
    · exact preserves_throw _
    refine (preserves_reserve f robust a _).bind fun address =>
      Preserves.bind ?_ fun _ => preserves_pure _
    refine preserves_get.bind fun m => ?_
    split
    · exact preserves_modify fun _ => rfl
    · exact preserves_throw _

end Step

/-- A call of a guest leaves such a view as it is. -/
theorem preserves_invoke (robust : Robust view) (w : World) (g : GuestId)
    (context? : Option ContextId) (program : Program) (payload : String) :
    view (invoke w g context? program payload).2 = view w := by
  have h : Preserves (view ·.world) (Step.call (w.guest g).typeKey (w.guest g).alloc?
      (w.guest g).fuel context? program payload) := by
    refine Preserves.modify_bind (fun _ => rfl) (preserves_detaching ?_)
    exact (preserves_placePayload _ robust _ _).bind fun _ => preserves_runCode _ robust _
  have hcall := h ((w.guest g).machine w)
  unfold invoke Instance.outcome
  dsimp only
  split
  · rename_i heq
    rw [heq] at hcall
    exact (robust.guest _ _ _).trans hcall
  · rename_i heq
    rw [heq] at hcall
    exact (robust.guest _ _ _).trans hcall

end Guest

variable (robust : Robust view) (c : ContextId)

include robust

theorem preserves_guest (g : GuestId) (payload : String) :
    Preserves (view ·.world) (Run.guest c g payload) := by
  intro st
  have h := Guest.preserves_invoke robust st.world g (some c) (st.world.guest g).entry payload
  have hask : Run.ask id st = .ok st.world st := rfl
  unfold Run.guest
  rw [Run.bind_apply, hask]
  dsimp only
  rcases hinvoke : Guest.invoke st.world g (some c) (st.world.guest g).entry payload with
    ⟨(_ | _ | _) | code, w⟩
  all_goals rw [hinvoke] at h
  · exact (robust.report _ _ (by simp [Guest.stopNotice, Notice.level])).trans h
  · exact (robust.report _ _ (by simp [Guest.stopNotice, Notice.level])).trans h
  · exact h
  · exact h

theorem preserves_actClosed : ActClosed c (Preserves (view ·.world)) where
  toLightClosed := preserves_lightClosed robust.coarse c
  panic := preserves_throw
  schedule _ _ := fun _ => rfl
  scheduleRepeating _ _ _ := fun _ => rfl
  changeContext _ := preserves_change fun st => robust.context st.world c _
  guest := preserves_guest robust c

/-- No act changes such a view, whatever it hands over to. -/
theorem Act.preserves (a : Act) : Preserves (view ·.world) (a.perform c) :=
  (preserves_actClosed robust c).act a

theorem Script.preserves {α : Type} (s : Script α) : Preserves (view ·.world) (s.run c) :=
  (preserves_actClosed robust c).script s

end Robust

end RuleEngine
