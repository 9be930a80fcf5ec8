/-
  RuleEngine/Proofs/Rule/Closure.lean
  ===================================
  **Properties of everything that rules do.**

  Rules are put together from few steps: they read the context that they run for, call the
  platform, report, roll and use cooldowns; some schedule tasks, write to the context or hand
  over to a guest.  A property of steps that passes from a step to a sequence of steps holds of
  all that rules do as soon as it holds of these.

  How many of the steps a property has to hold of depends on what it is wanted for: to render a
  text (`ReadClosed`), to do an act that neither writes nor schedules (`LightClosed`), or to do
  any act at all (`ActClosed`), and so any script.
-/
import RuleEngine.Proofs.Rule.Script

namespace RuleEngine

namespace Run

variable {P : ∀ {α : Type}, Run α → Prop} {c : ContextId}

/-! ### Reading -/

/-- The property passes on to sequences, and it holds of what templates are rendered by. -/
structure ReadClosed (c : ContextId) (P : ∀ {α : Type}, Run α → Prop) : Prop where
  pure : ∀ {α : Type} (a : α), P (Pure.pure a : Run α)
  bind : ∀ {α β : Type} {x : Run α} {f : α → Run β}, P x → (∀ a, P (f a)) → P (x >>= f)
  context : P (context c)
  scope : P (ask (·.scope c))
  call : ∀ call, P (Run.call call)

namespace ReadClosed

variable (closed : ReadClosed c P)

include closed

theorem forIn {α β : Type} {l : List α} {init : β} {g : α → β → Run (ForInStep β)}
    (hg : ∀ a b, P (g a b)) : P (forIn l init g) := by
  induction l generalizing init with
  | nil => exact closed.pure init
  | cons a rest ih =>
    rw [List.forIn_cons]
    refine closed.bind (hg a init) fun step => ?_
    cases step with
    | done b => exact closed.pure b
    | yield b => exact ih

theorem resolve (target : Reference) : P (resolve c target) := by
  cases target with
  | property key => exact closed.pure _
  | placeholder name => exact closed.bind closed.context fun _ => closed.call _

theorem render (t : TextTemplate) : P (render c t) := by
  refine closed.bind (closed.forIn fun target _ => ?_) fun _ => ?_
  · exact closed.bind (closed.resolve target) fun _ => closed.pure _
  · exact closed.bind closed.scope fun _ => closed.pure _

theorem payload (p : Payload) : P (p.render c) := by
  cases p with
  | text template => exact closed.render template
  | json value => exact closed.pure value

end ReadClosed

/-! ### Light acts -/

/-- Beyond this the property holds of reports below the level of an error, of deliveries, rolls
    and cooldowns. -/
structure LightClosed (c : ContextId) (P : ∀ {α : Type}, Run α → Prop) : Prop
    extends ReadClosed c P where
  report : ∀ n, n.level ≠ .error → P (report n)
  deliver : ∀ d, P (deliver d)
  roll : P roll
  useCooldown : ∀ subject key window, P (useCooldown subject key window)

namespace LightClosed

variable (closed : LightClosed c P)

include closed

theorem message (text : String) : P (message c text) := by
  refine closed.bind closed.context fun context => ?_
  refine closed.bind (closed.forIn fun target _ => ?_) fun _ => closed.pure _
  exact closed.bind (closed.deliver _) fun _ => closed.pure _

theorem command (text : String) : P (command c text) :=
  closed.bind closed.context fun _ => closed.deliver _

theorem evaluate (f : Formula) : P (evaluate c f) := by
  refine closed.bind (closed.forIn fun target _ => ?_) fun _ => ?_
  · refine closed.bind (closed.resolve target) fun _ => closed.bind closed.scope fun scope => ?_
    split
    · refine closed.bind (closed.report _ ?_) fun _ => closed.pure _
      cases target <;> simp [Notice.level]
    · exact closed.pure _
  · exact closed.bind closed.scope fun _ => closed.pure _

theorem number (o : Operand) : P (o.number c) := by
  unfold Operand.number
  cases o.number? with
  | none => exact closed.pure _
  | some f => exact closed.bind (closed.evaluate f) fun _ => closed.pure _

theorem sidesEqual (left right : Operand) : P (sidesEqual c left right) := by
  refine closed.bind (closed.number left) fun x? => ?_
  refine closed.bind (closed.number right) fun y? => ?_
  have htexts : P (do
      let s ← Run.render c left.text
      let t ← Run.render c right.text
      return s == t) := by
    refine closed.bind (closed.render _) fun s => ?_
    exact closed.bind (closed.render _) fun t => closed.pure _
  cases x? with
  | none => exact htexts
  | some x =>
    cases y? with
    | none => exact htexts
    | some y => exact closed.pure _

theorem cooldownAdmits (key : TextTemplate) (window : Formula) (unit : Float) :
    P (cooldownAdmits c key window unit) := by
  refine closed.bind (closed.evaluate window) fun span => ?_
  dsimp only
  split
  · refine closed.bind (closed.render key) fun name => closed.bind closed.context fun context => ?_
    exact closed.bind (closed.useCooldown _ _ _) fun _ => closed.pure _
  · exact closed.bind (closed.report _ (by simp [Notice.level])) fun _ => closed.pure _

theorem admitted (typeKey : String) (chance : Formula) : P (Action.admitted c typeKey chance) := by
  unfold Action.admitted
  split
  · exact closed.pure _
  refine closed.bind (closed.evaluate chance) fun limit => ?_
  split
  · exact closed.pure _
  refine closed.bind closed.roll fun roll => ?_
  split
  · exact closed.pure _
  · exact closed.bind (closed.report _ (by simp [Notice.level])) fun _ => closed.pure _

end LightClosed

end Run

/-- The act neither schedules nor writes a property, and it does not hand over to a guest or to
    a rule of the application. -/
def Act.Light : Act → Prop
  | .run (.delay ..) _ | .run (.timer ..) _ | .run (.set ..) _ => False
  | .run (.guest ..) _ | .run (.custom ..) _ => False
  | .check _ (.guest ..) _ | .check _ (.custom ..) _ => False
  | _ => True

namespace Run

variable {P : ∀ {α : Type}, Run α → Prop} {c : ContextId}

namespace LightClosed

variable (closed : LightClosed c P)

include closed

theorem check {body : RequirementBody} {sideEffects : Bool} {simple : body.Simple}
    (light : (Act.check sideEffects body simple).Light) : P (body.check c sideEffects) := by
  cases body with
  | idle => rw [RequirementBody.check]; exact closed.pure _
  | equality negated left right =>
    rw [RequirementBody.check]
    exact closed.bind (closed.sidesEqual left right) fun _ => closed.pure _
  | comparison relation left right =>
    rw [RequirementBody.check]
    refine closed.bind (closed.evaluate left) fun x => ?_
    exact closed.bind (closed.evaluate right) fun y => closed.pure _
  | cooldown key window unit =>
    rw [RequirementBody.check]
    exact closed.cooldownAdmits key window unit
  | chance probability =>
    rw [RequirementBody.check]
    refine closed.bind closed.roll fun roll => ?_
    exact closed.bind (closed.evaluate probability) fun _ => closed.pure _
  | all _ | any _ | not _ => exact simple.elim
  | guest _ _ | custom _ => exact light.elim

theorem run {body : ActionBody} {simple : body.Simple} (light : (Act.run body simple).Light) :
    P (body.run c) := by
  cases body with
  | idle => rw [ActionBody.run]; exact closed.pure _
  | message text =>
    rw [ActionBody.run]
    exact closed.bind (closed.render text) fun text => closed.message text
  | command text =>
    rw [ActionBody.run]
    exact closed.bind (closed.render text) fun text => closed.command text
  | chain _ | conditional _ _ | priority _ => exact simple.elim
  | delay _ _ _ | timer _ _ _ _ _ | set _ _ | guest _ _ | custom _ => exact light.elim

theorem light {a : Act} (light : a.Light) : P (a.perform c) := by
  cases a with
  | roll typeKey chance => exact closed.admitted typeKey chance
  | run body simple => exact closed.bind (closed.run light) fun _ => closed.pure _
  | check sideEffects body simple => exact closed.check light
  | refuse typeKey actions =>
    exact closed.bind (closed.report _ (by simp [Notice.level])) fun _ => closed.pure _
  | select branch =>
    exact closed.bind (closed.report _ (by simp [Notice.level])) fun _ => closed.pure _

end LightClosed

/-! ### All acts -/

/-- Beyond this the property holds of failing, of scheduling, of changes to the context and of
    calls of guests. -/
structure ActClosed (c : ContextId) (P : ∀ {α : Type}, Run α → Prop) : Prop
    extends LightClosed c P where
  panic : ∀ {α : Type} (message : String), P (panic message : Run α)
  schedule : ∀ delay task, P (schedule delay task)
  scheduleRepeating : ∀ delay period task, P (scheduleRepeating delay period task)
  changeContext : ∀ f, P (changeContext c f)
  guest : ∀ g payload, P (guest c g payload)

namespace ActClosed

variable (closed : ActClosed c P)

include closed

theorem procedure {α : Type} (p : Procedure α) : P (p.run c) := by
  induction p with
  | done result => exact closed.pure result
  | fail message => exact closed.panic message
  | subject next ih => exact closed.bind closed.context fun _ => ih _
  | read key next ih => exact closed.bind closed.context fun _ => ih _
  | write key value next ih => exact closed.bind (closed.changeContext _) fun _ => ih
  | setTargets targets next ih => exact closed.bind (closed.changeContext _) fun _ => ih
  | deliver delivery next ih => exact closed.bind (closed.deliver delivery) fun _ => ih
  | roll next ih => exact closed.bind closed.roll fun _ => ih _
  | useCooldown key window next ih =>
    refine closed.bind closed.context fun context => ?_
    exact closed.bind (closed.useCooldown _ _ _) fun _ => ih _

theorem act (a : Act) : P (a.perform c) := by
  have hlight : a.Light → P (a.perform c) := closed.light
  cases a with
  | run body simple =>
    rw [Act.perform] at hlight ⊢
    cases body with
    | delay delay mode actions =>
      rw [ActionBody.run] at hlight ⊢
      refine closed.bind ?_ fun _ => closed.pure true
      refine closed.bind (closed.schedule _ _) fun task => ?_
      exact closed.report _ (by simp [Notice.level])
    | timer delay period duration mode actions =>
      rw [ActionBody.run] at hlight ⊢
      refine closed.bind ?_ fun _ => closed.pure true
      refine closed.bind (closed.scheduleRepeating _ _ _) fun task => ?_
      refine closed.bind (closed.schedule _ _) fun _ => ?_
      exact closed.report _ (by simp [Notice.level])
    | set key value =>
      rw [ActionBody.run]
      refine closed.bind ?_ fun _ => closed.pure true
      exact closed.bind (closed.render value) fun text => closed.changeContext _
    | guest id payload =>
      rw [ActionBody.run]
      refine closed.bind ?_ fun _ => closed.pure true
      refine closed.bind (closed.payload payload) fun text => ?_
      exact closed.bind (closed.guest id text) fun _ => closed.pure _
    | custom procedure =>
      rw [ActionBody.run]
      exact closed.bind (closed.procedure procedure) fun _ => closed.pure true
    | _ => exact hlight trivial
  | check sideEffects body simple =>
    rw [Act.perform] at hlight ⊢
    cases body with
    | guest id payload =>
      rw [RequirementBody.check]
      refine closed.bind (closed.payload payload) fun text => ?_
      exact closed.bind (closed.guest id text) fun _ => closed.pure _
    | custom procedure =>
      rw [RequirementBody.check]
      exact closed.procedure (procedure sideEffects)
    | _ => exact hlight trivial
  | _ => exact hlight trivial

theorem script {α : Type} (s : Script α) : P (s.run c) := by
  induction s with
  | done result => exact closed.pure result
  | act a next ih => exact closed.bind (closed.act a) ih

end ActClosed

end Run

end RuleEngine
