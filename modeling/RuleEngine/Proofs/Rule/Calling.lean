/-
  RuleEngine/Proofs/Rule/Calling.lean
  ===================================
  **What rules ask of the scheduler.**

  Whatever a rule does, it does to the scheduler by calls alone: delays and timers
  schedule tasks, and a canceller cancels one.  Every call of a rule comes from a delay
  or a timer that stands in its tree (`Call.From`), and all of them bring in no more
  weight than the rule has, since the actions of a delay or a timer are part of the tree
  (`triggerAll_asks`).  Everything else leaves the scheduler alone (`Run.Quiet`).  So
  what a rule does at any moment is a run of the scheduler (`Run.Asks.course`), and so
  is every tick of an engine that returns (`workshop_tick`).
-/
import RuleEngine.Rule.Run
import RuleEngine.Proofs.Scheduler.Load

namespace RuleEngine

theorem Scheduler.performAll_append {τ : Type} (s : Scheduler τ) (first second : List (Call τ)) :
    s.performAll (first ++ second) = (s.performAll first).performAll second :=
  List.foldl_append

/-! ### The delays and timers of a tree -/

mutual

/-- The bodies of the delays and timers within an action, at any depth. -/
def Action.deferrals : Action → List ActionBody
  | .mk _ _ body => body.deferrals

def ActionBody.deferrals : ActionBody → List ActionBody
  | .idle => []
  | .chain actions => actionsDeferrals actions
  | .delay delay mode actions => .delay delay mode actions :: actionsDeferrals actions
  | .timer delay period duration mode actions =>
    .timer delay period duration mode actions :: actionsDeferrals actions
  | .conditional conditions actions => requirementsDeferrals conditions ++ actionsDeferrals actions
  | .priority branches => branchesDeferrals branches
  | .message _ => []
  | .command _ => []
  | .set _ _ => []
  | .guest _ _ => []
  | .custom _ => []

def Requirement.deferrals : Requirement → List ActionBody
  | .mk _ body notMet => body.deferrals ++ actionsDeferrals notMet

/-- The bodies of the delays and timers within the body of a requirement. -/
def RequirementBody.deferrals : RequirementBody → List ActionBody
  | .idle => []
  | .all requirements => requirementsDeferrals requirements
  | .any requirements => requirementsDeferrals requirements
  | .not requirement => requirement.deferrals
  | .equality _ _ _ => []
  | .comparison _ _ _ => []
  | .cooldown _ _ _ => []
  | .chance _ => []
  | .guest _ _ => []
  | .custom _ => []

def Branch.deferrals : Branch → List ActionBody
  | .mk _ conditions actions => requirementsDeferrals conditions ++ actionsDeferrals actions

def actionsDeferrals : List Action → List ActionBody
  | [] => []
  | a :: rest => a.deferrals ++ actionsDeferrals rest

def requirementsDeferrals : List Requirement → List ActionBody
  | [] => []
  | r :: rest => r.deferrals ++ requirementsDeferrals rest

def branchesDeferrals : List Branch → List ActionBody
  | [] => []
  | b :: rest => b.deferrals ++ branchesDeferrals rest

end

/-- A call is one that some delays and timers make, or it cancels a task. -/
inductive Call.From (bodies : List ActionBody) : Call Work → Prop where
  | continuation {delay : Nat} {mode : ExecMode} {c : ContextId} {actions : List Action}
      (within : .delay delay mode actions ∈ bodies) :
      From bodies (.schedule delay (.actions mode c actions))
  | firing {delay period duration : Nat} {mode : ExecMode} {c : ContextId} {actions : List Action}
      (within : .timer delay period duration mode actions ∈ bodies) :
      From bodies (.scheduleRepeating delay period (.actions mode c actions))
  | canceller {delay period duration : Nat} {mode : ExecMode} {task : TaskId}
      {actions : List Action} (within : .timer delay period duration mode actions ∈ bodies) :
      From bodies (.schedule duration (.cancel task))
  | cancel {task : TaskId} : From bodies (.cancel task)

theorem Call.From.mono {bodies more : List ActionBody} {c : Call Work} (hc : c.From bodies)
    (hsub : bodies ⊆ more) : c.From more := by
  cases hc with
  | continuation within => exact .continuation (hsub within)
  | firing within => exact .firing (hsub within)
  | canceller within => exact .canceller (hsub within)
  | cancel => exact .cancel

namespace Run

variable {α β : Type}

/-! ### Steps and their outcomes -/

/-- A sequence of two steps, at one state. -/
theorem bind_apply (x : Run α) (f : α → Run β) (st : EngineState) :
    (x >>= f) st =
      match x st with
      | .ok a st' => f a st'
      | .error message st' => .error message st' := by
  show EStateM.bind x f st = _
  unfold EStateM.bind
  cases x st <;> rfl

@[simp] theorem pure_apply (a : α) (st : EngineState) : (pure a : Run α) st = .ok a st := rfl

/-- The state after a step, whether or not it ended in a panic. -/
def after (x : Run α) (st : EngineState) : EngineState :=
  match x st with
  | .ok _ st => st
  | .error _ st => st

/-- What a step comes to at a state, without the state after it. -/
def outcome (x : Run α) (st : EngineState) : Except Panic α :=
  match x st with
  | .ok a _ => .ok a
  | .error message _ => .error message

/-- A sequence comes to what its second step comes to, unless the first panics. -/
theorem outcome_bind (x : Run α) (f : α → Run β) (st : EngineState) :
    (x >>= f).outcome st =
      match x.outcome st with
      | .ok a => (f a).outcome (x.after st)
      | .error message => .error message := by
  simp only [outcome, after, bind_apply]
  cases x st <;> rfl

/-- A sequence comes to a value if its first step does, and the second does after it. -/
theorem outcome_bind_eq_ok {x : Run α} {f : α → Run β} {st : EngineState} {b : β} :
    (x >>= f).outcome st = .ok b ↔
      ∃ a, x.outcome st = .ok a ∧ (f a).outcome (x.after st) = .ok b := by
  rw [outcome_bind]
  cases x.outcome st <;> simp

theorem outcome_eq_ok {x : Run α} {st : EngineState} {a : α} :
    x.outcome st = .ok a ↔ ∃ st', x st = .ok a st' := by
  unfold outcome
  cases x st <;> simp

theorem outcome_eq_error {x : Run α} {st : EngineState} {message : Panic} :
    x.outcome st = .error message ↔ ∃ st', x st = .error message st' := by
  unfold outcome
  cases x st <;> simp

/-- The second part of a sequence starts where the first one ends, unless that fails. -/
theorem after_bind (x : Run α) (f : α → Run β) (st : EngineState) :
    (x >>= f).after st =
      match x.outcome st with
      | .ok a => (f a).after (x.after st)
      | .error _ => x.after st := by
  simp only [outcome, after, bind_apply]
  cases x st <;> rfl

/-! ### What steps ask for -/

/-- A step leaves the scheduler alone. -/
def Quiet (x : Run α) : Prop := ∀ st, (x.after st).scheduler = st.scheduler

/-- A step changes the scheduler by calls alone, which come from some delays and timers,
    and whose tasks weigh no more than a bound all together. -/
def Asks (bodies : List ActionBody) (bound : Nat) (x : Run α) : Prop :=
  ∀ st, ∃ calls, (x.after st).scheduler = st.scheduler.performAll calls ∧
    callsWeight workshop calls ≤ bound ∧ ∀ c ∈ calls, c.From bodies

/-! ### Sequences of steps -/

section Sequence

variable {n m : Nat} {bodies more : List ActionBody} {x : Run α} {f : α → Run β}

theorem Quiet.bind (hx : Quiet x) (hf : ∀ a, Quiet (f a)) : Quiet (x >>= f) := by
  intro st
  rw [after_bind]
  cases x.outcome st with
  | ok a => exact (hf a (x.after st)).trans (hx st)
  | error message => exact hx st

theorem Quiet.asks (hx : Quiet x) : Asks bodies n x := fun st => ⟨[], hx st, Nat.zero_le n, by simp⟩

/-- A sequence asks for what its steps ask for. -/
theorem Asks.bind (hx : Asks bodies n x) (hf : ∀ a, Asks more m (f a)) :
    Asks (bodies ++ more) (n + m) (x >>= f) := by
  intro st
  obtain ⟨calls, hcalls, hweight, hfrom⟩ := hx st
  rw [after_bind]
  cases x.outcome st with
  | ok a =>
    obtain ⟨calls', hcalls', hweight', hfrom'⟩ := hf a (x.after st)
    refine ⟨calls ++ calls', ?_, ?_, fun c hc => ?_⟩
    · rw [hcalls', hcalls, Scheduler.performAll_append]
    · rw [callsWeight_append]
      exact Nat.add_le_add hweight hweight'
    · rcases List.mem_append.mp hc with hc | hc
      · exact (hfrom c hc).mono (List.subset_append_left _ _)
      · exact (hfrom' c hc).mono (List.subset_append_right _ _)
  | error message =>
    refine ⟨calls, hcalls, Nat.le_add_right_of_le hweight, fun c hc => ?_⟩
    exact (hfrom c hc).mono (List.subset_append_left _ _)

theorem Asks.mono (hx : Asks bodies n x) (hsub : bodies ⊆ more) (hle : n ≤ m) : Asks more m x := by
  intro st
  obtain ⟨calls, hcalls, hweight, hfrom⟩ := hx st
  exact ⟨calls, hcalls, Nat.le_trans hweight hle, fun c hc => (hfrom c hc).mono hsub⟩

/-- A quiet step may come first, or last. -/
theorem Quiet.bind_asks (hx : Quiet x) (hf : ∀ a, Asks bodies n (f a)) :
    Asks bodies n (x >>= f) := by
  have hnone : Asks [] 0 x := hx.asks
  have h := hnone.bind hf
  rwa [List.nil_append, Nat.zero_add] at h

theorem Asks.bind_quiet (hx : Asks bodies n x) (hf : ∀ a, Quiet (f a)) :
    Asks bodies n (x >>= f) := by
  have hnone : ∀ a, Asks [] 0 (f a) := fun a => (hf a).asks
  have h := hx.bind hnone
  rwa [List.append_nil, Nat.add_zero] at h

theorem quiet_pure (a : α) : Quiet (pure a : Run α) := fun _ => rfl

theorem asks_pure (a : α) : Asks bodies n (pure a : Run α) := (quiet_pure a).asks

theorem quiet_throw (message : Panic) : Quiet (throw message : Run α) := fun _ => rfl

theorem quiet_get : Quiet (get : Run EngineState) := fun _ => rfl

theorem quiet_forIn {l : List α} {init : β} {g : α → β → Run (ForInStep β)}
    (hg : ∀ a b, Quiet (g a b)) : Quiet (forIn l init g) := by
  induction l generalizing init with
  | nil => exact quiet_pure init
  | cons a rest ih =>
    rw [List.forIn_cons]
    refine (hg a init).bind fun step => ?_
    cases step with
    | done b => exact quiet_pure b
    | yield b => exact ih

end Sequence

/-- Whoever acts may take a step: it is a run, in which nothing fires. -/
theorem Asks.course {n : Nat} {bodies : List ActionBody} {x : Run α} (hx : Asks bodies n x)
    {w : Workshop Work World} {m : Moment Work World} (acting : m.phase.Acting) :
    ∃ h, Course w m h { m with state := x.after m.state } ∧ h.countP Event.isFired = 0 := by
  obtain ⟨calls, hcalls, -⟩ := hx m.state
  exact Course.calls acting calls hcalls

/-! ### Steps on the world -/

theorem quiet_ask (f : World → α) : Quiet (ask f) := quiet_get.bind fun _ => quiet_pure _

theorem quiet_change (f : World → World) : Quiet (change f) := fun _ => rfl

theorem quiet_report (n : Notice) : Quiet (report n) := quiet_change _

theorem quiet_panic (message : String) : Quiet (panic message : Run α) := quiet_throw message

theorem quiet_context (c : ContextId) : Quiet (context c) := quiet_ask _

theorem quiet_changeContext (c : ContextId) (f : Context → Context) : Quiet (changeContext c f) :=
  quiet_change _

theorem quiet_roll : Quiet roll := by
  refine (quiet_ask _).bind fun dice => ?_
  exact (quiet_change _).bind fun _ => quiet_pure _

theorem quiet_call (c : PlatformCall) : Quiet (call c) := by
  refine (quiet_ask _).bind fun platform => ?_
  cases platform.fault c with
  | some message => exact quiet_panic message
  | none => exact quiet_pure _

theorem quiet_deliver (d : Delivery) : Quiet (deliver d) :=
  (quiet_call _).bind fun _ => quiet_change _

theorem quiet_message (c : ContextId) (text : String) : Quiet (message c text) := by
  refine (quiet_context c).bind fun context => ?_
  refine (quiet_forIn fun target _ => ?_).bind fun _ => quiet_pure _
  exact (quiet_deliver _).bind fun _ => quiet_pure _

theorem quiet_command (c : ContextId) (text : String) : Quiet (command c text) :=
  (quiet_context c).bind fun _ => quiet_deliver _

theorem quiet_useCooldown (subject key : String) (window : Duration) :
    Quiet (useCooldown subject key window) := by
  refine (quiet_ask _).bind fun w => ?_
  obtain ⟨left?, ledger⟩ := w.ledger.check w.clock subject key window
  cases left? with
  | some left =>
    refine (quiet_change _).bind fun _ => ?_
    exact (quiet_report _).bind fun _ => quiet_pure _
  | none => exact (quiet_change _).bind fun _ => quiet_pure _

theorem quiet_resolve (c : ContextId) (r : Reference) : Quiet (resolve c r) := by
  cases r with
  | property name => exact quiet_pure _
  | placeholder name => exact (quiet_context c).bind fun _ => quiet_call _

theorem quiet_render (c : ContextId) (t : TextTemplate) : Quiet (render c t) := by
  refine (quiet_forIn fun target _ => ?_).bind fun _ => ?_
  · exact (quiet_resolve c target).bind fun _ => quiet_pure _
  · exact (quiet_ask _).bind fun _ => quiet_pure _

theorem quiet_evaluate (c : ContextId) (f : Formula) : Quiet (evaluate c f) := by
  refine (quiet_forIn fun target _ => ?_).bind fun _ => ?_
  · refine (quiet_resolve c target).bind fun _ => ?_
    refine (quiet_ask _).bind fun scope => ?_
    split
    · exact (quiet_report _).bind fun _ => quiet_pure _
    · exact quiet_pure _
  · exact (quiet_ask _).bind fun _ => quiet_pure _

theorem quiet_guest (c : ContextId) (g : GuestId) (payload : String) :
    Quiet (guest c g payload) := by
  refine (quiet_ask _).bind fun w => ?_
  obtain ⟨result, w'⟩ := Guest.invoke w g (some c) (w.guest g).entry payload
  cases result with
  | ok code => exact (quiet_change _).bind fun _ => quiet_pure _
  | error stop =>
    cases stop with
    | panicked message => exact (quiet_change _).bind fun _ => quiet_panic message
    | trapped cause =>
      refine (quiet_change _).bind fun _ => ?_
      exact (quiet_report _).bind fun _ => quiet_pure _
    | outOfFuel =>
      refine (quiet_change _).bind fun _ => ?_
      exact (quiet_report _).bind fun _ => quiet_pure _

/-! ### Calls of the scheduler -/

theorem asks_schedule {bodies : List ActionBody} {delay : Nat} {task : Work}
    (hfrom : Call.From bodies (.schedule delay task)) :
    Asks bodies task.weight (schedule delay task) :=
  fun _ => ⟨[.schedule delay task], rfl, Nat.le_refl _, by simpa using hfrom⟩

theorem asks_scheduleRepeating {bodies : List ActionBody} {initial period : Nat} {task : Work}
    (hfrom : Call.From bodies (.scheduleRepeating initial period task)) :
    Asks bodies task.weight (scheduleRepeating initial period task) :=
  fun _ => ⟨[.scheduleRepeating initial period task], rfl, Nat.le_refl _, by simpa using hfrom⟩

theorem asks_cancel {bodies : List ActionBody} (id : TaskId) : Asks bodies 0 (cancel id) :=
  fun _ => ⟨[.cancel id], rfl, Nat.le_refl _, by simpa using Call.From.cancel⟩

end Run

open Run

/-! ### Rules -/

theorem Procedure.run_quiet {α : Type} (c : ContextId) (p : Procedure α) : Quiet (p.run c) := by
  induction p with
  | done result => exact quiet_pure result
  | fail message => exact quiet_panic message
  | subject next ih => exact (quiet_context c).bind fun _ => ih _
  | read key next ih => exact (quiet_context c).bind fun _ => ih _
  | write key value next ih => exact (quiet_changeContext c _).bind fun _ => ih
  | setTargets targets next ih => exact (quiet_changeContext c _).bind fun _ => ih
  | deliver delivery next ih => exact (quiet_deliver delivery).bind fun _ => ih
  | roll next ih => exact quiet_roll.bind fun _ => ih _
  | useCooldown key window next ih =>
    refine (quiet_context c).bind fun context => ?_
    exact (quiet_useCooldown _ _ _).bind fun _ => ih _

theorem Operand.number_quiet (c : ContextId) (o : Operand) : Quiet (o.number c) := by
  unfold Operand.number
  cases o.number? with
  | none => exact quiet_pure _
  | some f => exact (quiet_evaluate c f).bind fun _ => quiet_pure _

theorem sidesEqual_quiet (c : ContextId) (left right : Operand) :
    Quiet (sidesEqual c left right) := by
  refine (left.number_quiet c).bind fun x? => ?_
  refine (right.number_quiet c).bind fun y? => ?_
  have htexts : Quiet (do
      let s ← Run.render c left.text
      let t ← Run.render c right.text
      return s == t) := by
    refine (quiet_render c _).bind fun s => ?_
    exact (quiet_render c _).bind fun t => quiet_pure _
  cases x? with
  | none => exact htexts
  | some x =>
    cases y? with
    | none => exact htexts
    | some y => exact quiet_pure _

theorem cooldownAdmits_quiet (c : ContextId) (key : TextTemplate) (window : Formula)
    (unit : Float) : Quiet (cooldownAdmits c key window unit) := by
  refine (quiet_evaluate c window).bind fun x => ?_
  dsimp only
  split
  · refine (quiet_render c key).bind fun name => ?_
    refine (quiet_context c).bind fun context => ?_
    exact (quiet_useCooldown _ _ _).bind fun _ => quiet_pure _
  · exact (quiet_report _).bind fun _ => quiet_pure _

theorem Payload.render_quiet (c : ContextId) (p : Payload) : Quiet (p.render c) := by
  cases p with
  | text template => exact quiet_render c template
  | json value => exact quiet_pure value

theorem Action.admitted_quiet (c : ContextId) (typeKey : String) (chance : Formula) :
    Quiet (Action.admitted c typeKey chance) := by
  unfold Action.admitted
  split
  · exact quiet_pure _
  refine (quiet_evaluate c chance).bind fun limit => ?_
  split
  · exact quiet_pure _
  refine quiet_roll.bind fun roll => ?_
  split
  · exact quiet_pure _
  · exact (quiet_report _).bind fun _ => quiet_pure _

/-! The calls of a rule come from the delays and timers of its tree, and weigh no more than
the rule does.  The induction follows the tree, in which the actions of delays and timers
stand although they run later. -/

mutual

theorem Action.trigger_asks (c : ContextId) (a : Action) :
    Asks a.deferrals a.weight (a.trigger c) := by
  cases a with
  | mk typeKey chance body =>
    rw [Action.trigger, Action.weight, Action.deferrals]
    refine (Action.admitted_quiet c typeKey chance).bind_asks fun admitted => ?_
    cases admitted with
    | true => exact ActionBody.run_asks c body
    | false => exact asks_pure _

/-- The body of an action schedules its own delays and timers, and no more than its weight. -/
theorem ActionBody.run_asks (c : ContextId) (body : ActionBody) :
    Asks body.deferrals body.weight (body.run c) := by
  cases body with
  | idle => rw [ActionBody.run]; exact asks_pure _
  | chain actions =>
    rw [ActionBody.run, ActionBody.weight, ActionBody.deferrals]
    exact triggerAll_asks c actions
  | delay delay mode actions =>
    rw [ActionBody.run, ActionBody.weight, ActionBody.deferrals, Nat.add_comm]
    have hcall : Call.From _ (.schedule delay (.actions mode c actions)) :=
      .continuation (List.mem_cons_self (l := actionsDeferrals actions))
    exact (asks_schedule hcall).bind_quiet fun _ => quiet_report _
  | timer delay period duration mode actions =>
    rw [ActionBody.run, ActionBody.weight, ActionBody.deferrals]
    have hown := List.mem_cons_self (a := ActionBody.timer delay period duration mode actions)
      (l := actionsDeferrals actions)
    have hsecond : ∀ task : TaskId, Asks _ _ (do
        let _ ← schedule duration (.cancel task)
        report (.timerStarted task period duration)) := fun task =>
      (asks_schedule (.canceller hown)).bind_quiet fun _ => quiet_report _
    -- both calls come from the timer, of which one copy is enough
    refine ((asks_scheduleRepeating (.firing (c := c) hown)).bind hsecond).mono ?_ ?_
    · exact List.append_subset.mpr ⟨List.Subset.refl _, List.Subset.refl _⟩
    · simp only [Work.weight]
      omega
  | conditional conditions actions =>
    rw [ActionBody.run, ActionBody.weight, ActionBody.deferrals]
    refine (allMet_asks c false conditions).bind fun met => ?_
    cases met with
    | true => exact triggerAll_asks c actions
    | false => exact asks_pure _
  | priority branches =>
    rw [ActionBody.run, ActionBody.weight, ActionBody.deferrals]
    exact takeBranch_asks c branches
  | message text =>
    rw [ActionBody.run]
    exact ((quiet_render c text).bind fun text => quiet_message c text).asks
  | command text =>
    rw [ActionBody.run]
    exact ((quiet_render c text).bind fun text => quiet_command c text).asks
  | set key value =>
    rw [ActionBody.run]
    exact ((quiet_render c value).bind fun text => quiet_changeContext c _).asks
  | guest id payload =>
    rw [ActionBody.run]
    refine ((payload.render_quiet c).bind fun text => ?_).asks
    exact (quiet_guest c id text).bind fun _ => quiet_pure _
  | custom procedure => rw [ActionBody.run]; exact (procedure.run_quiet c).asks

theorem triggerAll_asks (c : ContextId) (actions : List Action) :
    Asks (actionsDeferrals actions) (actionsWeight actions) (triggerAll c actions) := by
  cases actions with
  | nil => rw [triggerAll]; exact asks_pure _
  | cons a rest =>
    rw [triggerAll, actionsWeight, actionsDeferrals]
    exact (Action.trigger_asks c a).bind fun _ => triggerAll_asks c rest

theorem takeBranch_asks (c : ContextId) (branches : List Branch) :
    Asks (branchesDeferrals branches) (branchesWeight branches) (takeBranch c branches) := by
  cases branches with
  | nil => rw [takeBranch]; exact asks_pure _
  | cons b rest =>
    rw [takeBranch, branchesWeight, branchesDeferrals]
    refine (Branch.attempt_asks c b).bind fun taken => ?_
    cases taken with
    | true => exact asks_pure _
    | false => exact takeBranch_asks c rest

theorem Branch.attempt_asks (c : ContextId) (b : Branch) :
    Asks b.deferrals b.weight (b.attempt c) := by
  cases b with
  | mk name conditions actions =>
    rw [Branch.attempt, Branch.weight, Branch.deferrals]
    refine (allMet_asks c false conditions).bind fun met => ?_
    cases met with
    | true =>
      refine (quiet_report _).bind_asks fun _ => ?_
      exact (triggerAll_asks c actions).bind_quiet fun _ => quiet_pure _
    | false => exact asks_pure _

theorem Requirement.isMet_asks (c : ContextId) (sideEffects : Bool) (r : Requirement) :
    Asks r.deferrals r.weight (r.isMet c sideEffects) := by
  cases r with
  | mk typeKey body notMet =>
    rw [Requirement.isMet, Requirement.weight, Requirement.deferrals]
    refine (RequirementBody.check_asks c sideEffects body).bind fun met => ?_
    split
    · refine (quiet_report _).bind_asks fun _ => ?_
      exact (triggerAll_asks c notMet).bind_quiet fun _ => quiet_pure _
    · exact asks_pure _

theorem RequirementBody.check_asks (c : ContextId) (sideEffects : Bool) (body : RequirementBody) :
    Asks body.deferrals body.weight (body.check c sideEffects) := by
  cases body with
  | idle => rw [RequirementBody.check]; exact asks_pure _
  | all requirements =>
    rw [RequirementBody.check, RequirementBody.weight, RequirementBody.deferrals]
    exact allMet_asks c sideEffects requirements
  | any requirements =>
    rw [RequirementBody.check, RequirementBody.weight, RequirementBody.deferrals]
    exact anyMet_asks c requirements
  | not requirement =>
    rw [RequirementBody.check, RequirementBody.weight, RequirementBody.deferrals]
    exact (Requirement.isMet_asks c false requirement).bind_quiet fun _ => quiet_pure _
  | equality negated left right =>
    rw [RequirementBody.check]
    exact ((sidesEqual_quiet c left right).bind fun _ => quiet_pure _).asks
  | comparison relation left right =>
    rw [RequirementBody.check]
    refine ((quiet_evaluate c left).bind fun x => ?_).asks
    exact (quiet_evaluate c right).bind fun y => quiet_pure _
  | cooldown key window unit =>
    rw [RequirementBody.check]
    exact (cooldownAdmits_quiet c key window unit).asks
  | chance probability =>
    rw [RequirementBody.check]
    refine (quiet_roll.bind fun roll => ?_).asks
    exact (quiet_evaluate c probability).bind fun _ => quiet_pure _
  | guest id payload =>
    rw [RequirementBody.check]
    refine ((payload.render_quiet c).bind fun text => ?_).asks
    exact (quiet_guest c id text).bind fun _ => quiet_pure _
  | custom procedure =>
    rw [RequirementBody.check]
    exact ((procedure sideEffects).run_quiet c).asks

/-- Requirements schedule only what their not-met actions defer. -/
theorem allMet_asks (c : ContextId) (sideEffects : Bool) (requirements : List Requirement) :
    Asks (requirementsDeferrals requirements) (requirementsWeight requirements)
      (allMet c sideEffects requirements) := by
  cases requirements with
  | nil => rw [allMet]; exact asks_pure _
  | cons r rest =>
    rw [allMet, requirementsWeight, requirementsDeferrals]
    refine (Requirement.isMet_asks c sideEffects r).bind fun met => ?_
    cases met with
    | true => exact allMet_asks c sideEffects rest
    | false => exact asks_pure _

theorem anyMet_asks (c : ContextId) (requirements : List Requirement) :
    Asks (requirementsDeferrals requirements) (requirementsWeight requirements)
      (anyMet c requirements) := by
  cases requirements with
  | nil => rw [anyMet]; exact asks_pure _
  | cons r rest =>
    rw [anyMet, requirementsWeight, requirementsDeferrals]
    refine (Requirement.isMet_asks c false r).bind fun met => ?_
    cases met with
    | true => exact asks_pure _
    | false => exact anyMet_asks c rest

end

/-! ### Tasks -/

def Work.deferrals : Work → List ActionBody
  | actions _ _ list => actionsDeferrals list
  | cancel _ => []

theorem Work.weight_pos (work : Work) : 0 < work.weight := by
  cases work <;> simp [Work.weight]

/-- What a task asks for weighs less than the task. -/
theorem Work.run_asks (work : Work) : Asks work.deferrals (work.weight - 1) work.run := by
  cases work with
  | actions mode c list =>
    rw [Work.run, Work.weight, Nat.add_sub_cancel_left]
    exact triggerAll_asks c list
  | cancel task =>
    rw [Work.run]
    exact (asks_cancel task).bind_quiet fun _ => quiet_pure _

theorem Work.perform_scheduler (id : TaskId) (work : Work) (st : EngineState) :
    (work.perform id st).scheduler = (Run.after work.run st).scheduler := by
  unfold Work.perform Run.after
  cases work.run st <;> rfl

/-- Tasks of an engine use the scheduler by its calls alone. -/
theorem workshop_calling : workshop.Calling := by
  intro id work st
  obtain ⟨calls, hcalls, -⟩ := work.run_asks st
  exact ⟨calls, (work.perform_scheduler id st).trans hcalls⟩

/-- **Every tick of an engine that returns is a run**, with as many firings as it says. -/
theorem workshop_tick (st : EngineState) (returned : (st.tick workshop).2.Drained) :
    ∃ h, Course workshop ⟨st, .between⟩ h ⟨(st.tick workshop).2, .between⟩ ∧
      h.countP Event.isFired = (st.tick workshop).1 :=
  Course.tick workshop_calling st returned

end RuleEngine
