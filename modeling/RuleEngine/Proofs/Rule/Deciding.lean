/-
  RuleEngine/Proofs/Rule/Deciding.lean
  ====================================
  **Deciding has no other effect.**

  A step that decides (`Run.Deciding`) uses cooldowns, draws rolls and reports, and leaves
  everything else as it is: the scheduler, the contexts, the guests and what was asked of the
  platform.  Nor does it try to ask: it goes the same way on a platform that answers
  deliveries in any other manner, so not even a delivery that fails is behind it.

  A requirement of the built-in types is such a step as long as no not-met action can run
  (`Requirement.deciding_silenced`).  None can where side effects are off, since every
  combinator hands that on to its members, and none is there at all in what was compiled
  with side effects off (`compileRequirement_decides`).  So a conditional decides before it
  acts, and so does a list of branches.
-/
import RuleEngine.Proofs.Rule.Deferring
import RuleEngine.Proofs.Rule.NotMet
import RuleEngine.Proofs.Rule.Spelling

namespace RuleEngine

/-! ### Other answers to deliveries -/

/-- The platform with other answers to what it is asked to deliver. -/
def Platform.answering (p : Platform) (answer : Delivery → Option Panic) : Platform :=
  { p with fault := fun
      | .deliver delivery => answer delivery
      | .placeholder subject name => p.fault (.placeholder subject name) }

def World.answering (w : World) (answer : Delivery → Option Panic) : World :=
  { w with platform := w.platform.answering answer }

namespace Run

variable {α β : Type}

def answering (answer : Delivery → Option Panic) (st : EngineState) : EngineState :=
  { st with world := st.world.answering answer }

/-! ### Steps that decide -/

/-- A state is another one but for the cooldowns, the dice and the notices. -/
structure Spares (st st' : EngineState) : Prop where
  scheduler : st'.scheduler = st.scheduler
  platform : st'.world.platform = st.world.platform
  contexts : st'.world.contexts = st.world.contexts
  clock : st'.world.clock = st.world.clock
  guests : st'.world.guests = st.world.guests
  deliveries : st'.world.deliveries = st.world.deliveries

theorem Spares.rfl {st : EngineState} : Spares st st :=
  ⟨Eq.refl _, Eq.refl _, Eq.refl _, Eq.refl _, Eq.refl _, Eq.refl _⟩

/-- What two steps spare after one another is spared. -/
theorem Spares.trans {st st' st'' : EngineState} (h : Spares st st') (h' : Spares st' st'') :
    Spares st st'' where
  scheduler := h'.scheduler.trans h.scheduler
  platform := h'.platform.trans h.platform
  contexts := h'.contexts.trans h.contexts
  clock := h'.clock.trans h.clock
  guests := h'.guests.trans h.guests
  deliveries := h'.deliveries.trans h.deliveries

/-- A step changes nothing but the cooldowns, the dice and the notices, and goes the same way
    whatever the platform would answer to a delivery. -/
structure Deciding (x : Run α) : Prop where
  spares : ∀ st, Spares st (x.after st)
  outcome : ∀ answer st, x.outcome (answering answer st) = x.outcome st
  after : ∀ answer st, x.after (answering answer st) = answering answer (x.after st)

section Deciding

variable {x : Run α} {f : α → Run β}

theorem Deciding.bind (hx : Deciding x) (hf : ∀ a, Deciding (f a)) : Deciding (x >>= f) := by
  constructor
  · intro st
    rw [after_bind]
    cases x.outcome st with
    | ok a => exact (hx.spares st).trans ((hf a).spares _)
    | error message => exact hx.spares st
  · intro answer st
    rw [outcome_bind, outcome_bind, hx.outcome, hx.after]
    cases x.outcome st with
    | ok a => exact (hf a).outcome answer _
    | error message => rfl
  · intro answer st
    rw [after_bind, after_bind, hx.outcome, hx.after]
    cases x.outcome st with
    | ok a => exact (hf a).after answer _
    | error message => rfl

theorem deciding_pure (a : α) : Deciding (pure a : Run α) :=
  ⟨fun _ => .rfl, fun _ _ => rfl, fun _ _ => rfl⟩

/-- Looking at the world decides if the answers to deliveries are not looked at. -/
theorem deciding_ask {g : World → α} (hg : ∀ answer w, g (w.answering answer) = g w) :
    Deciding (ask g) :=
  ⟨fun _ => .rfl, fun answer st => congrArg Except.ok (hg answer st.world), fun _ _ => rfl⟩

theorem deciding_report (n : Notice) : Deciding (report n) :=
  ⟨fun _ => ⟨rfl, rfl, rfl, rfl, rfl, rfl⟩, fun _ _ => rfl, fun _ _ => rfl⟩

theorem deciding_roll : Deciding roll :=
  ⟨fun _ => ⟨rfl, rfl, rfl, rfl, rfl, rfl⟩, fun _ _ => rfl, fun _ _ => rfl⟩

theorem deciding_context (c : ContextId) : Deciding (context c) := deciding_ask fun _ _ => rfl

theorem deciding_scope (c : ContextId) : Deciding (ask (·.scope c)) := deciding_ask fun _ _ => rfl

theorem deciding_placeholder (subject : Subject) (name : String) :
    Deciding (call (.placeholder subject name)) := by
  have hsame : ∀ answer st,
      (answering answer st).world.platform.fault (.placeholder subject name) =
        st.world.platform.fault (.placeholder subject name) := fun _ _ => rfl
  constructor
  · intro st
    unfold Run.after
    cases hfault : st.world.platform.fault (.placeholder subject name) with
    | some message => rw [call_of_fault hfault]; exact .rfl
    | none => rw [call_of_no_fault hfault]; exact .rfl
  · intro answer st
    unfold Run.outcome
    cases hfault : st.world.platform.fault (.placeholder subject name) with
    | some message => rw [call_of_fault hfault, call_of_fault ((hsame answer st).trans hfault)]
    | none => rw [call_of_no_fault hfault, call_of_no_fault ((hsame answer st).trans hfault)]
  · intro answer st
    unfold Run.after
    cases hfault : st.world.platform.fault (.placeholder subject name) with
    | some message => rw [call_of_fault hfault, call_of_fault ((hsame answer st).trans hfault)]
    | none => rw [call_of_no_fault hfault, call_of_no_fault ((hsame answer st).trans hfault)]

theorem ask_apply {g : World → α} (st : EngineState) : ask g st = .ok (g st.world) st := rfl

theorem deciding_ledger (ledger : Ledger) : Deciding (change ({ · with ledger })) :=
  ⟨fun _ => ⟨rfl, rfl, rfl, rfl, rfl, rfl⟩, fun _ _ => rfl, fun _ _ => rfl⟩

theorem deciding_useCooldown (subject key : String) (window : Duration) :
    Deciding (useCooldown subject key window) := by
  -- of the world it only looks at the ledger and the clock
  have heq : useCooldown subject key window = (do
      let used ← ask fun w => w.ledger.check w.clock subject key window
      change ({ · with ledger := used.2 })
      used.1.elim (pure false) fun left => do
        report (.coolingDown subject key left)
        return true) := by
    funext st
    unfold useCooldown
    simp only [bind_apply, ask_apply, id_eq]
    rcases st.world.ledger.check st.world.clock subject key window with ⟨_ | left, ledger⟩ <;> rfl
  rw [heq]
  refine (deciding_ask fun _ _ => rfl).bind fun used => (deciding_ledger used.2).bind fun _ => ?_
  cases used.1 with
  | none => exact deciding_pure false
  | some left => exact (deciding_report _).bind fun _ => deciding_pure true

theorem deciding_forIn {l : List α} {init : β} {g : α → β → Run (ForInStep β)}
    (hg : ∀ a b, Deciding (g a b)) : Deciding (forIn l init g) := by
  induction l generalizing init with
  | nil => exact deciding_pure init
  | cons a rest ih =>
    rw [List.forIn_cons]
    refine (hg a init).bind fun step => ?_
    cases step with
    | done b => exact deciding_pure b
    | yield b => exact ih

theorem deciding_resolve (c : ContextId) (target : Reference) : Deciding (resolve c target) := by
  cases target with
  | property key => exact deciding_pure _
  | placeholder name => exact (deciding_context c).bind fun _ => deciding_placeholder _ name

theorem deciding_render (c : ContextId) (t : TextTemplate) : Deciding (render c t) := by
  refine (deciding_forIn fun target _ => ?_).bind fun _ => ?_
  · exact (deciding_resolve c target).bind fun _ => deciding_pure _
  · exact (deciding_scope c).bind fun _ => deciding_pure _

theorem deciding_evaluate (c : ContextId) (f : Formula) : Deciding (evaluate c f) := by
  refine (deciding_forIn fun target _ => ?_).bind fun _ => ?_
  · refine (deciding_resolve c target).bind fun _ => ?_
    refine (deciding_scope c).bind fun scope => ?_
    split
    · exact (deciding_report _).bind fun _ => deciding_pure _
    · exact deciding_pure _
  · exact (deciding_scope c).bind fun _ => deciding_pure _

end Deciding

end Run

open Run

/-! ### Leaves -/

theorem Operand.deciding_number (c : ContextId) (o : Operand) : Deciding (o.number c) := by
  unfold Operand.number
  cases o.number? with
  | none => exact deciding_pure _
  | some f => exact (deciding_evaluate c f).bind fun _ => deciding_pure _

theorem deciding_sidesEqual (c : ContextId) (left right : Operand) :
    Deciding (sidesEqual c left right) := by
  refine (left.deciding_number c).bind fun x? => ?_
  refine (right.deciding_number c).bind fun y? => ?_
  have htexts : Deciding (do
      let s ← Run.render c left.text
      let t ← Run.render c right.text
      return s == t) := by
    refine (deciding_render c _).bind fun s => ?_
    exact (deciding_render c _).bind fun t => deciding_pure _
  cases x? with
  | none => exact htexts
  | some x =>
    cases y? with
    | none => exact htexts
    | some y => exact deciding_pure _

theorem deciding_cooldownAdmits (c : ContextId) (key : TextTemplate) (window : Formula)
    (unit : Float) : Deciding (cooldownAdmits c key window unit) := by
  refine (deciding_evaluate c window).bind fun x => ?_
  dsimp only
  split
  · refine (deciding_render c key).bind fun name => ?_
    refine (deciding_context c).bind fun context => ?_
    exact (deciding_useCooldown _ _ _).bind fun _ => deciding_pure _
  · exact (deciding_report _).bind fun _ => deciding_pure _

/-! ### Requirements of the built-in types -/

mutual

/-- The requirement decides by the built-in types alone, at any depth.  Its not-met actions
    may be any. -/
def Requirement.BuiltIn : Requirement → Prop
  | .mk _ body _ => body.BuiltIn

def RequirementBody.BuiltIn : RequirementBody → Prop
  | .all requirements => requirementsBuiltIn requirements
  | .any requirements => requirementsBuiltIn requirements
  | .not requirement => requirement.BuiltIn
  | .guest _ _ => False
  | .custom _ => False
  | _ => True

def requirementsBuiltIn : List Requirement → Prop
  | [] => True
  | r :: rest => r.BuiltIn ∧ requirementsBuiltIn rest

end

mutual

/-- Without not-met actions a requirement of the built-in types decides. -/
theorem Requirement.deciding_silenced (c : ContextId) (sideEffects : Bool) {r : Requirement}
    (h : r.BuiltIn) : Deciding (r.silenced.isMet c sideEffects) := by
  cases r with
  | mk typeKey body notMet =>
    rw [Requirement.silenced_isMet]
    exact RequirementBody.deciding_silenced c sideEffects h

/-- A built-in body, its not-met actions aside, changes nothing but cooldowns, dice and notices. -/
theorem RequirementBody.deciding_silenced (c : ContextId) (sideEffects : Bool)
    {body : RequirementBody} (h : body.BuiltIn) :
    Deciding (body.silenced.check c sideEffects) := by
  cases body with
  | idle =>
    change Deciding (RequirementBody.check c sideEffects .idle)
    rw [RequirementBody.check]
    exact deciding_pure false
  | all requirements =>
    rw [RequirementBody.silenced, RequirementBody.check]
    exact allMet_deciding c sideEffects h
  | any requirements =>
    rw [RequirementBody.silenced, RequirementBody.check]
    exact anyMet_deciding c h
  | not requirement =>
    rw [RequirementBody.silenced, RequirementBody.check]
    exact (Requirement.deciding_silenced c false h).bind fun _ => deciding_pure _
  | equality negated left right =>
    change Deciding (RequirementBody.check c sideEffects (.equality negated left right))
    rw [RequirementBody.check]
    exact (deciding_sidesEqual c left right).bind fun _ => deciding_pure _
  | comparison relation left right =>
    change Deciding (RequirementBody.check c sideEffects (.comparison relation left right))
    rw [RequirementBody.check]
    refine (deciding_evaluate c left).bind fun x => ?_
    exact (deciding_evaluate c right).bind fun y => deciding_pure _
  | cooldown key window unit =>
    change Deciding (RequirementBody.check c sideEffects (.cooldown key window unit))
    rw [RequirementBody.check]
    exact deciding_cooldownAdmits c key window unit
  | chance probability =>
    change Deciding (RequirementBody.check c sideEffects (.chance probability))
    rw [RequirementBody.check]
    refine deciding_roll.bind fun roll => ?_
    exact (deciding_evaluate c probability).bind fun _ => deciding_pure _
  | guest id payload => exact h.elim
  | custom procedure => exact h.elim

/-- So do built-in requirements, one after another. -/
theorem allMet_deciding (c : ContextId) (sideEffects : Bool) {requirements : List Requirement}
    (h : requirementsBuiltIn requirements) :
    Deciding (allMet c sideEffects (silenceAll requirements)) := by
  cases requirements with
  | nil => exact deciding_pure true
  | cons r rest =>
    rw [silenceAll, allMet]
    refine (Requirement.deciding_silenced c sideEffects h.1).bind fun met => ?_
    cases met with
    | true => exact allMet_deciding c sideEffects h.2
    | false => exact deciding_pure false

theorem anyMet_deciding (c : ContextId) {requirements : List Requirement}
    (h : requirementsBuiltIn requirements) : Deciding (anyMet c (silenceAll requirements)) := by
  cases requirements with
  | nil => exact deciding_pure false
  | cons r rest =>
    rw [silenceAll, anyMet]
    refine (Requirement.deciding_silenced c false h.1).bind fun met => ?_
    cases met with
    | true => exact deciding_pure true
    | false => exact anyMet_deciding c h.2

end

/-! ### What requirements compile to -/

/-- A maker that makes requirements of a guest or of the application does not count. -/
def Maker.BuiltIn : Maker → Prop
  | .guestRequirement _ | .customRequirement _ => False
  | _ => True

/-- All types of requirements are built in. -/
def Registry.BuiltIn (r : Registry) : Prop :=
  ∀ typeKey factory, r.lookup? typeKey = some factory → factory.maker.BuiltIn

/-- The requirement is of the built-in types if the registry is, and it has no not-met actions,
    its own or further down, where none are asked for. -/
structure Requirement.Fits (r : Registry) (sideEffects : Bool) (q : Requirement) : Prop where
  builtIn : r.BuiltIn → q.BuiltIn
  silent : sideEffects = false → q.silenced = q

structure RequirementBody.Fits (r : Registry) (sideEffects : Bool) (body : RequirementBody) :
    Prop where
  builtIn : r.BuiltIn → body.BuiltIn
  silent : sideEffects = false → body.silenced = body

structure RequirementsFit (r : Registry) (sideEffects : Bool) (requirements : List Requirement) :
    Prop where
  builtIn : r.BuiltIn → requirementsBuiltIn requirements
  silent : sideEffects = false → silenceAll requirements = requirements

section Fits

variable {r : Registry} {sideEffects : Bool}

theorem Requirement.fits_disabled (typeKey : String) :
    (Requirement.disabled typeKey).Fits r sideEffects :=
  ⟨fun _ => trivial, fun _ => rfl⟩

theorem RequirementBody.Fits.all {requirements : List Requirement}
    (h : RequirementsFit r sideEffects requirements) :
    (RequirementBody.all requirements).Fits r sideEffects :=
  ⟨h.builtIn, fun hflag => by rw [RequirementBody.silenced, h.silent hflag]⟩

/-- The members of a disjunction are compiled without their not-met actions, and so is what
    is negated. -/
theorem RequirementBody.Fits.any {requirements : List Requirement}
    (h : RequirementsFit r false requirements) :
    (RequirementBody.any requirements).Fits r sideEffects :=
  ⟨h.builtIn, fun _ => by rw [RequirementBody.silenced, h.silent rfl]⟩

theorem RequirementBody.Fits.not {q : Requirement} (h : q.Fits r false) :
    (RequirementBody.not q).Fits r sideEffects :=
  ⟨h.builtIn, fun _ => by rw [RequirementBody.silenced, h.silent rfl]⟩

end Fits

open Compile Make

mutual

/-- Requirements are compiled to what fits the flag that they are compiled with. -/
theorem compileRequirement_fits (r : Registry) (sideEffects : Bool) (node : Node) :
    Compile.Returns (Requirement.Fits r sideEffects) (compileRequirement r sideEffects node) := by
  match node with
  | .scalar s =>
    rw [compileRequirement_of_not_map (by simp [Node.shape])]
    exact returns_bind fun _ => returns_pure (Requirement.fits_disabled "?")
  | .list items =>
    rw [compileRequirement_of_not_map (by simp [Node.shape])]
    exact returns_bind fun _ => returns_pure (Requirement.fits_disabled "?")
  | .map entries =>
    rw [compileRequirement]
    have hfound : Compile.Returns
        (fun found => ∀ typeKey f, found = .ok (typeKey, f) → r.lookup? typeKey = some f)
        (Compile.findFactory r .requirement (.map entries)) :=
      fun w typeKey f h => (Compile.of_findFactory h).2.1
    refine hfound.bind fun found hlookup => ?_
    cases found with
    | error typeKey => exact returns_pure (Requirement.fits_disabled typeKey)
    | ok found =>
      obtain ⟨typeKey, factory⟩ := found
      dsimp only
      have hmaker : r.BuiltIn → factory.maker.BuiltIn := fun h => h _ _ (hlookup _ _ rfl)
      have hmade := makeRequirement_fits r sideEffects factory.maker hmaker
        ((Node.map entries).valueOf "value")
      refine Compile.Returns.bind hmade.run fun made hbody => ?_
      cases made with
      | error refusal =>
        exact returns_bind fun _ => returns_pure (Requirement.fits_disabled typeKey)
      | ok body =>
        have hfits := hbody body rfl
        cases sideEffects with
        | true => exact returns_bind fun notMet => returns_pure ⟨hfits.builtIn, nofun⟩
        | false =>
          refine returns_pure ⟨hfits.builtIn, fun hflag => ?_⟩
          rw [Requirement.silenced, hfits.silent hflag]
termination_by (node.size, 2)
decreasing_by
  all_goals exact Prod.Lex.left _ _ (Node.size_valueOf_lt _ _)

theorem makeRequirement_fits (r : Registry) (sideEffects : Bool) (maker : Maker)
    (hmaker : r.BuiltIn → maker.BuiltIn) (value : Node) :
    Make.Returns (RequirementBody.Fits r sideEffects)
      (makeRequirement r sideEffects maker value) := by
  match maker with
  | .requirement .all =>
    rw [makeRequirement]
    exact (returns_lift (compileRequirements_fits r sideEffects value)).bind
      fun requirements h => Make.returns_pure (.all h)
  | .requirement .any =>
    rw [makeRequirement]
    exact (returns_lift (compileRequirements_fits r false value)).bind
      fun requirements h => Make.returns_pure (.any h)
  | .requirement .not =>
    rw [makeRequirement]
    refine (returns_lift (compileRequirement_fits r false value)).bind fun inner h => ?_
    dsimp only
    split
    · exact Make.returns_bind fun _ => Make.returns_pure (.not h)
    · exact Make.returns_pure (.not h)
  | .requirement (.equal negated) =>
    rw [makeRequirement]
    exact Make.returns_bind fun _ => Make.returns_pure ⟨fun _ => trivial, fun _ => rfl⟩
  | .requirement (.compare relation) =>
    rw [makeRequirement]
    refine Make.returns_bind fun _ => Make.returns_bind fun _ => Make.returns_bind fun _ => ?_
    exact Make.returns_pure ⟨fun _ => trivial, fun _ => rfl⟩
  | .requirement .cooldown =>
    rw [makeRequirement]
    refine returns_ofExcept fun body hcooldown => ?_
    obtain ⟨key, window, unit, rfl⟩ := CompileError.eq_cooldown_of_cooldown hcooldown
    exact ⟨fun _ => trivial, fun _ => rfl⟩
  | .requirement .chance =>
    rw [makeRequirement]
    exact Make.returns_bind fun _ => Make.returns_pure ⟨fun _ => trivial, fun _ => rfl⟩
  | .guestRequirement id =>
    rw [makeRequirement]
    exact Make.returns_bind fun _ => Make.returns_pure ⟨fun h => (hmaker h).elim, fun _ => rfl⟩
  | .customRequirement make =>
    rw [makeRequirement]
    cases make value sideEffects with
    | ok procedure => exact Make.returns_pure ⟨fun h => (hmaker h).elim, fun _ => rfl⟩
    | error refusal => exact Make.returns_throw refusal
  | .action _ =>
    rw [makeRequirement]
    exact Make.returns_pure ⟨fun _ => trivial, fun _ => rfl⟩
  | .guestAction _ =>
    rw [makeRequirement]
    exact Make.returns_pure ⟨fun _ => trivial, fun _ => rfl⟩
  | .customAction _ =>
    rw [makeRequirement]
    exact Make.returns_pure ⟨fun _ => trivial, fun _ => rfl⟩
termination_by (value.size, 3)
decreasing_by
  all_goals exact Prod.Lex.right _ (by omega)

theorem compileRequirements_fits (r : Registry) (sideEffects : Bool) (node : Node) :
    Compile.Returns (RequirementsFit r sideEffects) (compileRequirements r sideEffects node) := by
  by_cases hblock : node.IsBlock
  · rw [compileRequirements_eq hblock]
    exact compileRequirementEach_fits r sideEffects node.members
  · rw [compileRequirements_of_not_block hblock]
    exact returns_bind fun _ => returns_pure ⟨fun _ => trivial, fun _ => rfl⟩
termination_by (node.size, 1)
decreasing_by exact members_before node

theorem compileRequirementEach_fits (r : Registry) (sideEffects : Bool) (nodes : List Node) :
    Compile.Returns (RequirementsFit r sideEffects)
      (compileRequirementEach r sideEffects nodes) := by
  match nodes with
  | [] =>
    rw [compileRequirementEach]
    exact returns_pure ⟨fun _ => trivial, fun _ => rfl⟩
  | node :: rest =>
    rw [compileRequirementEach]
    refine (compileRequirement_fits r sideEffects node).bind fun first hfirst => ?_
    refine (compileRequirementEach_fits r sideEffects rest).bind
      fun others hothers => returns_pure ⟨fun h => ⟨hfirst.builtIn h, hothers.builtIn h⟩, ?_⟩
    intro hflag
    rw [silenceAll, hfirst.silent hflag, hothers.silent hflag]
termination_by (Node.itemsSize nodes, 0)
decreasing_by
  all_goals exact Prod.Lex.left _ _ (by simp only [Node.itemsSize]; omega)

end

/-! ### Branches -/

/-- The first branch whose conditions hold. -/
def chooseBranch (c : ContextId) : List Branch → Run (Option Branch)
  | [] => pure none
  | .mk name conditions actions :: rest => do
    if ← allMet c false conditions then return some (.mk name conditions actions)
    else chooseBranch c rest

/-- Do what the branch that was chosen asks for, if one was. -/
def takeChosen (c : ContextId) : Option Branch → Run Unit
  | none => pure ()
  | some (.mk name _ actions) => do
    Run.report (.branchSelected name)
    triggerAll c actions

/-- A branch is chosen before anything is done. -/
theorem takeBranch_eq (c : ContextId) (branches : List Branch) :
    takeBranch c branches = (do takeChosen c (← chooseBranch c branches)) := by
  induction branches with
  | nil => rfl
  | cons b rest ih =>
    obtain ⟨name, conditions, actions⟩ := b
    rw [takeBranch, chooseBranch, Branch.attempt, bind_assoc, bind_assoc]
    refine bind_congr fun met => ?_
    cases met with
    | true => simp [takeChosen]
    | false => simpa using ih

theorem deciding_chooseBranch (c : ContextId) {branches : List Branch}
    (h : ∀ name conditions actions, .mk name conditions actions ∈ branches →
      requirementsBuiltIn conditions) : Deciding (chooseBranch c branches) := by
  induction branches with
  | nil => exact deciding_pure none
  | cons b rest ih =>
    obtain ⟨name, conditions, actions⟩ := b
    rw [chooseBranch, ← silenceAll_allMet_false]
    have hconditions := h name conditions actions List.mem_cons_self
    refine (allMet_deciding c false hconditions).bind fun met => ?_
    cases met with
    | true => exact deciding_pure _
    | false =>
      refine ih fun name conditions actions hmem => ?_
      exact h name conditions actions (List.mem_cons_of_mem _ hmem)

/-! ### Deciding -/

/-- **Deciding has no other effect.**  A requirement of the built-in types decides where side
    effects are off, whatever not-met actions are in it, and if it was compiled with side
    effects off it decides either way.  So a conditional first decides, and then triggers its
    actions or does nothing; and a priority rule first decides which branch to take. -/
theorem deciding_has_no_other_effect (c : ContextId) :
    (∀ q : Requirement, q.BuiltIn → Deciding (q.isMet c false)) ∧
    (∀ (r : Registry) (node : Node) (w : World),
      (r.BuiltIn → (node.requirement r false w).BuiltIn) ∧
      ((node.requirement r false w).BuiltIn →
        ∀ sideEffects, Deciding ((node.requirement r false w).isMet c sideEffects))) ∧
    (∀ conditions actions, requirementsBuiltIn conditions →
      Deciding (allMet c false conditions) ∧
        (ActionBody.conditional conditions actions).run c = do
          if ← allMet c false conditions then triggerAll c actions) ∧
    ∀ branches, (∀ name conditions actions, .mk name conditions actions ∈ branches →
        requirementsBuiltIn conditions) →
      Deciding (chooseBranch c branches) ∧
        (ActionBody.priority branches).run c = (do takeChosen c (← chooseBranch c branches)) := by
  refine ⟨?_, ?_, ?_, ?_⟩
  · intro q h
    rw [← Requirement.silenced_isMet_false]
    exact Requirement.deciding_silenced c false h
  · intro r node w
    have hfits : (node.requirement r false w).Fits r false := compileRequirement_fits r false node w
    refine ⟨hfits.builtIn, fun h sideEffects => ?_⟩
    rw [← hfits.silent rfl]
    exact Requirement.deciding_silenced c sideEffects h
  · intro conditions actions h
    refine ⟨?_, by rw [ActionBody.run]⟩
    rw [← silenceAll_allMet_false]
    exact allMet_deciding c false h
  · intro branches h
    refine ⟨deciding_chooseBranch c h, ?_⟩
    rw [ActionBody.run, takeBranch_eq]

/-- A negation that is never met inside a conjunction, which is not met therefore.  Both send a
    message when they are not met. -/
def refused : Requirement :=
  let message text := [Action.mk "message" (.constant 1) (.message (.literal text))]
  .mk "&&" (.all [.mk "!" (.not (.mk "&&" (.all []) [])) (message "no")]) (message "never")

/-- With side effects the messages are sent, from the inside out; without them none is. -/
theorem deciding_has_no_other_effect_refused :
    let st : EngineState := { world := {} }
    refused.BuiltIn ∧ ((refused.isMet 0 true).after st).world.deliveries.size = 2 ∧
      ((refused.isMet 0 false).after st).world.deliveries = #[] := by
  intro st
  have builtIn : refused.BuiltIn := ⟨trivial, trivial⟩
  refine ⟨builtIn, by rfl, ?_⟩
  exact ((deciding_has_no_other_effect 0).1 refused builtIn |>.spares st).deliveries

end RuleEngine
