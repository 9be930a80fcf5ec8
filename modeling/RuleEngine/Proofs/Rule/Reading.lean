/-
  RuleEngine/Proofs/Rule/Reading.lean
  ===================================
  **What rules read.**

  Templates and formulas read the contexts and the platform, and nothing else of the
  world.  A step that only reads (`Run.Reading`) leaves both as they are, reports what
  it likes, and comes to the same outcome wherever both are the same; the only panics
  that it can end in are those of a placeholder.  Rendering, evaluating and comparing
  are such steps.  A calm step (`Run.Calm`) may do more, as drawing a roll does, but
  it too leaves what the next step reads.
-/
import RuleEngine.Rule.Run
import RuleEngine.Proofs.Rule.Calling

namespace RuleEngine

/-! ### Worlds that look the same -/

/-- What references read is the same in both worlds. -/
structure World.Views (w w' : World) : Prop where
  platform : w'.platform = w.platform
  contexts : w'.contexts = w.contexts

/-- The platform fails with a message when it is asked for some placeholder. -/
def World.Faults (w : World) (message : Panic) : Prop :=
  ∃ subject name, w.platform.fault (.placeholder subject name) = some message

namespace World

variable {w w' w'' : World}

theorem Views.rfl : w.Views w := ⟨Eq.refl _, Eq.refl _⟩

theorem Views.trans (h : w.Views w') (h' : w'.Views w'') : w.Views w'' :=
  ⟨h'.platform.trans h.platform, h'.contexts.trans h.contexts⟩

theorem Views.symm (h : w.Views w') : w'.Views w := ⟨h.platform.symm, h.contexts.symm⟩

theorem Views.context_eq (h : w.Views w') (c : ContextId) : w'.context c = w.context c := by
  simp only [context, h.contexts]

theorem Views.scope_eq (h : w.Views w') (c : ContextId) : w'.scope c = w.scope c := by
  simp only [scope, h.context_eq c, h.platform]

theorem Views.faults (h : w.Views w') {message : Panic} (hf : w'.Faults message) :
    w.Faults message := by
  obtain ⟨subject, name, hf⟩ := hf
  exact ⟨subject, name, by rw [← h.platform]; exact hf⟩

end World

namespace Run

variable {α β : Type}

/-! ### Calm steps -/

/-- A step leaves what references read, and only a placeholder makes it panic. -/
structure Calm (x : Run α) : Prop where
  views : ∀ st : EngineState, st.world.Views (x.after st).world
  faults : ∀ (st : EngineState) (message : Panic),
    x.outcome st = .error message → st.world.Faults message

section Calm

variable {x : Run α} {f : α → Run β}

theorem Calm.bind (hx : Calm x) (hf : ∀ a, Calm (f a)) : Calm (x >>= f) := by
  constructor
  · intro st
    rw [after_bind]
    cases x.outcome st with
    | ok a => exact (hx.views st).trans ((hf a).views _)
    | error message => exact hx.views st
  · intro st message h
    rw [outcome_bind] at h
    cases hout : x.outcome st with
    | ok a =>
      rw [hout] at h
      exact (hx.views st).faults ((hf a).faults _ message h)
    | error message' =>
      rw [hout] at h
      cases h
      exact hx.faults st message hout

theorem calm_pure (a : α) : Calm (pure a : Run α) :=
  ⟨fun _ => .rfl, fun _ _ h => nomatch h⟩

theorem calm_roll : Calm roll := by
  constructor
  · intro st
    exact ⟨rfl, rfl⟩
  · intro st message h
    cases h

/-- A calm step that does not come to the contrary of a verdict comes to the verdict, or panics
    in a placeholder. -/
theorem Calm.ok_or_fault {x : Run Bool} (hx : Calm x) {st : EngineState} {v : Bool}
    (hnot : x.outcome st ≠ .ok !v) :
    (∃ st', x st = .ok v st') ∨
      ∃ message st', x st = .error message st' ∧ st.world.Faults message := by
  cases hout : x.outcome st with
  | ok b =>
    rw [hout] at hnot
    have hb : b = v := by
      cases b <;> cases v <;> simp_all
    exact .inl (outcome_eq_ok.mp (hb ▸ hout))
  | error message =>
    obtain ⟨st', hst'⟩ := outcome_eq_error.mp hout
    exact .inr ⟨message, st', hst', hx.faults st message hout⟩

end Calm

/-! ### Steps that only read -/

/-- A calm step whose outcome depends on nothing but what references read. -/
structure Reading (x : Run α) : Prop extends Calm x where
  depends : ∀ st st' : EngineState, st.world.Views st'.world → x.outcome st' = x.outcome st

section Reading

variable {x : Run α} {f : α → Run β}

theorem Reading.bind (hx : Reading x) (hf : ∀ a, Reading (f a)) : Reading (x >>= f) := by
  refine ⟨hx.toCalm.bind fun a => (hf a).toCalm, fun st st' hst => ?_⟩
  rw [outcome_bind, outcome_bind, hx.depends st st' hst]
  cases x.outcome st with
  | ok a => exact (hf a).depends _ _ ((hx.views st).symm.trans (hst.trans (hx.views st')))
  | error message => rfl

theorem reading_pure (a : α) : Reading (pure a : Run α) := ⟨calm_pure a, fun _ _ _ => rfl⟩

/-- Looking at the world reads if what is looked at is the same wherever references read the
    same. -/
theorem reading_ask {g : World → α} (hg : ∀ w w' : World, w.Views w' → g w' = g w) :
    Reading (ask g) := by
  refine ⟨⟨fun _ => .rfl, fun _ _ h => nomatch h⟩, fun st st' hst => ?_⟩
  exact congrArg Except.ok (hg st.world st'.world hst)

theorem reading_report (n : Notice) : Reading (report n) :=
  ⟨⟨fun _ => ⟨rfl, rfl⟩, fun _ _ h => nomatch h⟩, fun _ _ _ => rfl⟩

theorem reading_context (c : ContextId) : Reading (context c) :=
  reading_ask fun _ _ h => h.context_eq c

theorem reading_scope (c : ContextId) : Reading (ask (·.scope c)) :=
  reading_ask fun _ _ h => h.scope_eq c

theorem call_of_fault {call : PlatformCall} {st : EngineState} {message : Panic}
    (h : st.world.platform.fault call = some message) : Run.call call st = .error message st := by
  have hask : ask World.platform st = .ok st.world.platform st := rfl
  rw [Run.call, bind_apply, hask]
  dsimp only
  rw [h]
  rfl

theorem call_of_no_fault {call : PlatformCall} {st : EngineState}
    (h : st.world.platform.fault call = none) : Run.call call st = .ok () st := by
  have hask : ask World.platform st = .ok st.world.platform st := rfl
  rw [Run.call, bind_apply, hask]
  dsimp only
  rw [h]
  rfl

theorem reading_placeholder (subject : Subject) (name : String) :
    Reading (call (.placeholder subject name)) := by
  refine ⟨⟨fun st => ?_, fun st message h => ?_⟩, fun st st' hst => ?_⟩
  · unfold after
    cases hfault : st.world.platform.fault (.placeholder subject name) with
    | some message => rw [call_of_fault hfault]; exact .rfl
    | none => rw [call_of_no_fault hfault]; exact .rfl
  · unfold outcome at h
    cases hfault : st.world.platform.fault (.placeholder subject name) with
    | some message' =>
      rw [call_of_fault hfault] at h
      exact ⟨subject, name, hfault.trans (congrArg some (Except.error.inj h))⟩
    | none => rw [call_of_no_fault hfault] at h; cases h
  · have hsame := congrArg (·.fault (.placeholder subject name)) hst.platform
    unfold outcome
    cases hfault : st.world.platform.fault (.placeholder subject name) with
    | some message => rw [call_of_fault hfault, call_of_fault (hsame.trans hfault)]
    | none => rw [call_of_no_fault hfault, call_of_no_fault (hsame.trans hfault)]

theorem reading_forIn {l : List α} {init : β} {g : α → β → Run (ForInStep β)}
    (hg : ∀ a b, Reading (g a b)) : Reading (forIn l init g) := by
  induction l generalizing init with
  | nil => exact reading_pure init
  | cons a rest ih =>
    rw [List.forIn_cons]
    refine (hg a init).bind fun step => ?_
    cases step with
    | done b => exact reading_pure b
    | yield b => exact ih

theorem reading_resolve (c : ContextId) (target : Reference) : Reading (resolve c target) := by
  cases target with
  | property key => exact reading_pure _
  | placeholder name => exact (reading_context c).bind fun _ => reading_placeholder _ name

theorem reading_render (c : ContextId) (t : TextTemplate) : Reading (render c t) := by
  refine (reading_forIn fun target _ => ?_).bind fun _ => ?_
  · exact (reading_resolve c target).bind fun _ => reading_pure _
  · exact (reading_scope c).bind fun _ => reading_pure _

/-- Evaluating a formula reads its references one by one, and then all of them at once. -/
theorem evaluate_eq (c : ContextId) (f : Formula) :
    ∃ reads : Run PUnit, Reading reads ∧
      evaluate c f = (do reads; return f.eval (← ask (·.scope c))) := by
  refine ⟨_, reading_forIn fun target _ => ?_, rfl⟩
  refine (reading_resolve c target).bind fun _ => ?_
  refine (reading_scope c).bind fun scope => ?_
  split
  · exact (reading_report _).bind fun _ => reading_pure _
  · exact reading_pure _

theorem reading_evaluate (c : ContextId) (f : Formula) : Reading (evaluate c f) := by
  obtain ⟨reads, hreads, heq⟩ := evaluate_eq c f
  rw [heq]
  exact hreads.bind fun _ => (reading_scope c).bind fun _ => reading_pure _

/-- A formula that evaluates has the value that it has in the scope. -/
theorem eq_of_evaluate {c : ContextId} {f : Formula} {st : EngineState} {x : Float}
    (h : (evaluate c f).outcome st = .ok x) : x = f.eval (st.world.scope c) := by
  obtain ⟨reads, hreads, heq⟩ := evaluate_eq c f
  rw [heq] at h
  obtain ⟨_, _, hvalue⟩ := outcome_bind_eq_ok.mp h
  rw [← (hreads.views st).scope_eq c]
  exact (Except.ok.inj hvalue).symm

end Reading

end Run

open Run

/-! ### Comparing -/

theorem Operand.reading_number (c : ContextId) (o : Operand) : Reading (o.number c) := by
  unfold Operand.number
  cases o.number? with
  | none => exact reading_pure _
  | some f => exact (reading_evaluate c f).bind fun _ => reading_pure _

theorem reading_sidesEqual (c : ContextId) (left right : Operand) :
    Reading (sidesEqual c left right) := by
  refine (left.reading_number c).bind fun x? => ?_
  refine (right.reading_number c).bind fun y? => ?_
  have htexts : Reading (do
      let s ← Run.render c left.text
      let t ← Run.render c right.text
      return s == t) := by
    refine (reading_render c _).bind fun s => ?_
    exact (reading_render c _).bind fun t => reading_pure _
  cases x? with
  | none => exact htexts
  | some x =>
    cases y? with
    | none => exact htexts
    | some y => exact reading_pure _

def RequirementBody.IsComparison : RequirementBody → Prop
  | .equality _ _ _ => True
  | .comparison _ _ _ => True
  | _ => False

theorem RequirementBody.reading_check {body : RequirementBody} (h : body.IsComparison)
    (c : ContextId) (sideEffects : Bool) : Reading (body.check c sideEffects) := by
  cases body with
  | equality negated left right =>
    rw [RequirementBody.check]
    exact (reading_sidesEqual c left right).bind fun _ => reading_pure _
  | comparison relation left right =>
    rw [RequirementBody.check]
    refine (reading_evaluate c left).bind fun x => ?_
    exact (reading_evaluate c right).bind fun y => reading_pure _
  | _ => exact h.elim

end RuleEngine
