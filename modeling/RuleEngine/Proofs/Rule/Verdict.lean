/-
  RuleEngine/Proofs/Rule/Verdict.lean
  ===================================
  **Side effects do not change a verdict.**

  Not-met actions write properties, use cooldowns and draw rolls, so a requirement that is
  evaluated after one of them could see another world.  To tell that none is, evaluation
  is watched: `Requirement.watch` is the same evaluation, which also notes when the check
  of a body begins and in which state, what it decides, and when not-met actions are
  triggered.  Forgetting the notes gives `Requirement.isMet` back (`Requirement.run_watch`).

  Two watched runs from one state, with side effects and without, agree until the verdict
  is settled (`Agree`).  If it is no, the run with side effects goes on as told by
  `Deferred`: it triggers not-met actions, and the conjunctions that are still open pass
  the no on, but no body is checked any more.  The induction is on the tree of
  requirements; only conjunctions hand the flag on, so the other bodies are the same
  evaluation in both runs.
-/
import RuleEngine.Proofs.Rule.NotMet

namespace RuleEngine

/-! ### Watched runs -/

/-- What is noted while requirements are evaluated. -/
inductive Occurrence where
  /-- The check of a body begins, in a state. -/
  | begins (body : RequirementBody) (st : EngineState)
  | decides (body : RequirementBody) (met : Bool)
  /-- The not-met actions of a requirement are triggered. -/
  | fires (r : Requirement)

def Occurrence.isFiring : Occurrence → Bool
  | fires _ => true
  | _ => false

/-- How a run ended, with what was noted during it. -/
abbrev Account (α : Type) := EStateM.Result Panic EngineState α × List Occurrence

/-- A run during which things are noted. -/
def Watched (α : Type) := EngineState → Account α

/-- Go on after a run, unless it ended in a panic. -/
def Account.andThen {α β : Type} (account : Account α) (f : α → Watched β) : Account β :=
  match account with
  | (.ok a st, os) => ((f a st).1, os ++ (f a st).2)
  | (.error message st, os) => (.error message st, os)

instance : Monad Watched where
  pure a := fun st => (.ok a st, [])
  bind w f := fun st => (w st).andThen f

namespace Watched

variable {α β : Type}

def run (w : Watched α) : Run α := fun st => (w st).1

/-- What is noted when the run starts in a state. -/
def seen (w : Watched α) (st : EngineState) : List Occurrence := (w st).2

/-- A run during which nothing is noted. -/
def unnoted (x : Run α) : Watched α := fun st => (x st, [])

def note (occurrence : EngineState → Occurrence) : Watched Unit :=
  fun st => (.ok () st, [occurrence st])

theorem bind_apply (w : Watched α) (f : α → Watched β) (st : EngineState) :
    (w >>= f) st = (w st).andThen f := rfl

@[simp] theorem run_pure (a : α) : (pure a : Watched α).run = pure a := rfl

@[simp] theorem run_unnoted (x : Run α) : (unnoted x).run = x := rfl

@[simp] theorem run_note (occurrence : EngineState → Occurrence) :
    (note occurrence).run = pure () := rfl

@[simp] theorem run_bind (w : Watched α) (f : α → Watched β) :
    (w >>= f).run = w.run >>= fun a => (f a).run := by
  funext st
  rw [Run.bind_apply]
  simp only [run, bind_apply]
  rcases w st with ⟨⟨a, st'⟩ | ⟨message, st'⟩, os⟩ <;> rfl

end Watched

open Watched

/-- What is left to do for a requirement once its body has decided. -/
def Requirement.conclude (c : ContextId) (sideEffects : Bool) (r : Requirement) (met : Bool) :
    Watched Bool := do
  note fun _ => .decides r.body met
  if !met && sideEffects && !r.notMet.isEmpty then
    note fun _ => .fires r
    unnoted (r.fire c)
  return met

mutual

def Requirement.watch (c : ContextId) (sideEffects : Bool) : Requirement → Watched Bool
  | .mk typeKey body notMet => do
    note (.begins body)
    let met ← body.watch c sideEffects
    Requirement.conclude c sideEffects (.mk typeKey body notMet) met

def RequirementBody.watch (c : ContextId) (sideEffects : Bool) : RequirementBody → Watched Bool
  | .all requirements => watchAll c sideEffects requirements
  | .any requirements => watchAny c requirements
  | .not requirement => return !(← requirement.watch c false)
  | leaf => unnoted (leaf.check c sideEffects)

def watchAll (c : ContextId) (sideEffects : Bool) : List Requirement → Watched Bool
  | [] => pure true
  | r :: rest => do
    if ← r.watch c sideEffects then watchAll c sideEffects rest else return false

def watchAny (c : ContextId) : List Requirement → Watched Bool
  | [] => pure false
  | r :: rest => do
    if ← r.watch c false then return true else watchAny c rest

end

mutual

/-- Watching an evaluation does not change it. -/
theorem Requirement.run_watch (c : ContextId) (sideEffects : Bool) (r : Requirement) :
    (r.watch c sideEffects).run = r.isMet c sideEffects := by
  cases r with
  | mk typeKey body notMet =>
    rw [Requirement.watch, Requirement.isMet, ← RequirementBody.run_watch c sideEffects body]
    simp only [run_bind, run_note, pure_bind]
    refine bind_congr fun met => ?_
    rw [Requirement.conclude]
    simp only [run_bind, run_note, pure_bind]
    split <;> simp_all [Requirement.fire, Requirement.notMet, Requirement.typeKey]

theorem RequirementBody.run_watch (c : ContextId) (sideEffects : Bool) (body : RequirementBody) :
    (body.watch c sideEffects).run = body.check c sideEffects := by
  cases body with
  | all requirements =>
    rw [RequirementBody.watch, RequirementBody.check, run_watchAll c sideEffects requirements]
  | any requirements =>
    rw [RequirementBody.watch, RequirementBody.check, run_watchAny c requirements]
  | not requirement =>
    rw [RequirementBody.watch, RequirementBody.check, ← Requirement.run_watch c false requirement,
      run_bind]
    rfl
  | _ => rfl

theorem run_watchAll (c : ContextId) (sideEffects : Bool) (requirements : List Requirement) :
    (watchAll c sideEffects requirements).run = allMet c sideEffects requirements := by
  cases requirements with
  | nil => rfl
  | cons r rest =>
    rw [watchAll, allMet, run_bind, Requirement.run_watch c sideEffects r,
      ← run_watchAll c sideEffects rest]
    refine bind_congr fun met => ?_
    cases met <;> rfl

theorem run_watchAny (c : ContextId) (requirements : List Requirement) :
    (watchAny c requirements).run = anyMet c requirements := by
  cases requirements with
  | nil => rfl
  | cons r rest =>
    rw [watchAny, anyMet, run_bind, Requirement.run_watch c false r, ← run_watchAny c rest]
    refine bind_congr fun met => ?_
    cases met <;> rfl

end

/-! ### Leaves that ignore the flag -/

mutual

/-- No leaf that is asked with the flag decides by it.  Below a disjunction or a negation
    the flag is always off. -/
def Requirement.IgnoresFlag : Requirement → Prop
  | .mk _ body _ => body.IgnoresFlag

def RequirementBody.IgnoresFlag : RequirementBody → Prop
  | .all requirements => IgnoreFlag requirements
  | .custom procedure => procedure true = procedure false
  | _ => True

def IgnoreFlag : List Requirement → Prop
  | [] => True
  | r :: rest => r.IgnoresFlag ∧ IgnoreFlag rest

end

/-- A body that is no conjunction hands the flag on to nothing else. -/
theorem RequirementBody.watch_eq (c : ContextId) {body : RequirementBody} (hf : body.IgnoresFlag)
    (hb : ∀ requirements, body ≠ .all requirements) : body.watch c true = body.watch c false := by
  cases body with
  | all requirements => exact absurd rfl (hb requirements)
  | custom procedure =>
    have hp : procedure true = procedure false := hf
    simp only [RequirementBody.watch, RequirementBody.check, hp]
  | _ => rfl

/-! ### Two runs from one state -/

def Quietly (os : List Occurrence) : Prop := ∀ o ∈ os, o.isFiring = false

theorem Quietly.append {first second : List Occurrence} (h₁ : Quietly first)
    (h₂ : Quietly second) : Quietly (first ++ second) := by
  intro o ho
  rcases List.mem_append.mp ho with h | h
  · exact h₁ o h
  · exact h₂ o h

theorem Quietly.filter {os : List Occurrence} (h : Quietly os) :
    os.filter (!·.isFiring) = os := by
  rw [List.filter_eq_self]
  intro o ho
  rw [h o ho]
  rfl

/-- What is noted with side effects, against what is noted without: once the verdict is no,
    not-met actions are fired and open conjunctions pass the no on. -/
inductive Deferred : List Occurrence → List Occurrence → Prop
  | settled {os : List Occurrence} (quiet : Quietly os) : Deferred os os
  | fires {asked unasked : List Occurrence} (before : Deferred asked unasked) (r : Requirement) :
      Deferred (asked ++ [.fires r]) unasked
  | passesOn {asked unasked : List Occurrence} (before : Deferred asked unasked)
      (requirements : List Requirement) :
      Deferred (asked ++ [.decides (.all requirements) false])
        (unasked ++ [.decides (.all requirements) false])

/-- What happens once the verdict is no. -/
def Occurrence.FollowsVerdict (o : Occurrence) : Prop :=
  o.isFiring ∨ ∃ requirements, o = .decides (.all requirements) false

namespace Deferred

variable {asked unasked : List Occurrence}

theorem prepend {os : List Occurrence} (hos : Quietly os) (h : Deferred asked unasked) :
    Deferred (os ++ asked) (os ++ unasked) := by
  induction h with
  | settled quiet => exact .settled (hos.append quiet)
  | fires before r ih =>
    rw [← List.append_assoc]
    exact ih.fires r
  | passesOn before requirements ih =>
    rw [← List.append_assoc, ← List.append_assoc]
    exact ih.passesOn requirements

theorem filter (h : Deferred asked unasked) : asked.filter (!·.isFiring) = unasked := by
  induction h with
  | settled quiet => exact quiet.filter
  | fires before r ih =>
    rw [List.filter_append, ih]
    exact List.append_nil _
  | passesOn before requirements ih =>
    rw [List.filter_append, ih]
    rfl

/-- With side effects nothing is fired before the verdict, and only what follows it comes after. -/
theorem split (h : Deferred asked unasked) : ∃ early late, asked = early ++ late ∧
    Quietly early ∧ ∀ o ∈ late, o.FollowsVerdict := by
  induction h with
  | @settled os quiet => exact ⟨os, [], (List.append_nil os).symm, quiet, nofun⟩
  | fires before r ih =>
    obtain ⟨early, late, rfl, hearly, hlate⟩ := ih
    refine ⟨early, late ++ [.fires r], List.append_assoc .., hearly, fun o ho => ?_⟩
    rcases List.mem_append.mp ho with ho | ho
    · exact hlate o ho
    · cases List.mem_singleton.mp ho
      exact .inl rfl
  | passesOn before requirements ih =>
    obtain ⟨early, late, rfl, hearly, hlate⟩ := ih
    refine ⟨early, late ++ [.decides (.all requirements) false], List.append_assoc .., hearly,
      fun o ho => ?_⟩
    rcases List.mem_append.mp ho with ho | ho
    · exact hlate o ho
    · cases List.mem_singleton.mp ho
      exact .inr ⟨requirements, rfl⟩

end Deferred

/-- The run with side effects against the run without: they are the same run, or the verdict
    is no and what the first does besides is deferred, or it panics in a not-met action. -/
inductive Agree : Account Bool → Account Bool → Prop
  | same {account : Account Bool} (quiet : Quietly account.2) : Agree account account
  | unmet {st₁ st₂ : EngineState} {asked unasked : List Occurrence}
      (deferred : Deferred asked unasked) : Agree (.ok false st₁, asked) (.ok false st₂, unasked)
  | panicked {message : Panic} {st₁ st₂ : EngineState} {asked unasked : List Occurrence} :
      Agree (.error message st₁, asked) (.ok false st₂, unasked)

theorem Agree.prepend {os : List Occurrence} (hos : Quietly os) {asked unasked : Account Bool}
    (h : Agree asked unasked) : Agree (asked.1, os ++ asked.2) (unasked.1, os ++ unasked.2) := by
  cases h with
  | same quiet => exact .same (hos.append quiet)
  | unmet deferred => exact .unmet (deferred.prepend hos)
  | panicked => exact .panicked

/-! ### Without side effects nothing is fired -/

/-- Nothing is fired during the run. -/
def Watched.Quiet {α : Type} (w : Watched α) : Prop := ∀ st, Quietly (w.seen st)

section Quiet

variable {α β : Type}

theorem quiet_pure (a : α) : (pure a : Watched α).Quiet := fun _ => nofun

theorem quiet_unnoted (x : Run α) : (unnoted x).Quiet := fun _ => nofun

theorem quiet_note {occurrence : EngineState → Occurrence}
    (h : ∀ st, (occurrence st).isFiring = false) : (note occurrence).Quiet := by
  intro st o ho
  cases List.mem_singleton.mp ho
  exact h st

theorem Watched.Quiet.bind {w : Watched α} {f : α → Watched β} (hw : w.Quiet)
    (hf : ∀ a, (f a).Quiet) : (w >>= f).Quiet := by
  intro st
  have hst := hw st
  unfold seen at hst ⊢
  rw [Watched.bind_apply]
  rcases hws : w st with ⟨⟨a, st'⟩ | ⟨message, st'⟩, os⟩
  · rw [hws] at hst
    exact hst.append (hf a st')
  · rw [hws] at hst
    exact hst

end Quiet

mutual

theorem Requirement.quiet_watch (c : ContextId) (r : Requirement) : (r.watch c false).Quiet := by
  cases r with
  | mk typeKey body notMet =>
    rw [Requirement.watch]
    refine (quiet_note fun _ => rfl).bind fun _ => ?_
    refine (RequirementBody.quiet_watch c body).bind fun met => ?_
    simp only [Requirement.conclude, Bool.and_false, Bool.false_and, Bool.false_eq_true, if_false]
    exact (quiet_note fun _ => rfl).bind fun _ => quiet_pure met

theorem RequirementBody.quiet_watch (c : ContextId) (body : RequirementBody) :
    (body.watch c false).Quiet := by
  cases body with
  | all requirements =>
    rw [RequirementBody.watch]
    exact quiet_watchAll c requirements
  | any requirements =>
    rw [RequirementBody.watch]
    exact quiet_watchAny c requirements
  | not requirement =>
    rw [RequirementBody.watch]
    exact (Requirement.quiet_watch c requirement).bind fun met => quiet_pure _
  | _ => exact quiet_unnoted _

theorem quiet_watchAll (c : ContextId) (requirements : List Requirement) :
    (watchAll c false requirements).Quiet := by
  cases requirements with
  | nil => exact quiet_pure true
  | cons r rest =>
    rw [watchAll]
    refine (Requirement.quiet_watch c r).bind fun met => ?_
    cases met with
    | true => exact quiet_watchAll c rest
    | false => exact quiet_pure false

theorem quiet_watchAny (c : ContextId) (requirements : List Requirement) :
    (watchAny c requirements).Quiet := by
  cases requirements with
  | nil => exact quiet_pure false
  | cons r rest =>
    rw [watchAny]
    refine (Requirement.quiet_watch c r).bind fun met => ?_
    cases met with
    | true => exact quiet_pure true
    | false => exact quiet_watchAny c rest

end

/-! ### The runs agree -/

/-- Where the first member is met, the runs are still the same and the others decide. -/
theorem Agree.conjunction {asked unasked : Account Bool} (h : Agree asked unasked)
    {k k' : Watched Bool} (hk : ∀ st, Agree (k st) (k' st)) :
    Agree (asked.andThen fun met => if met then k else pure false)
      (unasked.andThen fun met => if met then k' else pure false) := by
  cases h with
  | same quiet =>
    rcases asked with ⟨⟨met, st⟩ | ⟨message, st⟩, os⟩
    · cases met with
      | true => exact (hk st).prepend quiet
      | false => exact .same (quiet.append nofun)
    · exact .same quiet
  | unmet deferred =>
    refine .unmet ?_
    simpa [pure] using deferred
  | panicked => exact .panicked

section Conclude

variable (c : ContextId) (r : Requirement)

/-- Concluding notes the decision first. -/
theorem Requirement.conclude_apply (sideEffects met : Bool) (st : EngineState) :
    r.conclude c sideEffects met st =
      if !met && sideEffects && !r.notMet.isEmpty then
        match r.fire c st with
        | .ok _ st' => (.ok met st', [.decides r.body met, .fires r])
        | .error message st' => (.error message st', [.decides r.body met, .fires r])
      else (.ok met st, [.decides r.body met]) := by
  rw [Requirement.conclude]
  split
  · simp only [Watched.bind_apply, note, unnoted, Account.andThen]
    cases r.fire c st <;> rfl
  · rfl

/-- What a body decided is concluded alike, except that with side effects a no fires. -/
theorem agree_conclude {account : Account Bool} (quiet : Quietly account.2) :
    Agree (account.andThen (r.conclude c true)) (account.andThen (r.conclude c false)) := by
  rcases account with ⟨⟨met, st⟩ | ⟨message, st⟩, os⟩
  · have decided : Quietly (os ++ [.decides r.body met]) := by
      refine quiet.append fun o ho => ?_
      cases List.mem_singleton.mp ho
      rfl
    simp only [Account.andThen, Requirement.conclude_apply, Bool.and_false, Bool.false_and,
      Bool.false_eq_true, if_false]
    split
    · rename_i fires
      have hmet : met = false := by simp_all
      subst hmet
      split
      · have hfire := (Deferred.settled decided).fires r
        rw [List.append_assoc] at hfire
        exact .unmet hfire
      · exact .panicked
    · exact .same decided
  · exact .same quiet

/-- Two evaluations of a conjunction that agree before it concludes agree after. -/
theorem Agree.conclude {asked unasked : Account Bool} (h : Agree asked unasked)
    {requirements : List Requirement} (hr : r.body = .all requirements) :
    Agree (asked.andThen (r.conclude c true)) (unasked.andThen (r.conclude c false)) := by
  cases h with
  | same quiet => exact agree_conclude c r quiet
  | unmet deferred =>
    simp only [Account.andThen, Requirement.conclude_apply, Bool.and_false, Bool.false_and,
      Bool.false_eq_true, if_false, hr]
    split
    · split
      · have hfire := (deferred.passesOn requirements).fires r
        rw [List.append_assoc] at hfire
        exact .unmet hfire
      · exact .panicked
    · exact .unmet (deferred.passesOn requirements)
  | panicked => exact .panicked

end Conclude

mutual

/-- The evaluations of a requirement with and without side effects agree. -/
theorem Requirement.agree (c : ContextId) (r : Requirement) (hf : r.IgnoresFlag)
    (st : EngineState) : Agree (r.watch c true st) (r.watch c false st) := by
  cases r with
  | mk typeKey body notMet =>
    rw [Requirement.watch, Requirement.watch, Watched.bind_apply, Watched.bind_apply]
    refine Agree.prepend (fun o ho => ?_) ?_
    · cases List.mem_singleton.mp ho
      rfl
    by_cases hall : ∃ requirements, body = .all requirements
    · obtain ⟨requirements, hall⟩ := hall
      exact (RequirementBody.agree c body hf st).conclude c (.mk typeKey body notMet) hall
    · rw [RequirementBody.watch_eq c hf (not_exists.mp hall)]
      exact agree_conclude c (.mk typeKey body notMet) (RequirementBody.quiet_watch c body st)

theorem RequirementBody.agree (c : ContextId) (body : RequirementBody) (hf : body.IgnoresFlag)
    (st : EngineState) : Agree (body.watch c true st) (body.watch c false st) := by
  cases body with
  | all requirements => exact agree_watchAll c requirements hf st
  | _ =>
    rw [RequirementBody.watch_eq c hf (by simp)]
    exact .same (RequirementBody.quiet_watch c _ st)

theorem agree_watchAll (c : ContextId) (requirements : List Requirement)
    (hf : IgnoreFlag requirements) (st : EngineState) :
    Agree (watchAll c true requirements st) (watchAll c false requirements st) := by
  cases requirements with
  | nil => exact .same nofun
  | cons r rest =>
    obtain ⟨hr, hrest⟩ := hf
    rw [watchAll, watchAll]
    exact (Requirement.agree c r hr st).conjunction (agree_watchAll c rest hrest)

end

/-- Requirements whose leaves ignore the flag are evaluated twice from one state, with side
    effects and without, and neither run panics.  Then both come to one verdict.  Watching
    shows that the same checks begin in the same states and decide the same in both, in one
    order, and that the run with side effects fires no not-met action before all of them
    have begun: from then on it fires, and what is still decided are conjunctions whose
    verdict is already no. -/
theorem allMet_ignores_sideEffects (c : ContextId) (requirements : List Requirement)
    (hf : IgnoreFlag requirements) (st : EngineState) {met met' : Bool}
    (hasked : (allMet c true requirements).outcome st = .ok met)
    (hunasked : (allMet c false requirements).outcome st = .ok met') :
    met = met' ∧
    (∀ sideEffects, (watchAll c sideEffects requirements).run = allMet c sideEffects requirements) ∧
    ((watchAll c true requirements).seen st).filter (!·.isFiring) =
      (watchAll c false requirements).seen st ∧
    ∃ early late, (watchAll c true requirements).seen st = early ++ late ∧ Quietly early ∧
      ∀ o ∈ late, o.FollowsVerdict := by
  have agree := agree_watchAll c requirements hf st
  obtain ⟨st₁, h₁⟩ := Run.outcome_eq_ok.mp hasked
  obtain ⟨st₂, h₂⟩ := Run.outcome_eq_ok.mp hunasked
  rw [← run_watchAll] at h₁ h₂
  simp only [Watched.run, Watched.seen] at h₁ h₂ ⊢
  rw [and_left_comm]
  refine ⟨fun sideEffects => run_watchAll c sideEffects requirements, ?_⟩
  generalize watchAll c true requirements st = asked,
    watchAll c false requirements st = unasked at agree h₁ h₂ ⊢
  cases agree with
  | same quiet =>
    have hmet : met = met' := (EStateM.Result.ok.inj (h₁.symm.trans h₂)).1
    exact ⟨hmet, quiet.filter, asked.2, [], (List.append_nil _).symm, quiet, nofun⟩
  | unmet deferred =>
    have hmet : met = met' :=
      (EStateM.Result.ok.inj h₁).1.symm.trans (EStateM.Result.ok.inj h₂).1
    exact ⟨hmet, deferred.filter, deferred.split⟩
  | panicked => cases h₁

/-- Waving leaves a mark in the context. -/
def wave : Action := .mk "set" (.constant 1) (.set "wave" (.literal "yes"))

def shutAndWaved : List Requirement :=
  [.mk "!" (.not (.mk "door" .idle [wave])) [],
    .mk "&&" (.all
      [.mk "waved" (.custom fun _ => .read "wave" fun mark => .done mark.isSome) [wave]]) [wave]]

def doorstep : EngineState := ⟨{}, { contexts := [⟨⟨"", ""⟩, [], []⟩] }⟩

-- The not-met action below the negation would make the verdict yes, but is not fired.
/-- A waved mark would open the door, but nobody waves before both flags have come to the same
    verdict.  With side effects two waves follow. -/
theorem allMet_ignores_sideEffects_wave :
    (allMet 0 true shutAndWaved).outcome doorstep = .ok false ∧
    (allMet 0 false shutAndWaved).outcome doorstep = .ok false ∧
    ((watchAll 0 true shutAndWaved).seen doorstep).filter (!·.isFiring) =
      (watchAll 0 false shutAndWaved).seen doorstep ∧
    ((watchAll 0 true shutAndWaved).seen doorstep).countP (·.isFiring) = 2 := by
  have ignored : IgnoreFlag shutAndWaved := ⟨trivial, ⟨rfl, trivial⟩, trivial⟩
  have asked : (allMet 0 true shutAndWaved).outcome doorstep = .ok false := rfl
  have unasked : (allMet 0 false shutAndWaved).outcome doorstep = .ok false := rfl
  obtain ⟨-, -, same, -⟩ := allMet_ignores_sideEffects 0 shutAndWaved ignored doorstep asked unasked
  exact ⟨asked, unasked, same, rfl⟩

end RuleEngine
