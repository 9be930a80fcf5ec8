/-
  RuleEngine/Proofs/Rule/FailClosed.lean
  ======================================
  **Rejected requirements and the verdicts around them.**

  A node that does not compile becomes a requirement that is never met.  To say that such
  a node is not what makes a condition hold, the tree is compared with a repaired one, in
  which the node decides something (`Repaired`): whatever the repaired node decides, a
  condition that was met stays met (`met_of_repaired`).

  The relation carries the verdict that has to be kept.  It is yes at the top, and every
  negation turns it round.  Where it is no, a rejected node helps the verdict along, and
  there the repaired node has to say no as well: a negation is rejected with its operand,
  but it does not see what was rejected further down.  So the negation of a conjunction is
  met as soon as the first member of the conjunction is rejected (`isMet_not_all_rejected`).
-/
import RuleEngine.Proofs.Rule.Compiling
import RuleEngine.Proofs.Rule.NotMet

namespace RuleEngine

/-! ### Keeping a verdict -/

namespace Run

/-- Two calm steps, of which the second keeps a verdict of the first: where both look at the
    same, it does not come to the contrary. -/
structure Keeps (v : Bool) (x x' : Run Bool) : Prop where
  calm : Calm x
  calm' : Calm x'
  keeps : ∀ st st' : EngineState, st.world.Views st'.world →
    x.outcome st = .ok v → x'.outcome st' ≠ .ok !v

section Keeps

variable {v : Bool} {x x' y y' : Run Bool}

theorem Keeps.refl (hx : Reading x) : Keeps v x x := by
  refine ⟨hx.toCalm, hx.toCalm, fun st st' hviews hout hout' => ?_⟩
  rw [hx.depends st st' hviews, hout] at hout'
  cases v <;> cases hout'

/-- Conjunctions go on after yes and disjunctions after no; where they stop, the verdict is
    the contrary. -/
theorem Keeps.goOn (d : Bool) (hx : Keeps v x x') (hy : Keeps v y y') :
    Keeps v (do if (← x) = d then y else return !d) (do if (← x') = d then y' else return !d) := by
  have calm : ∀ {a b : Run Bool}, Calm a → Calm b →
      Calm (do if (← a) = d then b else return !d) := by
    intro a b ha hb
    refine ha.bind fun met => ?_
    split
    · exact hb
    · exact calm_pure _
  refine ⟨calm hx.calm hy.calm, calm hx.calm' hy.calm', fun st st' hviews hout hout' => ?_⟩
  obtain ⟨met, hfirst, hout⟩ := outcome_bind_eq_ok.mp hout
  obtain ⟨met', hfirst', hout'⟩ := outcome_bind_eq_ok.mp hout'
  by_cases hmet : met = d
  · rw [if_pos hmet] at hout
    by_cases hmet' : met' = d
    · rw [if_pos hmet'] at hout'
      have hviews' : (x.after st).world.Views (x'.after st').world :=
        (hx.calm.views st).symm.trans (hviews.trans (hx.calm'.views st'))
      exact hy.keeps _ _ hviews' hout hout'
    · -- The second stops where the first goes on, with the contrary of the verdict.
      rw [if_neg hmet'] at hout'
      have hd : d = v := Bool.not_inj (Except.ok.inj hout')
      rw [hmet, hd] at hfirst
      rw [Bool.eq_not_of_ne hmet', hd] at hfirst'
      exact hx.keeps st st' hviews hfirst hfirst'
  · rw [if_neg hmet] at hout
    have hv : (!d) = v := Except.ok.inj hout
    rw [Bool.eq_not_of_ne hmet, hv] at hfirst
    by_cases hmet' : met' = d
    · rw [hmet', ← Bool.not_not d, hv] at hfirst'
      exact hx.keeps st st' hviews hfirst hfirst'
    · rw [if_neg hmet', hv] at hout'
      cases v <;> cases hout'

/-- A conjunction keeps a verdict that both sides keep. -/
theorem Keeps.and (hx : Keeps v x x') (hy : Keeps v y y') :
    Keeps v (do if ← x then y else return false) (do if ← x' then y' else return false) :=
  hx.goOn true hy

theorem Keeps.or (hx : Keeps v x x') (hy : Keeps v y y') :
    Keeps v (do if ← x then return true else y) (do if ← x' then return true else y') := by
  have swap : ∀ a b : Run Bool,
      (do if (← a) = false then b else return true) = (do if ← a then return true else b) :=
    fun a b => bind_congr fun met => by cases met <;> rfl
  rw [← swap, ← swap]
  exact hx.goOn false hy

theorem Keeps.not (hx : Keeps (!v) x x') :
    Keeps v (do return !(← x)) (do return !(← x')) := by
  refine ⟨hx.calm.bind fun _ => calm_pure _, hx.calm'.bind fun _ => calm_pure _, ?_⟩
  intro st st' hviews hout hout'
  obtain ⟨met, hfirst, hout⟩ := outcome_bind_eq_ok.mp hout
  obtain ⟨met', hfirst', hout'⟩ := outcome_bind_eq_ok.mp hout'
  have hmet : (!met) = v := Except.ok.inj hout
  have hmet' : (!met') = !v := Except.ok.inj hout'
  rw [← Bool.not_not met, hmet] at hfirst
  rw [← Bool.not_not met', hmet'] at hfirst'
  exact hx.keeps st st' hviews hfirst hfirst'

end Keeps

end Run

open Run

/-- A body of a requirement keeps a verdict of another, not-met actions aside. -/
def RequirementBody.Keeps (v : Bool) (body body' : RequirementBody) : Prop :=
  ∀ c sideEffects,
    Run.Keeps v (body.silenced.check c sideEffects) (body'.silenced.check c sideEffects)

section Bodies

variable {v : Bool}

theorem RequirementBody.Keeps.all {members members' : List Requirement}
    (h : List.Forall₂ (fun q q' => RequirementBody.Keeps v q.body q'.body) members members') :
    RequirementBody.Keeps v (.all members) (.all members') := by
  intro c sideEffects
  simp only [RequirementBody.silenced, RequirementBody.check]
  induction h with
  | nil => exact .refl (reading_pure true)
  | cons hfirst _ ih =>
    simp only [silenceAll, allMet, Requirement.silenced_isMet]
    exact (hfirst c sideEffects).and ih

theorem RequirementBody.Keeps.any {members members' : List Requirement}
    (h : List.Forall₂ (fun q q' => RequirementBody.Keeps v q.body q'.body) members members') :
    RequirementBody.Keeps v (.any members) (.any members') := by
  intro c sideEffects
  simp only [RequirementBody.silenced, RequirementBody.check]
  induction h with
  | nil => exact .refl (reading_pure false)
  | cons hfirst _ ih =>
    simp only [silenceAll, anyMet, Requirement.silenced_isMet]
    exact (hfirst c false).or ih

theorem RequirementBody.Keeps.not {member member' : Requirement}
    (h : RequirementBody.Keeps (!v) member.body member'.body) :
    RequirementBody.Keeps v (.not member) (.not member') := by
  intro c sideEffects
  simp only [RequirementBody.silenced, RequirementBody.check, Requirement.silenced_isMet]
  exact (h c false).not

theorem RequirementBody.Keeps.refl {body : RequirementBody} (h : body.IsComparison) :
    RequirementBody.Keeps v body body := by
  intro c sideEffects
  have hsilenced : body.silenced = body := by
    cases body with
    | equality _ _ _ => rfl
    | comparison _ _ _ => rfl
    | _ => exact h.elim
  rw [hsilenced]
  exact .refl (RequirementBody.reading_check h c sideEffects)

end Bodies

/-! ### Repaired trees -/

/-- The node compiles to a requirement that decides one thing wherever it is evaluated. -/
structure Node.Decides (r : Registry) (sideEffects : Bool) (w : World) (n : Node) (b : Bool) :
    Prop where
  compiles : ¬ (n.requirement r sideEffects w).isDisabled
  calm : ∀ c sideEffects',
    Calm ((n.requirement r sideEffects w).body.silenced.check c sideEffects')
  verdict : ∀ c sideEffects' st,
    ((n.requirement r sideEffects w).body.silenced.check c sideEffects').outcome st = .ok b

mutual

/-- The second tree is the first, repaired: combinators have repaired members, comparisons
    that compile are the same, and a rejected node may be any that decides something.  The
    verdict `v` is what the repair has to keep; where that is no, a node repaired has to
    decide no.  Each tree is compiled in a world of its own. -/
inductive Repaired (r : Registry) : Bool → Bool → World → World → Node → Node → Prop
  | comparison {v sideEffects w w' n type} (hn : n.MadeBy r (.requirement type))
      (hcompares : type.Compares) (hcompiles : ¬ (n.requirement r sideEffects w).isDisabled) :
      Repaired r v sideEffects w w' n n
  | rejected {v sideEffects w w' n n' b} (hrejected : (n.requirement r sideEffects w).isDisabled)
      (hdecides : n'.Decides r sideEffects w' b) (hkept : v = false → b = false) :
      Repaired r v sideEffects w w' n n'
  | all {v sideEffects w w' n n'} (hn : n.MadeBy r (.requirement .all))
      (hn' : n'.MadeBy r (.requirement .all)) (hblock : (n.valueOf "value").IsBlock)
      (hblock' : (n'.valueOf "value").IsBlock)
      (hmembers : RepairedEach r v sideEffects w w' (n.valueOf "value").members
        (n'.valueOf "value").members) :
      Repaired r v sideEffects w w' n n'
  | any {v sideEffects w w' n n'} (hn : n.MadeBy r (.requirement .any))
      (hn' : n'.MadeBy r (.requirement .any)) (hblock : (n.valueOf "value").IsBlock)
      (hblock' : (n'.valueOf "value").IsBlock)
      (hmembers : RepairedEach r v false w w' (n.valueOf "value").members
        (n'.valueOf "value").members) :
      Repaired r v sideEffects w w' n n'
  | not {v sideEffects w w' n n'} (hn : n.MadeBy r (.requirement .not))
      (hn' : n'.MadeBy r (.requirement .not))
      (hcompiles : ¬ ((n.valueOf "value").requirement r false w).isDisabled)
      (hmember : Repaired r (!v) false w w' (n.valueOf "value") (n'.valueOf "value")) :
      Repaired r v sideEffects w w' n n'

/-- Members are repaired in order, each in the world that the compilation of those before it
    leaves. -/
inductive RepairedEach (r : Registry) :
    Bool → Bool → World → World → List Node → List Node → Prop
  | nil {v sideEffects w w'} : RepairedEach r v sideEffects w w' [] []
  | cons {v sideEffects w w' n n' rest rest'} (hfirst : Repaired r v sideEffects w w' n n')
      (hrest : RepairedEach r v sideEffects (compileRequirement r sideEffects n w).2
        (compileRequirement r sideEffects n' w').2 rest rest') :
      RepairedEach r v sideEffects w w' (n :: rest) (n' :: rest')

end

section Repaired

variable {r : Registry} {v sideEffects : Bool} {w w' : World} {n n' : Node}

/-- A negation is rejected with its operand. -/
theorem Node.rejected_not (hn : n.MadeBy r (.requirement .not))
    (h : ((n.valueOf "value").requirement r false w).isDisabled) :
    (n.requirement r sideEffects w).isDisabled := by
  rw [Requirement.isDisabled_iff, Node.requirement_not hn, if_pos h]

/-- The negation of what is decided is decided. -/
theorem Node.Decides.not {b : Bool} (hn : n.MadeBy r (.requirement .not))
    (h : (n.valueOf "value").Decides r false w b) : n.Decides r sideEffects w !b := by
  have hbody := Node.requirement_not hn sideEffects w
  rw [if_neg h.compiles] at hbody
  constructor
  · rw [Requirement.isDisabled_iff, hbody]
    simp
  · intro c sideEffects'
    rw [hbody, RequirementBody.silenced, RequirementBody.check, Requirement.silenced_isMet]
    exact (h.calm c false).bind fun _ => calm_pure _
  · intro c sideEffects' st
    rw [hbody, RequirementBody.silenced, RequirementBody.check, Requirement.silenced_isMet,
      outcome_bind, h.verdict c false st]
    rfl

/-- The operand of a negation may be repaired to decide anything, where yes is to be kept. -/
theorem Repaired.negated {b : Bool} (hn : n.MadeBy r (.requirement .not))
    (hn' : n'.MadeBy r (.requirement .not))
    (hrejected : ((n.valueOf "value").requirement r false w).isDisabled)
    (hdecides : (n'.valueOf "value").Decides r false w' b) :
    Repaired r true sideEffects w w' n n' :=
  .rejected (Node.rejected_not hn hrejected) (hdecides.not hn') (by simp)

theorem keeps_of_rejected {b : Bool} (hrejected : (n.requirement r sideEffects w).isDisabled)
    (hdecides : n'.Decides r sideEffects w' b) (hkept : v = false → b = false) :
    RequirementBody.Keeps v (n.requirement r sideEffects w).body
      (n'.requirement r sideEffects w').body := by
  rw [Requirement.isDisabled_iff] at hrejected
  intro c sideEffects'
  rw [hrejected]
  refine ⟨calm_pure false, hdecides.calm c sideEffects', fun st st' _ hout hout' => ?_⟩
  -- A rejected requirement decides no, so the verdict to keep is no, and so is the repaired one.
  have hv : v = false := (Except.ok.inj hout).symm
  rw [hdecides.verdict c sideEffects' st', hkept hv, hv] at hout'
  cases hout'

/-- A tree that is repaired keeps the verdict, and it compiles. -/
theorem Repaired.keeps (h : Repaired r v sideEffects w w' n n') :
    RequirementBody.Keeps v (n.requirement r sideEffects w).body
        (n'.requirement r sideEffects w').body ∧
      ¬ (n'.requirement r sideEffects w').isDisabled := by
  -- The induction is on the relation: a combinator compiles to the combinator of what its
  -- members compile to, and these keep their verdicts.
  refine @Repaired.rec r
    (fun v sideEffects w w' n n' _ =>
      RequirementBody.Keeps v (n.requirement r sideEffects w).body
          (n'.requirement r sideEffects w').body ∧
        ¬ (n'.requirement r sideEffects w').isDisabled)
    (fun v sideEffects w w' nodes nodes' _ =>
      List.Forall₂ (fun q q' => RequirementBody.Keeps v q.body q'.body)
        (compileRequirementEach r sideEffects nodes w).1
        (compileRequirementEach r sideEffects nodes' w').1)
    ?comparison ?rejected ?all ?any ?not ?nil ?cons v sideEffects w w' n n' h
  case comparison =>
    intro v sideEffects w w' n type hn hcompares hcompiles
    obtain ⟨hcomparison, hsame⟩ := Node.requirement_compares hn hcompares hcompiles
    rw [Requirement.isDisabled_iff, hsame w']
    rw [Requirement.isDisabled_iff] at hcompiles
    exact ⟨.refl hcomparison, hcompiles⟩
  case rejected =>
    intro v sideEffects w w' n n' b hrejected hdecides hkept
    exact ⟨keeps_of_rejected hrejected hdecides hkept, hdecides.compiles⟩
  case all =>
    intro v sideEffects w w' n n' hn hn' hblock hblock' _ hkeeps
    rw [Requirement.isDisabled_iff, Node.requirement_all hn hblock,
      Node.requirement_all hn' hblock']
    exact ⟨.all hkeeps, by simp⟩
  case any =>
    intro v sideEffects w w' n n' hn hn' hblock hblock' _ hkeeps
    rw [Requirement.isDisabled_iff, Node.requirement_any hn hblock,
      Node.requirement_any hn' hblock']
    exact ⟨.any hkeeps, by simp⟩
  case not =>
    intro v sideEffects w w' n n' hn hn' hcompiles _ hmember
    obtain ⟨hkeeps, hcompiles'⟩ := hmember
    rw [Requirement.isDisabled_iff, Node.requirement_not hn, Node.requirement_not hn',
      if_neg hcompiles, if_neg hcompiles']
    exact ⟨.not hkeeps, by simp⟩
  case nil =>
    intro v sideEffects w w'
    rw [compileRequirementEach_nil, compileRequirementEach_nil]
    exact .nil
  case cons =>
    intro v sideEffects w w' n n' rest rest' _ _ hfirst hrest
    rw [compileRequirementEach_cons, compileRequirementEach_cons]
    exact .cons hfirst.1 hrest

end Repaired

/-! ### Conditions that stay met -/

section Met

variable {c : ContextId} {sideEffects : Bool} {q : Requirement} {st st' : EngineState}

-- Not-met actions have no part in a verdict, and none in a panic before it.
theorem Requirement.check_of_isMet (h : q.isMet c sideEffects st = .ok true st') :
    (q.body.silenced.check c sideEffects).outcome st = .ok true := by
  rw [← Requirement.silenced_isMet]
  cases sideEffects with
  | false =>
    rw [Requirement.silenced_isMet_false]
    exact outcome_eq_ok.mpr ⟨st', h⟩
  | true =>
    rw [Requirement.isMet_eq, thenFire_apply] at h
    unfold outcome
    cases hverdict : q.silenced.isMet c true st with
    | error message st'' => rw [hverdict] at h; cases h
    | ok met st'' =>
      cases met with
      | true => rfl
      | false =>
        simp only [hverdict, bind_apply, pure_apply] at h
        cases hfire : fireAll c (q.unmetChain c st) st'' <;> rw [hfire] at h <;> cases h

theorem Requirement.isMet_of_check
    (h : (q.body.silenced.check c sideEffects).outcome st ≠ .ok false) :
    q.isMet c sideEffects st = q.body.silenced.check c sideEffects st := by
  rw [← Requirement.silenced_isMet] at h ⊢
  cases sideEffects with
  | false => rw [Requirement.silenced_isMet_false]
  | true =>
    rw [Requirement.isMet_eq, thenFire_apply]
    cases hverdict : q.silenced.isMet c true st with
    | error message st'' => rfl
    | ok met st'' =>
      cases met with
      | true => rfl
      | false => exact absurd (outcome_eq_ok.mpr ⟨st'', hverdict⟩) h

theorem Requirement.isMet_of_check_met
    (h : q.body.silenced.check c sideEffects st = .ok true st') :
    q.isMet c sideEffects st = .ok true st' := by
  have hverdict := outcome_eq_ok.mpr ⟨st', h⟩
  rw [Requirement.isMet_of_check (by rw [hverdict]; simp), h]

end Met

section Trees

variable {r : Registry} {sideEffects : Bool} {w w' : World} {n n' : Node}

/-- A condition that is met stays met when rejected requirements in it are repaired, unless
    the platform fails over a placeholder that is only now asked for. -/
theorem met_of_repaired (h : Repaired r true sideEffects w w' n n') (c : ContextId)
    (sideEffects' : Bool) {st st₁ : EngineState}
    (hmet : (n.requirement r sideEffects w).isMet c sideEffects' st = .ok true st₁) :
    (∃ st₂, (n'.requirement r sideEffects w').isMet c sideEffects' st = .ok true st₂) ∨
      ∃ message st₂, (n'.requirement r sideEffects w').isMet c sideEffects' st =
        .error message st₂ ∧ st.world.Faults message := by
  obtain ⟨hkeeps, -⟩ := h.keeps
  have hverdict := Requirement.check_of_isMet hmet
  have hkept := (hkeeps c sideEffects').keeps st st .rfl hverdict
  rw [Requirement.isMet_of_check hkept]
  exact (hkeeps c sideEffects').calm'.ok_or_fault hkept

end Trees

/-! ### A door for members -/

/-- The built-in types, and one of the application whose requirements are always met. -/
def doorTypes : Registry :=
  ({} : Registry).registerBuiltins.2.2.insert "member"
    ⟨18, .customRequirement fun _ _ => .ok fun _ => .done true⟩

def doorIsOpen : Node := .typed "==" (.list [.scalar (.bool true), .scalar (.bool true)])

/-- The door lets in, if it is open, others than members, whose type may be misspelt, and
    then everybody. -/
def door (typeKey : String) : Node :=
  .typed "||" (.list
    [.typed "&&" (.list [.typed "!" (.typed typeKey .null), doorIsOpen]), doorIsOpen])

theorem decides_member (w : World) :
    (Node.typed "member" .null).Decides doorTypes false w true := by
  have hmade : (Node.typed "member" .null).MadeBy doorTypes _ := Node.typed_madeBy _ rfl
  have hbody : ((Node.typed "member" .null).requirement doorTypes false w).body =
      .custom fun _ => .done true := by
    rw [Node.requirement_body hmade rfl, makeRequirement]
    rfl
  constructor
  · rw [Requirement.isDisabled_iff, hbody]
    simp
  · intro c sideEffects'
    rw [hbody]
    exact calm_pure true
  · intro c sideEffects' st
    rw [hbody]
    rfl

theorem rejected_membr (w : World) :
    ((Node.typed "membr" .null).requirement doorTypes false w).isDisabled := by
  have htype : ((Node.typed "membr" .null).getPresent? "type").bind Node.text? = some "membr" :=
    rfl
  exact Node.rejected_of_unknown htype rfl false w

theorem doorIsOpen_madeBy : doorIsOpen.MadeBy doorTypes (.requirement (.equal false)) :=
  Node.typed_madeBy _ rfl

theorem doorIsOpen_body (w : World) :
    (doorIsOpen.requirement doorTypes false w).body =
      .equality false ⟨.literal "true", none⟩ ⟨.literal "true", none⟩ := by
  rw [Node.requirement_body doorIsOpen_madeBy rfl, makeRequirement]
  rfl

theorem repaired_door (w w' : World) :
    Repaired doorTypes true true w w' (door "membr") (door "member") := by
  have hopen : ∀ w w', Repaired doorTypes true false w w' doorIsOpen doorIsOpen := by
    intro w w'
    refine .comparison doorIsOpen_madeBy trivial ?_
    rw [Requirement.isDisabled_iff, doorIsOpen_body]
    simp
  have hstranger : ∀ w w', Repaired doorTypes true false w w' (.typed "!" (.typed "membr" .null))
      (.typed "!" (.typed "member" .null)) := by
    intro w w'
    exact .negated (Node.typed_madeBy _ rfl) (Node.typed_madeBy _ rfl) (rejected_membr w)
      (decides_member w')
  refine .any (Node.typed_madeBy _ rfl) (Node.typed_madeBy _ rfl) (Node.isBlock_list _)
    (Node.isBlock_list _) ?_
  refine .cons ?_ (.cons (hopen _ _) .nil)
  refine .all (Node.typed_madeBy _ rfl) (Node.typed_madeBy _ rfl) (Node.isBlock_list _)
    (Node.isBlock_list _) ?_
  exact .cons (hstranger _ _) (.cons (hopen _ _) .nil)

theorem typed_all_body (first second : Node) (sideEffects : Bool) (w : World) :
    ((Node.typed "&&" (.list [first, second])).requirement doorTypes sideEffects w).body =
      .all [first.requirement doorTypes sideEffects w,
        second.requirement doorTypes sideEffects
          (compileRequirement doorTypes sideEffects first w).2] := by
  have hmade : (Node.typed "&&" (.list [first, second])).MadeBy doorTypes (.requirement .all) :=
    Node.typed_madeBy _ rfl
  rw [Node.requirement_all hmade (Node.isBlock_list _)]
  show RequirementBody.all (compileRequirementEach doorTypes sideEffects [first, second] w).1 = _
  rw [compileRequirementEach_cons, compileRequirementEach_cons, compileRequirementEach_nil]

theorem typed_any_body (first second : Node) (sideEffects : Bool) (w : World) :
    ((Node.typed "||" (.list [first, second])).requirement doorTypes sideEffects w).body =
      .any [first.requirement doorTypes false w,
        second.requirement doorTypes false (compileRequirement doorTypes false first w).2] := by
  have hmade : (Node.typed "||" (.list [first, second])).MadeBy doorTypes (.requirement .any) :=
    Node.typed_madeBy _ rfl
  rw [Node.requirement_any hmade (Node.isBlock_list _)]
  show RequirementBody.any (compileRequirementEach doorTypes false [first, second] w).1 = _
  rw [compileRequirementEach_cons, compileRequirementEach_cons, compileRequirementEach_nil]

theorem door_isMet (w : World) :
    ((door "membr").requirement doorTypes true w).isMet 0 true { world := {} } =
      .ok true { world := {} } := by
  have hstranger : ((Node.typed "!" (.typed "membr" .null)).requirement doorTypes false w).body =
      .idle := by
    have hmade : (Node.typed "!" (.typed "membr" .null)).MadeBy doorTypes (.requirement .not) :=
      Node.typed_madeBy _ rfl
    exact (Requirement.isDisabled_iff _).mp (Node.rejected_not hmade (rejected_membr w))
  have hcheck : ((door "membr").requirement doorTypes true w).body.silenced.check 0 true
      { world := {} } = .ok true { world := {} } := by
    rw [door, typed_any_body]
    simp only [RequirementBody.silenced, RequirementBody.check, silenceAll, anyMet, allMet,
      Requirement.silenced_isMet, typed_all_body, hstranger, doorIsOpen_body]
    rfl
  exact Requirement.isMet_of_check_met hcheck

/-- A visitor is let in at a door with a misspelt condition, and at the one that is meant. -/
theorem met_of_repaired_door :
    ((door "membr").requirement doorTypes true {}).isMet 0 true { world := {} } =
        .ok true { world := {} } ∧
      Repaired doorTypes true true {} {} (door "membr") (door "member") ∧
      ∃ st, ((door "member").requirement doorTypes true {}).isMet 0 true { world := {} } =
        .ok true st := by
  refine ⟨door_isMet {}, repaired_door {} {}, ?_⟩
  rcases met_of_repaired (repaired_door {} {}) 0 true (door_isMet {}) with hmet | hfault
  · exact hmet
  · obtain ⟨message, st, -, subject, name, hfault⟩ := hfault
    cases hfault

/-! ### Below a negation -/

/-- A negated conjunction whose first member is rejected is met, whatever the state. -/
theorem isMet_not_all_rejected {r : Registry} {sideEffects : Bool} {w : World} {n member : Node}
    {rest : List Node} (hn : n.MadeBy r (.requirement .not))
    (hall : (n.valueOf "value").MadeBy r (.requirement .all))
    (hmembers : ((n.valueOf "value").valueOf "value").members = member :: rest)
    (hrejected : (member.requirement r false w).isDisabled) (c : ContextId)
    (sideEffects' : Bool) (st : EngineState) :
    (n.requirement r sideEffects w).isMet c sideEffects' st = .ok true st := by
  have hoperand := Node.requirement_all hall (Node.isBlock_of_members hmembers) false w
  rw [hmembers, compileRequirementEach_cons] at hoperand
  have hcompiles : ¬ ((n.valueOf "value").requirement r false w).isDisabled := by
    rw [Requirement.isDisabled_iff, hoperand]
    simp
  have hbody := Node.requirement_not hn sideEffects w
  rw [if_neg hcompiles] at hbody
  rw [Requirement.isDisabled_iff] at hrejected
  -- The rejected member says no and ends the conjunction, and the negation turns that round.
  apply Requirement.isMet_of_check_met
  rw [hbody, RequirementBody.silenced, RequirementBody.check, Requirement.silenced_isMet,
    hoperand, RequirementBody.silenced, RequirementBody.check, silenceAll, allMet,
    Requirement.silenced_isMet, hrejected]
  rfl

end RuleEngine
