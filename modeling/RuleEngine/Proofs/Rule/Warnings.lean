/-
  RuleEngine/Proofs/Rule/Warnings.lean
  ====================================
  **One warning for every rejection.**

  A rule node that does not compile is reported once, where it is, and nowhere else: not
  by the rules around it, and not by a `!` that is rejected along with its operand.  So
  the warnings of a compilation can be counted on the sites that it visits, and there
  are none exactly if nothing was rejected anywhere and every block is one.  The rules
  beside a rejected one do not notice it (`compile_reports_rejections`).

  The counting goes by `Site.warnings`, which adds up along `Site.inner`.  There is one
  theorem for a node, given what is reported within it, and then the induction over the
  tree.
-/
import Mathlib.Algebra.Ring.Nat
import RuleEngine.Proofs.Rule.Sites
import RuleEngine.Proofs.Rule.Telling

namespace RuleEngine

/-! ### Warnings, site by site -/

/-- The requirement is a negation whose operand is rejected. -/
def Node.negatesRejected (r : Registry) (node : Node) : Bool :=
  (node.maker? r .requirement).any Maker.isNot &&
    (Site.requirement false (node.valueOf "value")).isRejected r

/-- The node at a site is rejected, and not only because its operand is. -/
def Site.rejectsItself (r : Registry) : Site → Bool
  | action node => (action node).isRejected r
  | requirement sideEffects node =>
    (requirement sideEffects node).isRejected r && !node.negatesRejected r
  | actions _ => false
  | requirements _ _ => false

/-- Something at the site itself is worth a warning. -/
def Site.complains (r : Registry) (s : Site) : Bool := s.rejectsItself r || s.isScalarBlock

/-- How many warnings are due to a site and what is within it. -/
def Site.warnings (r : Registry) (s : Site) : Nat := (s.visits r).countP (complains r)

def sitesWarnings (r : Registry) (sites : List Site) : Nat := (sites.map (Site.warnings r)).sum

section Counting

variable {r : Registry} {node block : Node} {sideEffects : Bool}

theorem sitesWarnings_singleton (s : Site) : sitesWarnings r [s] = s.warnings r := by
  simp [sitesWarnings]

theorem sitesWarnings_cons (s : Site) (rest : List Site) :
    sitesWarnings r (s :: rest) = s.warnings r + sitesWarnings r rest := by
  simp [sitesWarnings]

theorem sitesWarnings_append (first second : List Site) :
    sitesWarnings r (first ++ second) = sitesWarnings r first + sitesWarnings r second := by
  simp [sitesWarnings]

namespace Site

theorem warnings_eq (s : Site) :
    s.warnings r = (s.complains r).toNat + sitesWarnings r (s.inner r) := by
  unfold warnings sitesWarnings
  rw [visits_eq, List.countP_cons, List.countP_flatMap, Nat.add_comm]
  cases s.complains r <;> rfl

/-- An action without a maker is rejected, and nothing within it is compiled. -/
theorem warnings_action_of_none (h : node.maker? r .action = none)
    (hrejected : (action node).isRejected r = true) : (action node).warnings r = 1 := by
  rw [warnings_eq, inner, h, complains, rejectsItself, hrejected]
  rfl

/-- An action is due one warning if it is rejected, besides those from within its value. -/
theorem warnings_action_of_some {maker : Maker} (h : node.maker? r .action = some maker) :
    (action node).warnings r = ((action node).isRejected r).toNat +
      if node.isOpened r maker then
        sitesWarnings r (maker.sites false (node.valueOf "value")) else 0 := by
  rw [warnings_eq, inner, h, complains, rejectsItself, isScalarBlock, Bool.or_false]
  dsimp only
  split <;> rfl

/-- A requirement that is rejected keeps its not-met actions to itself. -/
theorem warnings_requirement_of_rejected
    (hrejected : (requirement sideEffects node).isRejected r = true) :
    (requirement sideEffects node).warnings r = (!node.negatesRejected r).toNat +
      match node.maker? r .requirement with
      | none => 0
      | some maker => sitesWarnings r (maker.sites sideEffects (node.valueOf "value")) := by
  rw [warnings_eq, inner, complains, rejectsItself, isScalarBlock, Bool.or_false, hrejected,
    Bool.not_true, Bool.and_false, if_neg Bool.false_ne_true, List.append_nil, Bool.true_and]
  cases node.maker? r .requirement <;> rfl

/-- A requirement that is kept warns of what is inside of it.  Its not-met actions are looked at
    only where side effects are. -/
theorem warnings_requirement_of_kept {maker : Maker} (h : node.maker? r .requirement = some maker)
    (hkept : (requirement sideEffects node).isRejected r = false) :
    (requirement sideEffects node).warnings r =
      sitesWarnings r (maker.sites sideEffects (node.valueOf "value")) +
        if sideEffects then (actions (node.valueOf "not-met-actions")).warnings r else 0 := by
  rw [warnings_eq, inner, h, complains, rejectsItself, isScalarBlock, Bool.or_false, hkept,
    sitesWarnings_append]
  cases sideEffects <;> simp [sitesWarnings]

theorem isScalarBlock_actions : (actions block).isScalarBlock = false ↔ block.IsBlock := by
  simp only [isScalarBlock, Node.IsBlock, Bool.and_eq_false_imp, beq_iff_eq, Bool.not_eq_false']
  exact Decidable.imp_iff_not_or

theorem isScalarBlock_requirements :
    (requirements sideEffects block).isScalarBlock = false ↔ block.IsBlock :=
  isScalarBlock_actions

theorem warnings_actions (h : block.IsBlock) :
    (actions block).warnings r = sitesWarnings r (block.members.map action) := by
  rw [warnings_eq, inner, complains, rejectsItself, isScalarBlock_actions.mpr h]
  exact Nat.zero_add _

theorem warnings_requirements (h : block.IsBlock) :
    (requirements sideEffects block).warnings r =
      sitesWarnings r (block.members.map (requirement sideEffects)) := by
  rw [warnings_eq, inner, complains, rejectsItself, isScalarBlock_requirements.mpr h]
  exact Nat.zero_add _

theorem warnings_actions_of_scalar (h : ¬ block.IsBlock) : (actions block).warnings r = 1 := by
  have hscalar : (actions block).isScalarBlock = true := by
    rw [← Bool.not_eq_false, isScalarBlock_actions]
    exact h
  obtain ⟨s, rfl, -⟩ := Node.scalar_of_not_isBlock h
  rw [warnings_eq, inner, complains, rejectsItself, hscalar]
  rfl

theorem warnings_requirements_of_scalar (h : ¬ block.IsBlock) :
    (requirements sideEffects block).warnings r = 1 := by
  have hscalar : (requirements sideEffects block).isScalarBlock = true := by
    rw [← Bool.not_eq_false, isScalarBlock_requirements]
    exact h
  obtain ⟨s, rfl, -⟩ := Node.scalar_of_not_isBlock h
  rw [warnings_eq, inner, complains, rejectsItself, hscalar]
  rfl

end Site

end Counting

/-! ### Looking factories up -/

theorem Node.maker?_of_not_map {r : Registry} {wanted : RuleKind} {node : Node}
    (h : node.shape ≠ .map) : node.maker? r wanted = none := by
  by_contra hsome
  obtain ⟨maker, hmaker⟩ := Option.ne_none_iff_exists'.mp hsome
  exact h (Node.shape_of_maker? hmaker)

/-- A node without a factory of the wanted kind is reported. -/
theorem Compile.findFactory_tells (r : Registry) (wanted : RuleKind) (node : Node) :
    (∃ typeKey id maker, node.maker? r wanted = some maker ∧
        Tells (findFactory r wanted node) (.ok (typeKey, ⟨id, maker⟩)) 0) ∨
      node.maker? r wanted = none ∧
        ∃ typeKey, Tells (findFactory r wanted node) (.error typeKey) 1 := by
  unfold findFactory Node.maker?
  cases (node.getPresent? "type").bind Node.text? with
  | none => exact Or.inr ⟨rfl, "?", tells_reject_bind _ _ _⟩
  | some typeKey =>
    cases hlookup : r.lookup? typeKey with
    | none =>
      refine Or.inr ⟨by simp [hlookup], typeKey, ?_⟩
      simp only [hlookup]
      exact tells_reject_bind _ _ _
    | some factory =>
      obtain ⟨id, maker⟩ := factory
      by_cases hkind : maker.kind = wanted
      · refine Or.inl ⟨typeKey, id, maker, by simp [hlookup, hkind], ?_⟩
        simp only [hlookup]
        rw [if_pos (show (⟨id, maker⟩ : Factory).kind = wanted from hkind)]
        exact tells_pure _
      · refine Or.inr ⟨by simp [hlookup, hkind], typeKey, ?_⟩
        simp only [hlookup]
        rw [if_neg (show ¬ (⟨id, maker⟩ : Factory).kind = wanted from hkind)]
        exact tells_reject_bind _ _ _

theorem Registry.Plain.maker {r : Registry} (plain : r.Plain) {wanted : RuleKind} {node : Node}
    {maker : Maker} (h : node.maker? r wanted = some maker) : maker.Plain := by
  obtain ⟨⟨typeKey, id, -, hlookup⟩, -⟩ := Node.maker?_eq_some.mp h
  exact plain typeKey _ hlookup

theorem Maker.eq_not_of_isNot {maker : Maker} (h : maker.isNot = true) :
    maker = .requirement .not := by
  cases maker with
  | requirement type =>
    cases type with
    | not => rfl
    | _ => cases h
  | _ => cases h

theorem Action.isDisabled_mk {typeKey : String} {chance : Formula} {body : ActionBody}
    (h : body ≠ .idle) : (Action.mk typeKey chance body).isDisabled = false := by
  cases body with
  | idle => exact absurd rfl h
  | _ => rfl

theorem Requirement.isDisabled_mk {typeKey : String} {body : RequirementBody}
    {notMet : List Action} (h : body ≠ .idle) :
    (Requirement.mk typeKey body notMet).isDisabled = false := by
  cases body with
  | idle => exact absurd rfl h
  | _ => rfl

theorem Compile.rejectRefusal_tells {refusal : Refusal} (h : refusal ≠ .error .nestedRejected)
    (typeKey : String) : Tells (rejectRefusal typeKey refusal) () 1 := by
  cases refusal with
  | panicked message? => exact tells_reject _ _
  | error cause =>
    cases cause with
    | nestedRejected => exact absurd rfl h
    | _ => exact tells_reject _ _

/-! ### Every node reports its own rejection

The two theorems that follow are about one node, given what is reported for the sites
within it. -/

section Nodes

variable {r : Registry} {node : Node}

open Compile

theorem Site.isRejected_action_of_tells {typeKey : String} {k : Nat}
    (h : Tells (compileAction r node) (.disabled typeKey) k) :
    (Site.action node).isRejected r = true := by
  rw [Site.isRejected, h.value]
  rfl

theorem Site.isRejected_requirement_of_tells {sideEffects : Bool} {typeKey : String} {k : Nat}
    (h : Tells (compileRequirement r sideEffects node) (.disabled typeKey) k) :
    (Site.requirement sideEffects node).isRejected r = true := by
  rw [Site.isRejected, h.value]
  rfl

section Action

variable {entries : List (String × Node)} {typeKey : String} {id : Nat} {maker : Maker}
  {inside : Nat}

/-- A chance that is not a formula keeps the body from being made. -/
theorem compileAction_tells_of_chance {cause : TemplateError}
    (hmaker : (Node.map entries).maker? r .action = some maker)
    (hfind : Tells (findFactory r .action (.map entries)) (.ok (typeKey, ⟨id, maker⟩)) 0)
    (hchance : chanceOf (.map entries) = .error cause) :
    ∃ a, Tells (compileAction r (.map entries)) a ((Site.action (.map entries)).warnings r) := by
  have htells : Tells (compileAction r (.map entries)) (.disabled typeKey) (0 + 1) := by
    rw [compileAction]
    refine hfind.bind ?_
    simp only [hchance]
    exact tells_reject_bind _ _ _
  have hrejected := Site.isRejected_action_of_tells htells
  have hclosed : (Node.map entries).isOpened r maker = false := by
    simp [Node.isOpened, hchance, hrejected, Except.toOption]
  rw [Site.warnings_action_of_some hmaker, hrejected, hclosed]
  exact ⟨_, htells⟩

/-- An action that its factory makes tells of what is inside of it, and of nothing else. -/
theorem compileAction_tells_of_made {chance : Formula} {body : ActionBody}
    (hmaker : (Node.map entries).maker? r .action = some maker)
    (hinside : sitesWarnings r (maker.sites false ((Node.map entries).valueOf "value")) = inside)
    (hfind : Tells (findFactory r .action (.map entries)) (.ok (typeKey, ⟨id, maker⟩)) 0)
    (hchance : chanceOf (.map entries) = .ok chance)
    (hmade : Make.Tells (makeAction r maker ((Node.map entries).valueOf "value")) (.ok body) inside)
    (hbody : body ≠ .idle) :
    ∃ a, Tells (compileAction r (.map entries)) a ((Site.action (.map entries)).warnings r) := by
  have htells : Tells (compileAction r (.map entries)) (.mk typeKey chance body)
      (0 + (inside + 0)) := by
    rw [compileAction]
    refine hfind.bind ?_
    simp only [hchance]
    refine hmade.run.bind ?_
    exact tells_pure _
  have hkept : (Site.action (.map entries)).isRejected r = false := by
    rw [Site.isRejected, htells.value]
    exact Action.isDisabled_mk hbody
  have hopened : (Node.map entries).isOpened r maker = true := by
    simp [Node.isOpened, hchance, hkept, Except.toOption]
  rw [Site.warnings_action_of_some hmaker, hkept, hopened, hinside]
  exact ⟨_, htells⟩

/-- Only a maker that refuses late has been inside its value by then. -/
theorem compileAction_tells_of_refused {chance : Formula} {refusal : Refusal}
    (hmaker : (Node.map entries).maker? r .action = some maker)
    (hinside : sitesWarnings r (maker.sites false ((Node.map entries).valueOf "value")) = inside)
    (hfind : Tells (findFactory r .action (.map entries)) (.ok (typeKey, ⟨id, maker⟩)) 0)
    (hchance : chanceOf (.map entries) = .ok chance)
    (hmade : Make.Tells (makeAction r maker ((Node.map entries).valueOf "value"))
      (.error refusal) (if maker.refusesLate then inside else 0))
    (hown : refusal ≠ .error .nestedRejected) :
    ∃ a, Tells (compileAction r (.map entries)) a ((Site.action (.map entries)).warnings r) := by
  have htells : Tells (compileAction r (.map entries)) (.disabled typeKey)
      (0 + ((if maker.refusesLate then inside else 0) + (1 + 0))) := by
    rw [compileAction]
    refine hfind.bind ?_
    simp only [hchance]
    refine hmade.run.bind ((rejectRefusal_tells hown typeKey).bind ?_)
    exact tells_pure _
  have hrejected := Site.isRejected_action_of_tells htells
  refine ⟨_, htells.congr ?_⟩
  rw [Site.warnings_action_of_some hmaker, Node.isOpened, hchance, hrejected, hinside]
  cases maker.refusesLate <;> simp [Except.toOption, Nat.add_comm]

end Action

/-- How the maker of an action node ends is all that there is to know. -/
theorem compileAction_tells_of_ends
    (ends : ∀ entries maker, node = .map entries → node.maker? r .action = some maker →
      Make.Ends (fun body => body ≠ .idle)
        (sitesWarnings r (maker.sites false (node.valueOf "value")))
        (if maker.refusesLate then
          sitesWarnings r (maker.sites false (node.valueOf "value")) else 0)
        (makeAction r maker (node.valueOf "value"))) :
    ∃ a, Tells (compileAction r node) a ((Site.action node).warnings r) := by
  by_cases hshape : node.shape = .map
  swap
  · have htells : Tells (compileAction r node) (.disabled "?") 1 := by
      rw [compileAction_of_not_map hshape]
      exact tells_reject_bind _ _ _
    have hrejected := Site.isRejected_action_of_tells htells
    rw [Site.warnings_action_of_none (Node.maker?_of_not_map hshape) hrejected]
    exact ⟨_, htells⟩
  obtain ⟨entries, rfl⟩ := Node.exists_eq_map hshape
  rcases findFactory_tells r .action (.map entries) with
    ⟨typeKey, id, maker, hmaker, hfind⟩ | ⟨hnone, typeKey, hfind⟩
  swap
  · have htells : Tells (compileAction r (.map entries)) (.disabled typeKey) (1 + 0) := by
      rw [compileAction]
      exact hfind.bind (tells_pure _)
    have hrejected := Site.isRejected_action_of_tells htells
    rw [Site.warnings_action_of_none hnone hrejected]
    exact ⟨_, htells⟩
  cases hchance : chanceOf (.map entries) with
  | error cause => exact compileAction_tells_of_chance hmaker hfind hchance
  | ok chance =>
    rcases ends entries maker rfl hmaker with ⟨body, hbody, hmade⟩ | ⟨refusal, hown, hmade⟩
    · exact compileAction_tells_of_made hmaker rfl hfind hchance hmade hbody
    · exact compileAction_tells_of_refused hmaker rfl hfind hchance hmade hown

/-- A negation is rejected without a word if its operand is. -/
theorem makeRequirement_not_tells {value : Node} {q : Requirement} {k : Nat}
    (h : Tells (compileRequirement r false value) q k) (sideEffects : Bool) :
    if (Site.requirement false value).isRejected r then
      Make.Tells (makeRequirement r sideEffects (.requirement .not) value)
        (.error (.error .nestedRejected)) k
    else ∃ body, body ≠ .idle ∧
      Make.Tells (makeRequirement r sideEffects (.requirement .not) value) (.ok body) k := by
  rw [Site.isRejected, h.value, makeRequirement]
  cases hdisabled : q.isDisabled with
  | true =>
    rw [if_pos rfl]
    refine (Make.tells_lift h).bind (m := 0) ?_
    simp only [hdisabled, if_true]
    exact (Make.tells_throw _).bind_error
  | false =>
    rw [if_neg Bool.false_ne_true]
    refine ⟨.not q, by simp, (Make.tells_lift h).bind (m := 0) ?_⟩
    simp only [hdisabled]
    exact Make.tells_pure _

section Requirement

variable {sideEffects : Bool} {entries : List (String × Node)} {typeKey : String} {id : Nat}
  {maker : Maker} {inside : Nat}

/-- A refusal keeps the not-met actions from being compiled. -/
theorem compileRequirement_tells_refused {refusal : Refusal} {k : Nat}
    (hfind : Tells (findFactory r .requirement (.map entries)) (.ok (typeKey, ⟨id, maker⟩)) 0)
    (hmade : Make.Tells (makeRequirement r sideEffects maker ((Node.map entries).valueOf "value"))
      (.error refusal) inside)
    (hreject : Tells (rejectRefusal typeKey refusal) () k) :
    Tells (compileRequirement r sideEffects (.map entries)) (.disabled typeKey) (inside + k) := by
  rw [compileRequirement]
  refine (hfind.bind (m := inside + k) ?_).congr (Nat.zero_add _)
  refine hmade.run.bind (hreject.bind (m := 0) ?_)
  exact tells_pure _

/-- The not-met actions are compiled after the body, if side effects are asked for. -/
theorem compileRequirement_tells_made {body : RequirementBody} {actions : List Action} {k : Nat}
    (hfind : Tells (findFactory r .requirement (.map entries)) (.ok (typeKey, ⟨id, maker⟩)) 0)
    (hmade : Make.Tells (makeRequirement r sideEffects maker ((Node.map entries).valueOf "value"))
      (.ok body) inside)
    (hactions : Tells (compileActions r ((Node.map entries).valueOf "not-met-actions")) actions k) :
    ∃ notMet, Tells (compileRequirement r sideEffects (.map entries)) (.mk typeKey body notMet)
      (inside + if sideEffects then k else 0) := by
  rw [compileRequirement]
  cases sideEffects with
  | true =>
    refine ⟨actions, (hfind.bind (m := inside + k) ?_).congr (Nat.zero_add _)⟩
    refine hmade.run.bind (hactions.bind (m := 0) ?_)
    exact tells_pure _
  | false =>
    refine ⟨[], (hfind.bind (m := inside + 0) ?_).congr (Nat.zero_add _)⟩
    refine hmade.run.bind ?_
    exact tells_pure _

/-- A requirement that its factory makes tells of what is inside of it, and with side effects of
    its not-met actions besides. -/
theorem compileRequirement_tells_of_made {body : RequirementBody} {actions : List Action}
    (hmaker : (Node.map entries).maker? r .requirement = some maker)
    (hinside : sitesWarnings r (maker.sites sideEffects ((Node.map entries).valueOf "value")) =
      inside)
    (hfind : Tells (findFactory r .requirement (.map entries)) (.ok (typeKey, ⟨id, maker⟩)) 0)
    (hmade : Make.Tells (makeRequirement r sideEffects maker ((Node.map entries).valueOf "value"))
      (.ok body) inside)
    (hbody : body ≠ .idle)
    (hactions : Tells (compileActions r ((Node.map entries).valueOf "not-met-actions")) actions
      ((Site.actions ((Node.map entries).valueOf "not-met-actions")).warnings r)) :
    ∃ q, Tells (compileRequirement r sideEffects (.map entries)) q
      ((Site.requirement sideEffects (.map entries)).warnings r) := by
  obtain ⟨notMet, htells⟩ := compileRequirement_tells_made hfind hmade hactions
  have hkept : (Site.requirement sideEffects (.map entries)).isRejected r = false := by
    rw [Site.isRejected, htells.value]
    exact Requirement.isDisabled_mk hbody
  rw [Site.warnings_requirement_of_kept hmaker hkept, hinside]
  exact ⟨_, htells⟩

end Requirement

/-- How the maker of a requirement node ends, and its not-met actions, are all that there
    is to know. -/
theorem compileRequirement_tells_of_ends {sideEffects : Bool}
    (ends : ∀ entries maker, node = .map entries → node.maker? r .requirement = some maker →
      maker.isNot = false →
        Make.Ends (fun body => body ≠ .idle)
          (sitesWarnings r (maker.sites sideEffects (node.valueOf "value")))
          (sitesWarnings r (maker.sites sideEffects (node.valueOf "value")))
          (makeRequirement r sideEffects maker (node.valueOf "value")))
    (operand : ∀ entries, node = .map entries →
      ∃ q, Tells (compileRequirement r false (node.valueOf "value")) q
        ((Site.requirement false (node.valueOf "value")).warnings r))
    (notMet : ∀ entries, node = .map entries →
      ∃ actions, Tells (compileActions r (node.valueOf "not-met-actions")) actions
        ((Site.actions (node.valueOf "not-met-actions")).warnings r)) :
    ∃ q, Tells (compileRequirement r sideEffects node) q
      ((Site.requirement sideEffects node).warnings r) := by
  by_cases hshape : node.shape = .map
  swap
  · have htells : Tells (compileRequirement r sideEffects node) (.disabled "?") 1 := by
      rw [compileRequirement_of_not_map hshape]
      exact tells_reject_bind _ _ _
    have hdisabled := Site.isRejected_requirement_of_tells htells
    refine ⟨_, htells.congr ?_⟩
    rw [Site.warnings_requirement_of_rejected hdisabled, Node.negatesRejected,
      Node.maker?_of_not_map hshape]
    rfl
  obtain ⟨entries, rfl⟩ := Node.exists_eq_map hshape
  rcases findFactory_tells r .requirement (.map entries) with
    ⟨typeKey, id, maker, hmaker, hfind⟩ | ⟨hnone, typeKey, hfind⟩
  swap
  · have htells : Tells (compileRequirement r sideEffects (.map entries)) (.disabled typeKey)
        (1 + 0) := by
      rw [compileRequirement]
      exact hfind.bind (tells_pure _)
    have hdisabled := Site.isRejected_requirement_of_tells htells
    refine ⟨_, htells.congr ?_⟩
    rw [Site.warnings_requirement_of_rejected hdisabled, Node.negatesRejected, hnone]
    rfl
  generalize hinside :
    sitesWarnings r (maker.sites sideEffects ((Node.map entries).valueOf "value")) = inside
  obtain ⟨actions, hactions⟩ := notMet entries rfl
  cases hnot : maker.isNot with
  | false =>
    rcases ends entries maker rfl hmaker hnot with ⟨body, hbody, hmade⟩ | ⟨refusal, hown, hmade⟩
    · exact compileRequirement_tells_of_made hmaker hinside hfind (hinside ▸ hmade) hbody hactions
    · have htells := compileRequirement_tells_refused hfind (hinside ▸ hmade)
        (rejectRefusal_tells hown typeKey)
      have hdisabled := Site.isRejected_requirement_of_tells htells
      refine ⟨_, htells.congr ?_⟩
      rw [Site.warnings_requirement_of_rejected hdisabled, Node.negatesRejected, hmaker]
      simp only [Option.any_some, hnot, hinside]
      exact Nat.add_comm _ _
  | true =>
    -- a negation goes the way of its operand, and has nothing to say of that itself
    obtain rfl := Maker.eq_not_of_isNot hnot
    obtain ⟨q, hoperand⟩ := operand entries rfl
    have hsame :
        (Site.requirement false ((Node.map entries).valueOf "value")).warnings r = inside := by
      rw [← hinside]
      exact (sitesWarnings_singleton _).symm
    rw [hsame] at hoperand
    have hmade := makeRequirement_not_tells hoperand sideEffects
    cases hrejected :
      (Site.requirement false ((Node.map entries).valueOf "value")).isRejected r with
    | true =>
      rw [hrejected, if_pos rfl] at hmade
      have htells := compileRequirement_tells_refused hfind hmade (tells_pure ())
      have hdisabled := Site.isRejected_requirement_of_tells htells
      refine ⟨_, htells.congr ?_⟩
      rw [Site.warnings_requirement_of_rejected hdisabled, Node.negatesRejected,
        hmaker, hrejected]
      simp only [Option.any_some, hnot, hinside]
      exact Nat.add_comm _ _
    | false =>
      rw [hrejected, if_neg Bool.false_ne_true] at hmade
      obtain ⟨body, hbody, hmade⟩ := hmade
      exact compileRequirement_tells_of_made hmaker hinside hfind hmade hbody hactions

end Nodes

/-! ### Whole trees -/

section Trees

variable {r : Registry}

open Compile CompileError

/-! The induction is on the size of the tree, as the recursion of the compiler is. -/

mutual

theorem compileAction_tells (plain : r.Plain) (node : Node) :
    ∃ a, Tells (compileAction r node) a ((Site.action node).warnings r) :=
  compileAction_tells_of_ends fun entries maker _hmap hmaker =>
    makeAction_ends plain (plain.maker hmaker) (Node.maker?_eq_some.mp hmaker).2
      (node.valueOf "value")
termination_by (node.size, 2)
decreasing_by
  subst _hmap
  exact Prod.Lex.left _ _ (Node.size_valueOf_lt _ _)

/-- A factory of actions makes no idle body, and tells of all that is inside of a value that it
    takes.  Of one that it refuses it tells only if it refuses late. -/
theorem makeAction_ends (plain : r.Plain) {maker : Maker} (hplain : maker.Plain)
    (hkind : maker.kind = .action) (value : Node) :
    Make.Ends (fun body => body ≠ .idle) (sitesWarnings r (maker.sites false value))
      (if maker.refusesLate then sitesWarnings r (maker.sites false value) else 0)
      (makeAction r maker value) := by
  match maker with
  | .action .chain =>
    obtain ⟨actions, h⟩ := compileActions_tells plain value
    rw [makeAction]
    change Make.Ends _ (sitesWarnings r [.actions value]) 0 _
    rw [sitesWarnings_singleton]
    exact Or.inl ⟨.chain actions, by simp, (Make.tells_lift h).bind (m := 0) (Make.tells_pure _)⟩
  | .action .delay =>
    obtain ⟨actions, h⟩ := compileActions_tells plain (value.valueOf "actions")
    rw [makeAction]
    change Make.Ends _ (sitesWarnings r [.actions (value.valueOf "actions")]) 0 _
    rw [sitesWarnings_singleton]
    refine Make.ends_ofExcept_bind (own_expectMap value) fun _ _ => ?_
    refine Make.ends_ofExcept_bind (own_ticks _ _ _) fun delay _ => ?_
    refine Make.ends_ofExcept_bind (own_execMode value) fun mode _ => ?_
    exact Or.inl ⟨.delay delay mode actions, by simp,
      (Make.tells_lift h).bind (m := 0) (Make.tells_pure _)⟩
  | .action .timer =>
    obtain ⟨actions, h⟩ := compileActions_tells plain (value.valueOf "actions")
    rw [makeAction]
    change Make.Ends _ (sitesWarnings r [.actions (value.valueOf "actions")]) 0 _
    rw [sitesWarnings_singleton]
    refine Make.ends_ofExcept_bind (own_expectMap value) fun _ _ => ?_
    refine Make.ends_ofExcept_bind (own_ticks _ _ _) fun period _ => ?_
    dsimp only
    split
    · exact Make.ends_fail_bind (by simp)
    refine Make.ends_ofExcept_bind (own_ticks _ _ _) fun delay _ => ?_
    refine Make.ends_ofExcept_bind (own_ticks _ _ _) fun duration _ => ?_
    refine Make.ends_ofExcept_bind (own_execMode value) fun mode _ => ?_
    exact Or.inl ⟨.timer delay period duration mode actions, by simp,
      (Make.tells_lift h).bind (m := 0) (Make.tells_pure _)⟩
  | .action .conditional =>
    obtain ⟨conditions, hconditions⟩ :=
      compileRequirements_tells plain false (value.valueOf "conditions")
    obtain ⟨actions, hactions⟩ := compileActions_tells plain (value.valueOf "actions")
    rw [makeAction]
    change Make.Ends _ (sitesWarnings r [.requirements false (value.valueOf "conditions"),
      .actions (value.valueOf "actions")]) 0 _
    rw [sitesWarnings_cons, sitesWarnings_singleton]
    refine Make.ends_ofExcept_bind (own_expectMap value) fun _ _ => ?_
    exact Or.inl ⟨.conditional conditions actions, by simp, (Make.tells_lift hconditions).bind
      ((Make.tells_lift hactions).bind (m := 0) (Make.tells_pure _))⟩
  | .action .priority =>
    match value with
    | .map entries =>
      rw [makeAction]
      exact (compileBranches_ends plain entries).bind_pure (fun _ _ => by simp)
    | .scalar s =>
      rw [makeAction_priority_of_not_map (by simp [Node.shape])]
      exact Make.ends_throw (by simp)
    | .list items =>
      rw [makeAction_priority_of_not_map (by simp [Node.shape])]
      exact Make.ends_throw (by simp)
  | .action .message =>
    rw [makeAction]
    exact Make.ends_ofExcept_bind (own_liftTemplate _) fun _ _ => Make.ends_pure (by simp)
  | .action .command =>
    rw [makeAction]
    exact Make.ends_ofExcept_bind (own_liftTemplate _) fun _ _ => Make.ends_pure (by simp)
  | .action .set =>
    rw [makeAction]
    refine Make.ends_ofExcept (own_setProperty value) fun body hset => ?_
    obtain ⟨key, text, rfl⟩ := eq_set_of_setProperty hset
    simp
  | .customAction make =>
    rw [makeAction]
    cases hmake : make value with
    | ok procedure => exact Make.ends_pure (by simp)
    | error refusal => exact Make.ends_throw fun h => hplain value (h ▸ hmake)
  | .guestAction _ => exact hplain.elim
  | .requirement _ => cases hkind
  | .guestRequirement _ => cases hkind
  | .customRequirement _ => cases hkind
termination_by (value.size, 3)
decreasing_by
  all_goals first
    | exact Prod.Lex.right _ (by omega)
    | exact valueOf_before _ value (by omega)
    | exact Prod.Lex.left _ _ (by simp [Node.size])

/-- Compiling a block of actions gives one warning for each that is due. -/
theorem compileActions_tells (plain : r.Plain) (block : Node) :
    ∃ actions, Tells (compileActions r block) actions ((Site.actions block).warnings r) := by
  by_cases h : block.IsBlock
  · rw [compileActions_eq h, Site.warnings_actions h]
    exact ⟨_, compileActionEach_tells plain block.members⟩
  · rw [compileActions_of_not_block h, Site.warnings_actions_of_scalar h]
    exact ⟨[], tells_reject_bind _ _ _⟩
termination_by (block.size, 1)
decreasing_by exact members_before block

theorem compileActionEach_tells (plain : r.Plain) (nodes : List Node) :
    Tells (compileActionEach r nodes) (nodes.map fun node => (compileAction r node {}).1)
      (sitesWarnings r (nodes.map .action)) := by
  match nodes with
  | [] => rw [compileActionEach]; exact tells_pure []
  | node :: rest =>
    obtain ⟨a, hfirst⟩ := compileAction_tells plain node
    rw [compileActionEach, List.map_cons, List.map_cons, sitesWarnings_cons, hfirst.value]
    exact hfirst.bind ((compileActionEach_tells plain rest).bind (m := 0) (tells_pure _))
termination_by (Node.itemsSize nodes, 0)
decreasing_by
  all_goals exact Prod.Lex.left _ _ (by simp only [Node.itemsSize]; omega)

theorem compileBranches_ends (plain : r.Plain) (entries : List (String × Node)) :
    Make.Ends (fun _ => True) (sitesWarnings r (branchSites entries))
      (sitesWarnings r (branchSites entries)) (compileBranches r entries) := by
  match entries with
  | [] => rw [compileBranches]; exact Make.ends_pure trivial
  | (name, .map branch) :: rest =>
    obtain ⟨conditions, hconditions⟩ :=
      compileRequirements_tells plain false ((Node.map branch).valueOf "conditions")
    obtain ⟨actions, hactions⟩ := compileActions_tells plain ((Node.map branch).valueOf "actions")
    rw [compileBranches, branchSites, sitesWarnings_cons, sitesWarnings_cons]
    refine (Make.tells_lift hconditions).bind_ends ((Make.tells_lift hactions).bind_ends ?_)
    exact (compileBranches_ends plain rest).bind_pure fun _ _ => trivial
  | (name, .scalar s) :: rest =>
    rw [compileBranches_of_not_map (by simp [Node.shape])]
    exact Make.ends_throw (by simp)
  | (name, .list items) :: rest =>
    rw [compileBranches_of_not_map (by simp [Node.shape])]
    exact Make.ends_throw (by simp)
termination_by (Node.entriesSize entries, 0)
decreasing_by
  all_goals
    first
    | exact Prod.Lex.left _ _ (by simp only [Node.entriesSize]; omega)
    | exact Prod.Lex.left _ _ (by
        have := Node.size_valueOf_lt "conditions" branch
        have := Node.size_valueOf_lt "actions" branch
        simp only [Node.entriesSize]
        omega)

/-- Compiling a requirement gives one warning for each that is due. -/
theorem compileRequirement_tells (plain : r.Plain) (sideEffects : Bool) (node : Node) :
    ∃ q, Tells (compileRequirement r sideEffects node) q
      ((Site.requirement sideEffects node).warnings r) :=
  compileRequirement_tells_of_ends
    (fun entries maker _hmap hmaker hnot =>
      makeRequirement_ends plain sideEffects (plain.maker hmaker)
        (Node.maker?_eq_some.mp hmaker).2 hnot (node.valueOf "value"))
    (fun entries _hmap => compileRequirement_tells plain false (node.valueOf "value"))
    (fun entries _hmap => compileActions_tells plain (node.valueOf "not-met-actions"))
termination_by (node.size, 2)
decreasing_by
  all_goals
    subst _hmap
    exact Prod.Lex.left _ _ (Node.size_valueOf_lt _ _)

/-- A factory of requirements, other than a negation, tells of all that is inside of a value, be
    the value refused or not. -/
theorem makeRequirement_ends (plain : r.Plain) (sideEffects : Bool) {maker : Maker}
    (hplain : maker.Plain) (hkind : maker.kind = .requirement) (hnot : maker.isNot = false)
    (value : Node) :
    Make.Ends (fun body => body ≠ .idle) (sitesWarnings r (maker.sites sideEffects value))
      (sitesWarnings r (maker.sites sideEffects value))
      (makeRequirement r sideEffects maker value) := by
  match maker with
  | .requirement .all =>
    obtain ⟨requirements, h⟩ := compileRequirements_tells plain sideEffects value
    rw [makeRequirement]
    change Make.Ends _ (sitesWarnings r [.requirements sideEffects value]) _ _
    rw [sitesWarnings_singleton]
    exact Or.inl ⟨.all requirements, by simp,
      (Make.tells_lift h).bind (m := 0) (Make.tells_pure _)⟩
  | .requirement .any =>
    obtain ⟨requirements, h⟩ := compileRequirements_tells plain false value
    rw [makeRequirement]
    change Make.Ends _ (sitesWarnings r [.requirements false value]) _ _
    rw [sitesWarnings_singleton]
    exact Or.inl ⟨.any requirements, by simp,
      (Make.tells_lift h).bind (m := 0) (Make.tells_pure _)⟩
  | .requirement .not => cases hnot
  | .requirement (.equal negated) =>
    rw [makeRequirement]
    exact Make.ends_ofExcept_bind (own_operands value) fun _ _ => Make.ends_pure (by simp)
  | .requirement (.compare relation) =>
    rw [makeRequirement]
    refine Make.ends_ofExcept_bind (own_operands value) fun _ _ => ?_
    refine Make.ends_ofExcept_bind (own_numericSide _ _) fun _ _ => ?_
    exact Make.ends_ofExcept_bind (own_numericSide _ _) fun _ _ => Make.ends_pure (by simp)
  | .requirement .cooldown =>
    rw [makeRequirement]
    refine Make.ends_ofExcept (own_cooldown value) fun body hcooldown => ?_
    obtain ⟨key, window, unit, rfl⟩ := eq_cooldown_of_cooldown hcooldown
    simp
  | .requirement .chance =>
    rw [makeRequirement]
    exact Make.ends_ofExcept_bind (own_liftTemplate _) fun _ _ => Make.ends_pure (by simp)
  | .customRequirement make =>
    rw [makeRequirement]
    cases hmake : make value sideEffects with
    | ok procedure => exact Make.ends_pure (by simp)
    | error refusal => exact Make.ends_throw fun h => hplain value sideEffects (h ▸ hmake)
  | .guestRequirement _ => exact hplain.elim
  | .action _ => cases hkind
  | .guestAction _ => cases hkind
  | .customAction _ => cases hkind
termination_by (value.size, 3)
decreasing_by
  all_goals exact Prod.Lex.right _ (by omega)

theorem compileRequirements_tells (plain : r.Plain) (sideEffects : Bool) (block : Node) :
    ∃ requirements, Tells (compileRequirements r sideEffects block) requirements
      ((Site.requirements sideEffects block).warnings r) := by
  by_cases h : block.IsBlock
  · rw [compileRequirements_eq h, Site.warnings_requirements h]
    exact ⟨_, compileRequirementEach_tells plain sideEffects block.members⟩
  · rw [compileRequirements_of_not_block h, Site.warnings_requirements_of_scalar h]
    exact ⟨[], tells_reject_bind _ _ _⟩
termination_by (block.size, 1)
decreasing_by exact members_before block

theorem compileRequirementEach_tells (plain : r.Plain) (sideEffects : Bool) (nodes : List Node) :
    Tells (compileRequirementEach r sideEffects nodes)
      (nodes.map fun node => (compileRequirement r sideEffects node {}).1)
      (sitesWarnings r (nodes.map (.requirement sideEffects))) := by
  match nodes with
  | [] => rw [compileRequirementEach]; exact tells_pure []
  | node :: rest =>
    obtain ⟨q, hfirst⟩ := compileRequirement_tells plain sideEffects node
    rw [compileRequirementEach, List.map_cons, List.map_cons, sitesWarnings_cons, hfirst.value]
    exact hfirst.bind
      ((compileRequirementEach_tells plain sideEffects rest).bind (m := 0) (tells_pure _))
termination_by (Node.itemsSize nodes, 0)
decreasing_by
  all_goals exact Prod.Lex.left _ _ (by simp only [Node.itemsSize]; omega)

end

end Trees

/-! ### Counting warnings -/

def World.ruleWarnings (w : World) : Nat :=
  w.notices.countP fun n => n.level == .warn && n.target == .rules

/-- A compilation adds its warnings to those of the world. -/
theorem Compile.Tells.ruleWarnings {α : Type} {x : Compile α} {a : α} {k : Nat}
    (h : Compile.Tells x a k) (w : World) : (x w).2.ruleWarnings = w.ruleWarnings + k := by
  obtain ⟨ns, rfl, hns, hx⟩ := h
  rw [hx]
  clear hx
  induction ns generalizing w with
  | nil => rfl
  | cons n rest ih =>
    obtain ⟨typeKey, reason, rfl⟩ := hns n List.mem_cons_self
    have hone : (w.report (.ruleDisabled typeKey reason)).ruleWarnings = w.ruleWarnings + 1 := by
      simp [World.ruleWarnings, World.report, Notice.level, Notice.target]
    have hrest := ih (w.report (.ruleDisabled typeKey reason)) fun n hn =>
      hns n (List.mem_cons_of_mem _ hn)
    rw [hone] at hrest
    rw [List.foldl_cons, List.length_cons]
    omega

section Sites

variable {r : Registry}

/-- Compiling a site reports the warnings that are due to it. -/
theorem Site.ruleWarnings_compiled (plain : r.Plain) (s : Site) (w : World) :
    (s.compiled r w).ruleWarnings = w.ruleWarnings + s.warnings r := by
  cases s with
  | action node =>
    obtain ⟨_, h⟩ := compileAction_tells plain node
    exact h.ruleWarnings w
  | requirement sideEffects node =>
    obtain ⟨_, h⟩ := compileRequirement_tells plain sideEffects node
    exact h.ruleWarnings w
  | actions block =>
    obtain ⟨_, h⟩ := compileActions_tells plain block
    exact h.ruleWarnings w
  | requirements sideEffects block =>
    obtain ⟨_, h⟩ := compileRequirements_tells plain sideEffects block
    exact h.ruleWarnings w

/-- A site complains of a node or of a block, and never of both. -/
theorem Site.countP_complains (sites : List Site) :
    sites.countP (Site.complains r) =
      sites.countP (Site.rejectsItself r) + sites.countP Site.isScalarBlock := by
  induction sites with
  | nil => rfl
  | cons s rest ih =>
    have hone : (s.complains r).toNat = (s.rejectsItself r).toNat + s.isScalarBlock.toNat := by
      cases s <;> simp [complains, rejectsItself, isScalarBlock]
    simp only [List.countP_cons, ih]
    cases hc : s.complains r <;> cases hr : s.rejectsItself r <;> cases hb : s.isScalarBlock <;>
      simp [hc, hr, hb] at hone ⊢ <;> omega

theorem Site.mem_visits_self (s : Site) : s ∈ s.visits r := by
  rw [visits_eq]
  exact List.mem_cons_self

/-- What is visited from a visited site is visited. -/
theorem Site.mem_visits_trans {s t u : Site} (ht : t ∈ s.visits r) (hu : u ∈ t.visits r) :
    u ∈ s.visits r := by
  induction hn : s.tree.size using Nat.strong_induction_on generalizing s with
  | _ n ih =>
    rw [visits_eq] at ht ⊢
    rcases List.mem_cons.mp ht with rfl | ht
    · rw [visits_eq] at hu
      exact hu
    · obtain ⟨v, hv, ht⟩ := List.mem_flatMap.mp ht
      have hlt : v.tree.size < n := hn ▸ size_lt_of_mem_inner hv
      exact List.mem_cons_of_mem _ (List.mem_flatMap.mpr ⟨v, hv, ih _ hlt ht rfl⟩)

/-- A rejection has a site of its own, be it that of an operand further down. -/
theorem Site.exists_rejectsItself {s : Site} (h : s.isRejected r = true) :
    ∃ t ∈ s.visits r, t.rejectsItself r = true := by
  induction hn : s.tree.size using Nat.strong_induction_on generalizing s with
  | _ n ih =>
    cases hown : s.rejectsItself r with
    | true => exact ⟨s, s.mem_visits_self, hown⟩
    | false =>
      -- only a negation is rejected for nothing of its own
      cases s with
      | action node => exact absurd (hown.symm.trans h) Bool.false_ne_true
      | actions block => cases h
      | requirements sideEffects block => cases h
      | requirement sideEffects node =>
        rw [rejectsItself, h, Bool.true_and, Bool.not_eq_false'] at hown
        obtain ⟨hnot, hoperand⟩ := Bool.and_eq_true_iff.mp hown
        cases hmaker : node.maker? r .requirement with
        | none => simp [hmaker] at hnot
        | some maker =>
          rw [hmaker, Option.any_some] at hnot
          obtain rfl := Maker.eq_not_of_isNot hnot
          have hinner : requirement false (node.valueOf "value") ∈
              (requirement sideEffects node).inner r := by
            rw [inner, hmaker]
            exact List.mem_append_left _ (List.mem_singleton.mpr rfl)
          obtain ⟨t, ht, hrejects⟩ := ih _ (hn ▸ size_lt_of_mem_inner hinner) hoperand rfl
          refine ⟨t, ?_, hrejects⟩
          rw [visits_eq]
          exact List.mem_cons_of_mem _ (List.mem_flatMap.mpr ⟨_, hinner, ht⟩)

/-- Nothing is due to a site exactly if nothing visited was rejected and every block is
    one. -/
theorem Site.warnings_eq_zero (s : Site) :
    s.warnings r = 0 ↔ ∀ t ∈ s.visits r, t.isRejected r = false ∧ t.isScalarBlock = false := by
  rw [warnings, List.countP_eq_zero]
  constructor
  · intro hquiet t ht
    have hnone : ∀ u ∈ s.visits r, u.rejectsItself r = false ∧ u.isScalarBlock = false := by
      intro u hu
      have hu := hquiet u hu
      rwa [complains, Bool.not_eq_true, Bool.or_eq_false_iff] at hu
    refine ⟨?_, (hnone t ht).2⟩
    rw [← Bool.not_eq_true]
    intro hrejected
    obtain ⟨u, hu, hown⟩ := exists_rejectsItself hrejected
    have hquietly := (hnone u (mem_visits_trans ht hu)).1
    rw [hown] at hquietly
    cases hquietly
  · intro hall t ht
    obtain ⟨hkept, hblock⟩ := hall t ht
    have hown : t.rejectsItself r = false := by
      cases t with
      | action node => exact hkept
      | requirement sideEffects node => rw [rejectsItself, hkept, Bool.false_and]
      | actions block => rfl
      | requirements sideEffects block => rfl
    rw [complains, hown, hblock]
    exact Bool.false_ne_true

end Sites

/-! ### Blocks, member by member -/

section Blocks

variable {r : Registry}

theorem compileActions_value (plain : r.Plain) (block : Node) (w : World) :
    (compileActions r block w).1 = block.members.map fun node => (compileAction r node {}).1 := by
  by_cases h : block.IsBlock
  · rw [compileActions_eq h]
    exact (compileActionEach_tells plain block.members).value w
  · rw [compileActions_of_not_block h]
    obtain ⟨s, rfl, -⟩ := Node.scalar_of_not_isBlock h
    rfl

theorem compileRequirements_value (plain : r.Plain) (sideEffects : Bool) (block : Node)
    (w : World) :
    (compileRequirements r sideEffects block w).1 =
      block.members.map fun node => (compileRequirement r sideEffects node {}).1 := by
  by_cases h : block.IsBlock
  · rw [compileRequirements_eq h]
    exact (compileRequirementEach_tells plain sideEffects block.members).value w
  · rw [compileRequirements_of_not_block h]
    obtain ⟨s, rfl, -⟩ := Node.scalar_of_not_isBlock h
    rfl

/-- The members of a block of actions that are rejected stay at their place as actions that
    do nothing, and the others are what they would be without them. -/
theorem compileActions_contains (plain : r.Plain) (block : Node) (w w' : World) :
    (compileActions r block w).1.map Action.isDisabled =
        block.members.map (fun node => (Site.action node).isRejected r) ∧
      (compileActions r
          (.list (block.members.filter fun node => !(Site.action node).isRejected r)) w').1 =
        (compileActions r block w).1.filter fun a => !a.isDisabled := by
  rw [compileActions_value plain, compileActions_value plain]
  constructor
  · rw [List.map_map]
    rfl
  · rw [List.filter_map]
    rfl

/-- A requirement that is rejected is disabled in its place, and the others are as they would be
    without it. -/
theorem compileRequirements_contains (plain : r.Plain) (sideEffects : Bool) (block : Node)
    (w w' : World) :
    (compileRequirements r sideEffects block w).1.map Requirement.isDisabled =
        block.members.map (fun node => (Site.requirement sideEffects node).isRejected r) ∧
      (compileRequirements r sideEffects
          (.list (block.members.filter fun node =>
            !(Site.requirement sideEffects node).isRejected r)) w').1 =
        (compileRequirements r sideEffects block w).1.filter fun q => !q.isDisabled := by
  rw [compileRequirements_value plain, compileRequirements_value plain]
  constructor
  · rw [List.map_map]
    rfl
  · rw [List.filter_map]
    rfl

end Blocks

/-- **Rejections are reported once, and contained.**  Wherever the compiler starts, it
    reports one warning about rules for every rule node that it visits and rejects for a
    reason of the node's own, and one for every block that it visits and that is a scalar
    other than null; so there is none exactly if it rejects nothing and every block is a
    map, a list or null.  The rules of a block stay in place: those that are rejected do
    nothing, and the others are what they would be if these were taken out of the block,
    wherever and whenever that is compiled. -/
theorem compile_reports_rejections {r : Registry} (plain : r.Plain) :
    (∀ (s : Site) (w : World),
      (s.compiled r w).ruleWarnings = w.ruleWarnings +
          ((s.visits r).countP (Site.rejectsItself r) + (s.visits r).countP Site.isScalarBlock) ∧
        ((s.compiled r w).ruleWarnings = w.ruleWarnings ↔
          ∀ t ∈ s.visits r, t.isRejected r = false ∧ t.isScalarBlock = false)) ∧
    (∀ (block : Node) (w w' : World),
      (compileActions r block w).1.map Action.isDisabled =
          block.members.map (fun node => (Site.action node).isRejected r) ∧
        (compileActions r
            (.list (block.members.filter fun node => !(Site.action node).isRejected r)) w').1 =
          (compileActions r block w).1.filter fun a => !a.isDisabled) ∧
    ∀ (sideEffects : Bool) (block : Node) (w w' : World),
      (compileRequirements r sideEffects block w).1.map Requirement.isDisabled =
          block.members.map (fun node => (Site.requirement sideEffects node).isRejected r) ∧
        (compileRequirements r sideEffects
            (.list (block.members.filter fun node =>
              !(Site.requirement sideEffects node).isRejected r)) w').1 =
          (compileRequirements r sideEffects block w).1.filter fun q => !q.isDisabled := by
  refine ⟨fun s w => ?_, compileActions_contains plain, compileRequirements_contains plain⟩
  rw [Site.ruleWarnings_compiled plain]
  constructor
  · rw [Site.warnings, Site.countP_complains]
  · rw [Nat.add_eq_left]
    exact s.warnings_eq_zero

def builtinTypes : Registry := ({} : Registry).registerBuiltins.2.2

def misspelt : Node := .typed "coldown" .null

theorem misspelt_isRejected (sideEffects : Bool) :
    (Site.requirement sideEffects misspelt).isRejected builtinTypes = true := by
  have htype : (misspelt.getPresent? "type").bind Node.text? = some "coldown" := rfl
  exact Node.rejected_of_unknown htype rfl sideEffects {}

theorem misspelt_visits :
    (Site.requirement false misspelt).visits builtinTypes = [.requirement false misspelt] := by
  have hmaker : misspelt.maker? builtinTypes .requirement = none := rfl
  rw [Site.visits_eq, Site.inner, hmaker, misspelt_isRejected]
  rfl

theorem not_misspelt_isRejected :
    (Site.requirement true (.typed "!" misspelt)).isRejected builtinTypes = true := by
  have hmade : (Node.typed "!" misspelt).MadeBy builtinTypes (.requirement .not) :=
    Node.typed_madeBy _ rfl
  refine (Requirement.isDisabled_iff _).mpr ?_
  exact (Node.requirement_not hmade true {}).trans (if_pos (misspelt_isRejected false))

/-- A misspelt condition is reported once, although the negation around it is rejected with
    it. -/
theorem compile_reports_rejections_misspelt :
    let s : Site := .requirements true (.list [.typed "!" misspelt])
    builtinTypes.Plain ∧ (s.visits builtinTypes).length = 3 ∧
      (s.compiled builtinTypes {}).ruleWarnings = 1 := by
  intro s
  have hmaker : (Node.typed "!" misspelt).maker? builtinTypes .requirement =
      some (.requirement .not) := rfl
  have hvisits : s.visits builtinTypes =
      [s, .requirement true (.typed "!" misspelt), .requirement false misspelt] := by
    have hnegation : (Site.requirement true (.typed "!" misspelt)).visits builtinTypes =
        [.requirement true (.typed "!" misspelt), .requirement false misspelt] := by
      rw [Site.visits_eq, Site.inner, hmaker, not_misspelt_isRejected]
      exact congrArg (List.cons _ <| · ++ []) misspelt_visits
    rw [Site.visits_eq]
    exact congrArg (List.cons _ <| · ++ []) hnegation
  have plain : builtinTypes.Plain := Registry.plain_empty.registerBuiltins
  refine ⟨plain, by rw [hvisits]; rfl, ?_⟩
  have hnegates : (Node.typed "!" misspelt).negatesRejected builtinTypes = true := by
    rw [Node.negatesRejected, hmaker]
    exact misspelt_isRejected false
  have hquiet :
      (Site.requirement true (.typed "!" misspelt)).rejectsItself builtinTypes = false := by
    rw [Site.rejectsItself, hnegates]
    exact Bool.and_false _
  have hown : (Site.requirement false misspelt).rejectsItself builtinTypes = true := by
    rw [Site.rejectsItself, misspelt_isRejected]
    rfl
  have hcount : (s.visits builtinTypes).countP (Site.rejectsItself builtinTypes) = 1 := by
    have hblock : s.rejectsItself builtinTypes = false := rfl
    simp [hvisits, hblock, hquiet, hown]
  have hscalars : (s.visits builtinTypes).countP Site.isScalarBlock = 0 := by
    rw [hvisits]
    rfl
  rw [((compile_reports_rejections plain).1 s {}).1, hcount, hscalars]
  rfl

end RuleEngine
