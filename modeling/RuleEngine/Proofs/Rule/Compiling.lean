/-
  RuleEngine/Proofs/Rule/Compiling.lean
  =====================================
  **What requirement nodes compile to.**

  The compiler is opened here once.  For a node whose type is known, the body of its
  requirement is what the maker of the type makes of the value, or idle if the maker
  refuses (`Node.requirement_body`).  There is one equation for each of the makers that
  compile further nodes, and comparisons are made from their value alone.
-/
import RuleEngine.Rule.Compile
import RuleEngine.Proofs.Rule.Reading

namespace RuleEngine

/-! ### Steps of compilation -/

section Steps

variable {α β : Type}

theorem Compile.bind_apply (x : Compile α) (f : α → Compile β) (w : World) :
    (x >>= f) w = f (x w).1 (x w).2 := rfl

theorem Make.bind_apply (x : Make α) (f : α → Make β) (w : World) :
    (x >>= f) w =
      match x w with
      | (.ok a, w') => f a w'
      | (.error refusal, w') => (.error refusal, w') := by
  show (ExceptT.bindCont f (x w).1) (x w).2 = _
  rcases x w with ⟨a | refusal, w'⟩ <;> rfl

theorem Make.lift_apply (x : Compile α) (w : World) :
    (liftM x : Make α) w = (.ok (x w).1, (x w).2) := rfl

theorem Make.run_apply (x : Make α) (w : World) : x.run w = x w := rfl

theorem Make.ofExcept_apply (x : Except CompileError α) (w : World) :
    Make.ofExcept x w = (x.mapError .error, w) := by
  cases x <;> rfl

theorem Make.ofExcept_bind_eq_ok {x : Except CompileError α} {f : α → Make β} {w : World} {b : β} :
    ((Make.ofExcept x >>= f) w).1 = .ok b ↔ ∃ a, x = .ok a ∧ (f a w).1 = .ok b := by
  rw [bind_apply, ofExcept_apply]
  cases x <;> simp [Except.mapError]

end Steps

variable {r : Registry} {n value : Node} {maker : Maker}

/-! ### What is no rule node -/

theorem Node.exists_eq_map (h : n.shape = .map) : ∃ entries, n = .map entries := by
  cases n with
  | map entries => exact ⟨entries, rfl⟩
  | scalar s => cases h
  | list items => cases h

theorem compileAction_of_not_map (h : n.shape ≠ .map) :
    compileAction r n = (do
      Compile.reject "?" (.failed (.shape .ruleMap n.shape))
      return .disabled "?") := by
  rw [compileAction]
  rintro entries rfl
  exact h rfl

theorem compileRequirement_of_not_map (h : n.shape ≠ .map) (sideEffects : Bool) :
    compileRequirement r sideEffects n = (do
      Compile.reject "?" (.failed (.shape .ruleMap n.shape))
      return .disabled "?") := by
  rw [compileRequirement]
  rintro entries rfl
  exact h rfl

/-! ### Nodes of a known type -/

/-- The node is of a type whose rules the maker makes. -/
def Node.MadeBy (r : Registry) (n : Node) (maker : Maker) : Prop :=
  ∃ typeKey id, (n.getPresent? "type").bind Node.text? = some typeKey ∧
    r.lookup? typeKey = some ⟨id, maker⟩

def Node.typed (typeKey : String) (value : Node) : Node :=
  .map [("type", .ofText typeKey), ("value", value)]

/-- A node of a registered type is made by the maker of the type. -/
theorem Node.typed_madeBy {r : Registry} {typeKey : String} {id : Nat} {maker : Maker}
    (value : Node) (h : r.lookup? typeKey = some ⟨id, maker⟩) :
    (Node.typed typeKey value).MadeBy r maker := ⟨typeKey, id, rfl, h⟩

def Node.requirement (r : Registry) (sideEffects : Bool) (w : World) (n : Node) : Requirement :=
  (compileRequirement r sideEffects n w).1

theorem Node.MadeBy.isMap (h : n.MadeBy r maker) : ∃ entries, n = .map entries := by
  obtain ⟨typeKey, id, htype, -⟩ := h
  cases n with
  | map entries => exact ⟨entries, rfl⟩
  | scalar s => cases htype
  | list items => cases htype

theorem Compile.findFactory_of_type {typeKey : String} {id : Nat}
    (htype : (n.getPresent? "type").bind Node.text? = some typeKey)
    (hlookup : r.lookup? typeKey = some ⟨id, maker⟩) (w : World) :
    Compile.findFactory r maker.kind n w = (.ok (typeKey, ⟨id, maker⟩), w) := by
  unfold Compile.findFactory
  rw [htype]
  dsimp only
  rw [hlookup]
  dsimp only
  rw [if_pos (show (⟨id, maker⟩ : Factory).kind = maker.kind from rfl)]
  rfl

/-- A requirement node of a known type compiles to what its maker makes of the value. -/
theorem compileRequirement_eq {typeKey : String} {id : Nat}
    (htype : (n.getPresent? "type").bind Node.text? = some typeKey)
    (hlookup : r.lookup? typeKey = some ⟨id, maker⟩) (hkind : maker.kind = .requirement)
    (sideEffects : Bool) (w : World) :
    compileRequirement r sideEffects n w =
      match makeRequirement r sideEffects maker (n.valueOf "value") w with
      | (.error refusal, w') =>
        (.disabled typeKey, (Compile.rejectRefusal typeKey refusal w').2)
      | (.ok body, w') =>
        if sideEffects then
          (.mk typeKey body (compileActions r (n.valueOf "not-met-actions") w').1,
            (compileActions r (n.valueOf "not-met-actions") w').2)
        else (.mk typeKey body [], w') := by
  have hmade : n.MadeBy r maker := ⟨typeKey, id, htype, hlookup⟩
  obtain ⟨entries, rfl⟩ := hmade.isMap
  have hfind := Compile.findFactory_of_type htype hlookup w
  rw [hkind] at hfind
  rw [compileRequirement, Compile.bind_apply, hfind]
  dsimp only
  rw [Compile.bind_apply, Make.run_apply]
  rcases makeRequirement r sideEffects maker ((Node.map entries).valueOf "value") w with
    ⟨refusal | body, w'⟩
  · rfl
  · cases sideEffects <;> rfl

/-- The requirement of a node decides what its factory makes, and nothing if that refuses. -/
theorem Node.requirement_body (h : n.MadeBy r maker) (hkind : maker.kind = .requirement)
    (sideEffects : Bool) (w : World) :
    (n.requirement r sideEffects w).body =
      match (makeRequirement r sideEffects maker (n.valueOf "value") w).1 with
      | .ok body => body
      | .error _ => .idle := by
  obtain ⟨typeKey, id, htype, hlookup⟩ := h
  unfold Node.requirement
  rw [compileRequirement_eq htype hlookup hkind]
  rcases makeRequirement r sideEffects maker (n.valueOf "value") w with ⟨refusal | body, w'⟩
  · rfl
  · cases sideEffects <;> rfl

/-- An action node of a known type compiles to what its maker makes of the value, if its chance
    is one. -/
theorem compileAction_eq {typeKey : String} {id : Nat}
    (htype : (n.getPresent? "type").bind Node.text? = some typeKey)
    (hlookup : r.lookup? typeKey = some ⟨id, maker⟩) (hkind : maker.kind = .action)
    {chance : Formula} (hchance : chanceOf n = .ok chance) (w : World) :
    compileAction r n w =
      match makeAction r maker (n.valueOf "value") w with
      | (.ok body, w') => (.mk typeKey chance body, w')
      | (.error refusal, w') =>
        (.disabled typeKey, (Compile.rejectRefusal typeKey refusal w').2) := by
  have hmade : n.MadeBy r maker := ⟨typeKey, id, htype, hlookup⟩
  obtain ⟨entries, rfl⟩ := hmade.isMap
  have hfind := Compile.findFactory_of_type htype hlookup w
  rw [hkind] at hfind
  rw [compileAction, Compile.bind_apply, hfind]
  dsimp only
  rw [hchance]
  dsimp only
  rw [Compile.bind_apply, Make.run_apply]
  rcases makeAction r maker ((Node.map entries).valueOf "value") w with ⟨refusal | body, w'⟩
  · rfl
  · rfl

/-- The body of a compiled action is what its factory makes, and idle if it makes none. -/
theorem compileAction_body (h : n.MadeBy r maker) (hkind : maker.kind = .action)
    {chance : Formula} (hchance : chanceOf n = .ok chance) (w : World) :
    (compileAction r n w).1.body =
      match (makeAction r maker (n.valueOf "value") w).1 with
      | .ok body => body
      | .error _ => .idle := by
  obtain ⟨typeKey, id, htype, hlookup⟩ := h
  rw [compileAction_eq htype hlookup hkind hchance]
  rcases makeAction r maker (n.valueOf "value") w with ⟨refusal | body, w'⟩
  · rfl
  · rfl

theorem Requirement.isDisabled_iff (q : Requirement) : q.isDisabled ↔ q.body = .idle := by
  unfold Requirement.isDisabled
  cases q.body <;> simp

/-- A node of a type that nobody registered is rejected. -/
theorem Node.rejected_of_unknown {typeKey : String}
    (htype : (n.getPresent? "type").bind Node.text? = some typeKey)
    (hlookup : r.lookup? typeKey = none) (sideEffects : Bool) (w : World) :
    (n.requirement r sideEffects w).isDisabled := by
  have hfind : Compile.findFactory r .requirement n w =
      (.error typeKey, w.report (.ruleDisabled typeKey .unknownType)) := by
    unfold Compile.findFactory
    rw [htype]
    dsimp only
    rw [hlookup]
    rfl
  unfold Node.requirement
  cases n with
  | map entries =>
    rw [compileRequirement, Compile.bind_apply, hfind]
    rfl
  | scalar s => cases htype
  | list items => cases htype

/-! ### Blocks -/

/-- A list or a map of rules, or nothing in its place. -/
def Node.IsBlock (n : Node) : Prop := n.shape ≠ .scalar ∨ n.isNull

theorem Node.isBlock_list (items : List Node) : (Node.list items).IsBlock := by
  left
  simp [Node.shape]

theorem Node.isBlock_of_members {member : Node} {rest : List Node}
    (h : value.members = member :: rest) : value.IsBlock := by
  left
  intro hscalar
  cases value with
  | scalar s => cases h
  | list items => cases hscalar
  | map entries => cases hscalar

theorem Node.scalar_of_not_isBlock (h : ¬ value.IsBlock) :
    ∃ s, value = .scalar s ∧ value.isNull = false := by
  cases value with
  | scalar s => exact ⟨s, rfl, by simpa [Node.IsBlock, Node.shape] using h⟩
  | list items => exact absurd (Or.inl (by simp [Node.shape])) h
  | map entries => exact absurd (Or.inl (by simp [Node.shape])) h

/-- The members of a block are compiled after the block. -/
theorem members_before (block : Node) :
    Prod.Lex (· < ·) (· < ·) (Node.itemsSize block.members, 0) (block.size, 1) := by
  cases block with
  | scalar s => exact Prod.Lex.right _ Nat.zero_lt_one
  | list items => exact Prod.Lex.left _ _ (Node.itemsSize_members_lt _ (by simp [Node.shape]))
  | map entries => exact Prod.Lex.left _ _ (Node.itemsSize_members_lt _ (by simp [Node.shape]))

/-- The members of a block of actions are compiled one after another. -/
theorem compileActions_eq (h : value.IsBlock) :
    compileActions r value = compileActionEach r value.members := by
  rw [compileActions]
  cases value with
  | scalar s =>
    have hnull : (Node.scalar s).isNull := h.resolve_left fun hs => hs rfl
    simp [Node.shape, Node.members, hnull, compileActionEach]
  | list items => rfl
  | map entries => rfl

/-- What is no block is rejected, and no action is made of it. -/
theorem compileActions_of_not_block (h : ¬ value.IsBlock) :
    compileActions r value = (do
      Compile.reject "actions" (.failed (.shape .actionBlock .scalar))
      return []) := by
  obtain ⟨s, rfl, hnull⟩ := Node.scalar_of_not_isBlock h
  rw [compileActions]
  simp [Node.shape, hnull]

theorem compileRequirements_of_not_block (h : ¬ value.IsBlock) (sideEffects : Bool) :
    compileRequirements r sideEffects value = (do
      Compile.reject "conditions" (.failed (.shape .requirementBlock .scalar))
      return []) := by
  obtain ⟨s, rfl, hnull⟩ := Node.scalar_of_not_isBlock h
  rw [compileRequirements]
  simp [Node.shape, hnull]

/-- The members of a block of requirements are compiled one after another. -/
theorem compileRequirements_eq (h : value.IsBlock) (sideEffects : Bool) :
    compileRequirements r sideEffects value =
      compileRequirementEach r sideEffects value.members := by
  rw [compileRequirements]
  cases value with
  | scalar s =>
    have hnull : (Node.scalar s).isNull := h.resolve_left fun hs => hs rfl
    simp [Node.shape, Node.members, hnull, compileRequirementEach]
  | list items => rfl
  | map entries => rfl

theorem compileRequirementEach_nil (sideEffects : Bool) (w : World) :
    (compileRequirementEach r sideEffects [] w).1 = [] := by
  rw [compileRequirementEach]
  rfl

theorem compileRequirementEach_cons (sideEffects : Bool) (rest : List Node) (w : World) :
    (compileRequirementEach r sideEffects (n :: rest) w).1 =
      n.requirement r sideEffects w ::
        (compileRequirementEach r sideEffects rest (compileRequirement r sideEffects n w).2).1 := by
  rw [compileRequirementEach]
  rfl

/-! ### What is no branch -/

theorem makeAction_priority_of_not_map (h : value.shape ≠ .map) :
    makeAction r (.action .priority) value = Make.fail (.shape .map value.shape) := by
  rw [makeAction]
  rintro entries rfl
  exact h rfl

theorem compileBranches_of_not_map (h : value.shape ≠ .map) (name : String)
    (rest : List (String × Node)) :
    compileBranches r ((name, value) :: rest) =
      Make.fail (.invalidValue name (.notBranch value.shape)) := by
  rw [compileBranches]
  rintro entries rfl
  exact h rfl

/-! ### The bodies of leaves -/

theorem CompileError.bind_eq_ok {α β : Type} {x : Except CompileError α}
    {f : α → Except CompileError β} {b : β} :
    (x >>= f) = .ok b ↔ ∃ a, x = .ok a ∧ f a = .ok b := by
  cases x with
  | ok a => simp [bind, Except.bind]
  | error cause => simp [bind, Except.bind]

theorem CompileError.liftTemplate_eq_ok {α : Type} {x : Except TemplateError α} {a : α} :
    liftTemplate x = .ok a ↔ x = .ok a := by
  cases x <;> simp [liftTemplate, Except.mapError]

theorem CompileError.eq_set_of_setProperty {body : ActionBody}
    (h : CompileError.setProperty value = .ok body) : ∃ key text, body = .set key text := by
  unfold CompileError.setProperty at h
  split at h
  · cases h
  · split at h
    · cases h
    · obtain ⟨text, -, hbody⟩ := bind_eq_ok.mp h
      exact ⟨_, text, (Except.ok.inj hbody).symm⟩

theorem CompileError.eq_cooldown_of_cooldown {body : RequirementBody}
    (h : CompileError.cooldown value = .ok body) :
    ∃ key window unit, body = .cooldown key window unit := by
  obtain ⟨-, -, h⟩ := bind_eq_ok.mp h
  split at h
  · cases h
  · obtain ⟨key, -, h⟩ := bind_eq_ok.mp h
    split at h
    · obtain ⟨window, -, hbody⟩ := bind_eq_ok.mp h
      exact ⟨key, window, 1000, (Except.ok.inj hbody).symm⟩
    · obtain ⟨window, -, hbody⟩ := bind_eq_ok.mp h
      exact ⟨key, window, 1, (Except.ok.inj hbody).symm⟩
    · cases h
    · cases h

/-! ### The bodies of combinators -/

theorem Node.requirement_all (h : n.MadeBy r (.requirement .all))
    (hblock : (n.valueOf "value").IsBlock) (sideEffects : Bool) (w : World) :
    (n.requirement r sideEffects w).body =
      .all (compileRequirementEach r sideEffects (n.valueOf "value").members w).1 := by
  rw [Node.requirement_body h rfl, makeRequirement, compileRequirements_eq hblock]
  rfl

theorem Node.requirement_any (h : n.MadeBy r (.requirement .any))
    (hblock : (n.valueOf "value").IsBlock) (sideEffects : Bool) (w : World) :
    (n.requirement r sideEffects w).body =
      .any (compileRequirementEach r false (n.valueOf "value").members w).1 := by
  rw [Node.requirement_body h rfl, makeRequirement, compileRequirements_eq hblock]
  rfl

/-- A negation of a rejected operand is a rule that does nothing. -/
theorem Node.requirement_not (h : n.MadeBy r (.requirement .not)) (sideEffects : Bool)
    (w : World) :
    (n.requirement r sideEffects w).body =
      if ((n.valueOf "value").requirement r false w).isDisabled then .idle
      else .not ((n.valueOf "value").requirement r false w) := by
  rw [Node.requirement_body h rfl, makeRequirement, Make.bind_apply, Make.lift_apply]
  dsimp only
  unfold Node.requirement
  cases (compileRequirement r false (n.valueOf "value") w).1.isDisabled <;> rfl

/-! ### The bodies of comparisons -/

def RequirementType.Compares : RequirementType → Prop
  | .equal _ | .compare _ => True
  | _ => False

section Comparison

variable {type : RequirementType}

open CompileError

theorem makeRequirement_compares_eq (h : type.Compares) (sideEffects : Bool) (w w' : World) :
    (makeRequirement r sideEffects (.requirement type) value w).1 =
      (makeRequirement r sideEffects (.requirement type) value w').1 := by
  cases type with
  | equal negated =>
    rw [makeRequirement, Make.bind_apply, Make.bind_apply, Make.ofExcept_apply, Make.ofExcept_apply]
    cases operands value <;> rfl
  | compare relation =>
    rw [makeRequirement, Make.bind_apply, Make.bind_apply, Make.ofExcept_apply, Make.ofExcept_apply]
    cases operands value with
    | error cause => rfl
    | ok sides =>
      dsimp only [Except.mapError]
      rw [Make.bind_apply, Make.bind_apply, Make.ofExcept_apply, Make.ofExcept_apply]
      cases numericSide "left" sides.1 with
      | error cause => rfl
      | ok left => cases numericSide "right" sides.2 <;> rfl
  | _ => exact h.elim

theorem isComparison_of_makeRequirement (h : type.Compares) {sideEffects : Bool} {w : World}
    {body : RequirementBody}
    (hbody : (makeRequirement r sideEffects (.requirement type) value w).1 = .ok body) :
    body.IsComparison := by
  cases type with
  | equal negated =>
    rw [makeRequirement, Make.bind_apply, Make.ofExcept_apply] at hbody
    cases hsides : operands value with
    | error cause => rw [hsides] at hbody; cases hbody
    | ok sides => rw [hsides] at hbody; cases hbody; trivial
  | compare relation =>
    rw [makeRequirement, Make.bind_apply, Make.ofExcept_apply] at hbody
    cases hsides : operands value with
    | error cause => rw [hsides] at hbody; cases hbody
    | ok sides =>
      rw [hsides] at hbody
      dsimp only [Except.mapError] at hbody
      rw [Make.bind_apply, Make.ofExcept_apply] at hbody
      cases hleft : numericSide "left" sides.1 with
      | error cause => rw [hleft] at hbody; cases hbody
      | ok left =>
        rw [hleft] at hbody
        dsimp only [Except.mapError] at hbody
        rw [Make.bind_apply, Make.ofExcept_apply] at hbody
        cases hright : numericSide "right" sides.2 with
        | error cause => rw [hright] at hbody; cases hbody
        | ok right => rw [hright] at hbody; cases hbody; trivial
  | _ => exact h.elim

/-- A comparison that compiles is the same in every world. -/
theorem Node.requirement_compares (h : n.MadeBy r (.requirement type)) (hcompares : type.Compares)
    {sideEffects : Bool} {w : World} (hcompiles : ¬ (n.requirement r sideEffects w).isDisabled) :
    (n.requirement r sideEffects w).body.IsComparison ∧
      ∀ w', (n.requirement r sideEffects w').body = (n.requirement r sideEffects w).body := by
  have hkind : (Maker.requirement type).kind = .requirement := rfl
  constructor
  · rw [Requirement.isDisabled_iff, Node.requirement_body h hkind] at hcompiles
    rw [Node.requirement_body h hkind]
    cases hmade : (makeRequirement r sideEffects (.requirement type) (n.valueOf "value") w).1 with
    | error refusal =>
      rw [hmade] at hcompiles
      exact absurd rfl hcompiles
    | ok body => exact isComparison_of_makeRequirement hcompares hmade
  · intro w'
    rw [Node.requirement_body h hkind, Node.requirement_body h hkind,
      makeRequirement_compares_eq hcompares sideEffects w' w]

end Comparison

end RuleEngine
