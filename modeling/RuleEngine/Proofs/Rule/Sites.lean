/-
  RuleEngine/Proofs/Rule/Sites.lean
  =================================
  **Where the compiler comes to.**

  Compiling a tree goes from place to place: to the rule nodes of a block, from a node to
  the blocks and nodes that its factory compiles, and from a requirement to its not-met
  actions.  Such a place is a `Site`, with what the compiler knows there: whether it
  wants an action or a requirement, and whether not-met actions are asked for.

  Which sites are visited depends on what is rejected on the way.  A node whose own value
  is refused is left at once, but a `priority` compiles branch after branch until it
  comes to one that is no map, and a requirement that is rejected keeps its not-met
  actions to itself.  `Site.inner` says so, for one step down; `Site.visits` lists all
  sites that are visited from one, itself included.
-/
import RuleEngine.Proofs.Rule.Compiling

namespace RuleEngine

/-- A place in a tree that the compiler comes to. -/
inductive Site where
  | action (node : Node)
  | requirement (sideEffects : Bool) (node : Node)
  | actions (block : Node)
  | requirements (sideEffects : Bool) (block : Node)

def Site.tree : Site → Node
  | action node => node
  | requirement _ node => node
  | actions block => block
  | requirements _ block => block

def Site.compiled (r : Registry) : Site → World → World
  | action node, w => (compileAction r node w).2
  | requirement sideEffects node, w => (compileRequirement r sideEffects node w).2
  | actions block, w => (compileActions r block w).2
  | requirements sideEffects block, w => (compileRequirements r sideEffects block w).2

/-- Whether the node at a site becomes a rule that does nothing. -/
def Site.isRejected (r : Registry) : Site → Bool
  | action node => (compileAction r node {}).1.isDisabled
  | requirement sideEffects node => (compileRequirement r sideEffects node {}).1.isDisabled
  | actions _ => false
  | requirements _ _ => false

/-- Whether the block at a site is a scalar where there should be rules. -/
def Site.isScalarBlock : Site → Bool
  | action _ => false
  | requirement _ _ => false
  | actions block => block.shape == .scalar && !block.isNull
  | requirements _ block => block.shape == .scalar && !block.isNull

/-! ### What makers compile -/

/-- The sites of the branches of a priority rule, up to one that is no map. -/
def branchSites : List (String × Node) → List Site
  | (_, .map branch) :: rest =>
    .requirements false ((Node.map branch).valueOf "conditions") ::
      .actions ((Node.map branch).valueOf "actions") :: branchSites rest
  | _ => []

def ActionType.sites : ActionType → Node → List Site
  | .chain, value => [.actions value]
  | .delay, value => [.actions (value.valueOf "actions")]
  | .timer, value => [.actions (value.valueOf "actions")]
  | .conditional, value =>
    [.requirements false (value.valueOf "conditions"), .actions (value.valueOf "actions")]
  | .priority, .map entries => branchSites entries
  | _, _ => []

def RequirementType.sites (sideEffects : Bool) : RequirementType → Node → List Site
  | .all, value => [.requirements sideEffects value]
  | .any, value => [.requirements false value]
  | .not, value => [.requirement false value]
  | _, _ => []

def Maker.sites (sideEffects : Bool) : Maker → Node → List Site
  | .action type, value => type.sites value
  | .requirement type, value => type.sites sideEffects value
  | _, _ => []

/-- Whether a maker may still refuse after it has compiled something. -/
def Maker.refusesLate : Maker → Bool
  | .action .priority => true
  | _ => false

def Maker.isNot : Maker → Bool
  | .requirement .not => true
  | _ => false

/-! ### Sites and what is within them -/

/-- The maker of a node's type, if it makes rules of the wanted kind. -/
def Node.maker? (r : Registry) (wanted : RuleKind) (node : Node) : Option Maker :=
  ((((node.getPresent? "type").bind Node.text?).bind r.lookup?).map Factory.maker).filter
    (·.kind == wanted)

/-- A node has a maker of a kind exactly if its type has one. -/
theorem Node.maker?_eq_some {r : Registry} {wanted : RuleKind} {node : Node} {maker : Maker} :
    node.maker? r wanted = some maker ↔ node.MadeBy r maker ∧ maker.kind = wanted := by
  simp only [Node.maker?, Option.filter_eq_some_iff, Option.map_eq_some_iff,
    Option.bind_eq_some_iff, beq_iff_eq, Node.MadeBy]
  refine and_congr_left fun _ => ?_
  constructor
  · rintro ⟨⟨id, made⟩, ⟨typeKey, htype, hlookup⟩, rfl⟩
    exact ⟨typeKey, id, htype, hlookup⟩
  · rintro ⟨typeKey, id, htype, hlookup⟩
    exact ⟨⟨id, maker⟩, ⟨typeKey, htype, hlookup⟩, rfl⟩

/-- Whether what is within the value of an action node is compiled: the node itself is, or
    its maker refuses late and its chance is no reason to reject it before. -/
def Node.isOpened (r : Registry) (maker : Maker) (node : Node) : Bool :=
  if maker.refusesLate then (chanceOf node).toOption.isSome
  else !(Site.action node).isRejected r

/-- The sites that the compiler goes to from a site, in order. -/
def Site.inner (r : Registry) : Site → List Site
  | .action node =>
    match node.maker? r .action with
    | none => []
    | some maker =>
      if node.isOpened r maker then maker.sites false (node.valueOf "value") else []
  | .requirement sideEffects node =>
    (match node.maker? r .requirement with
      | none => []
      | some maker => maker.sites sideEffects (node.valueOf "value")) ++
      if sideEffects && !(Site.requirement sideEffects node).isRejected r then
        [.actions (node.valueOf "not-met-actions")] else []
  | .actions block => block.members.map .action
  | .requirements sideEffects block => block.members.map (.requirement sideEffects)

/-! ### All sites that are visited -/

section Sizes

variable {r : Registry} {s t : Site}

theorem size_lt_of_mem_branchSites {entries : List (String × Node)} (h : t ∈ branchSites entries) :
    t.tree.size < Node.entriesSize entries := by
  induction entries with
  | nil => cases h
  | cons e rest ih =>
    obtain ⟨name, branch⟩ := e
    cases branch with
    | scalar s => cases h
    | list items => cases h
    | map branch =>
      have hconditions := Node.size_valueOf_lt "conditions" branch
      have hactions := Node.size_valueOf_lt "actions" branch
      rw [Node.entriesSize]
      simp only [branchSites, List.mem_cons] at h
      rcases h with rfl | rfl | h
      · simp only [Site.tree]
        omega
      · simp only [Site.tree]
        omega
      · have := ih h
        omega

theorem Maker.size_le_of_mem_sites {maker : Maker} {sideEffects : Bool} {value : Node}
    (h : t ∈ maker.sites sideEffects value) : t.tree.size ≤ value.size := by
  cases maker with
  | action type =>
    cases type with
    | chain =>
      obtain rfl := List.mem_singleton.mp h
      exact Nat.le_refl _
    | delay =>
      obtain rfl := List.mem_singleton.mp h
      exact Node.size_valueOf_le _ _
    | timer =>
      obtain rfl := List.mem_singleton.mp h
      exact Node.size_valueOf_le _ _
    | conditional =>
      rcases List.mem_pair.mp h with rfl | rfl
      · exact Node.size_valueOf_le _ _
      · exact Node.size_valueOf_le _ _
    | priority =>
      cases value with
      | map entries =>
        have := size_lt_of_mem_branchSites h
        rw [Node.size]
        omega
      | scalar s => cases h
      | list items => cases h
    | _ => cases h
  | requirement type =>
    cases type with
    | all | any | not =>
      obtain rfl := List.mem_singleton.mp h
      exact Nat.le_refl _
    | _ => cases h
  | _ => cases h

theorem Node.size_valueOf_lt_of_map {node : Node} (h : node.shape = .map) (key : String) :
    (node.valueOf key).size < node.size := by
  obtain ⟨entries, rfl⟩ := Node.exists_eq_map h
  exact Node.size_valueOf_lt key entries

theorem Node.shape_of_maker? {wanted : RuleKind} {node : Node} {maker : Maker}
    (h : node.maker? r wanted = some maker) : node.shape = .map := by
  obtain ⟨entries, rfl⟩ := (Node.maker?_eq_some.mp h).1.isMap
  rfl

theorem Site.isRejected_requirement_of_not_map {node : Node} (h : node.shape ≠ .map)
    (sideEffects : Bool) : (Site.requirement sideEffects node).isRejected r = true := by
  rw [isRejected, compileRequirement_of_not_map h]
  rfl

theorem Node.size_lt_of_mem_members {block member : Node} (h : member ∈ block.members) :
    member.size < block.size := by
  have hitem : ∀ {items : List Node}, member ∈ items → member.size < itemsSize items := by
    intro items hmem
    induction items with
    | nil => cases hmem
    | cons item rest ih =>
      rw [itemsSize]
      rcases List.mem_cons.mp hmem with rfl | hmem
      · omega
      · have := ih hmem
        omega
  have hshape : block.shape ≠ .scalar := by
    intro hscalar
    cases block with
    | scalar s => cases h
    | list items => cases hscalar
    | map entries => cases hscalar
  exact Nat.lt_trans (hitem h) (itemsSize_members_lt block hshape)

theorem Site.size_lt_of_mem_inner (h : t ∈ s.inner r) : t.tree.size < s.tree.size := by
  cases s with
  | action node =>
    rw [inner] at h
    cases hmaker : node.maker? r .action with
    | none => simp [hmaker] at h
    | some maker =>
      have hvalue := Node.size_valueOf_lt_of_map (Node.shape_of_maker? hmaker) "value"
      simp only [hmaker] at h
      split at h
      · exact Nat.lt_of_le_of_lt (Maker.size_le_of_mem_sites h) hvalue
      · cases h
  | requirement sideEffects node =>
    rw [inner] at h
    rcases List.mem_append.mp h with h | h
    · cases hmaker : node.maker? r .requirement with
      | none => simp [hmaker] at h
      | some maker =>
        have hvalue := Node.size_valueOf_lt_of_map (Node.shape_of_maker? hmaker) "value"
        simp only [hmaker] at h
        exact Nat.lt_of_le_of_lt (Maker.size_le_of_mem_sites h) hvalue
    · split at h
      · rename_i hkept
        obtain rfl := List.mem_singleton.mp h
        have hmap : node.shape = .map := by
          by_contra hshape
          simp [isRejected_requirement_of_not_map hshape] at hkept
        exact Node.size_valueOf_lt_of_map hmap "not-met-actions"
      · cases h
  | actions block =>
    obtain ⟨member, hmember, rfl⟩ := List.mem_map.mp h
    exact Node.size_lt_of_mem_members hmember
  | requirements sideEffects block =>
    obtain ⟨member, hmember, rfl⟩ := List.mem_map.mp h
    exact Node.size_lt_of_mem_members hmember

end Sizes

/-- All sites that the compiler visits from a site, itself included. -/
def Site.visits (r : Registry) (s : Site) : List Site :=
  s :: (s.inner r).attach.flatMap fun t => t.1.visits r
termination_by s.tree.size
decreasing_by exact Site.size_lt_of_mem_inner t.2

theorem Site.visits_eq (r : Registry) (s : Site) :
    s.visits r = s :: (s.inner r).flatMap (visits r) := by
  rw [visits, List.flatMap_subtype (g := visits r) (fun _ _ => rfl), List.unattach_attach]

end RuleEngine
