/-
  RuleEngine/Proofs/Rule/Spelling.lean
  ====================================
  **Nodes of trees of chains and delays.**

  A node spells a tree of chains and delays over messages and commands if every node in
  it names one of these types and has a value that its factory accepts, and no chance or one
  that is certain (`Node.Spells`).  These are the nodes that compile to such a tree with
  nothing disabled in it, in whatever world (`Node.spells_iff`).
-/
import RuleEngine.Proofs.Rule.Agenda
import RuleEngine.Proofs.Rule.Deferring

namespace RuleEngine

/-! ### What a node spells -/

/-- A node names a type whose actions the maker makes, and says nothing of a chance, or
    that it is certain. -/
structure Node.Declares (r : Registry) (n : Node) (maker : Maker) (typeKey : String)
    (chance : Formula) : Prop where
  named : (n.getPresent? "type").bind Node.text? = some typeKey
  known : ∃ id, r.lookup? typeKey = some ⟨id, maker⟩
  chanced : chanceOf n = .ok chance
  certain : chance.Certain

mutual

/-- The node is a tree of chains and delays over messages and commands, in which every node
    compiles and none is left to chance, and these are its parts. -/
inductive Node.Spells (r : Registry) : Node → Action → Prop
  | message {n typeKey chance text} (declares : n.Declares r (.action .message) typeKey chance)
      (reads : TextTemplate.ofNode (n.valueOf "value") = .ok text) :
      Spells r n (.mk typeKey chance (.message text))
  | command {n typeKey chance text} (declares : n.Declares r (.action .command) typeKey chance)
      (reads : TextTemplate.ofNode (n.valueOf "value") = .ok text) :
      Spells r n (.mk typeKey chance (.command text))
  | chain {n typeKey chance actions} (declares : n.Declares r (.action .chain) typeKey chance)
      (members : Node.SpellEach r (n.valueOf "value").members actions) :
      Spells r n (.mk typeKey chance (.chain actions))
  | delay {n typeKey chance delay mode actions}
      (declares : n.Declares r (.action .delay) typeKey chance)
      (map : CompileError.expectMap (n.valueOf "value") = .ok ())
      (ticks : CompileError.ticks (n.valueOf "value") "delay" (some 0) = .ok delay)
      (placed : CompileError.execMode (n.valueOf "value") = .ok mode)
      (members : Node.SpellEach r ((n.valueOf "value").valueOf "actions").members actions) :
      Spells r n (.mk typeKey chance (.delay delay mode actions))

/-- The nodes are such trees, and these are their parts. -/
inductive Node.SpellEach (r : Registry) : List Node → List Action → Prop
  | nil : SpellEach r [] []
  | cons {n rest a actions} (first : Node.Spells r n a) (others : Node.SpellEach r rest actions) :
      SpellEach r (n :: rest) (a :: actions)

end

section Nodes

variable {r : Registry} {n value : Node}

/-! ### What such a node compiles to -/

/-- A block holds what its members compile to; what is no block has none. -/
theorem compileActions_fst (value : Node) (w : World) :
    (compileActions r value w).1 = (compileActionEach r value.members w).1 := by
  by_cases hblock : value.IsBlock
  · rw [compileActions_eq hblock]
  · obtain ⟨s, rfl, -⟩ := Node.scalar_of_not_isBlock hblock
    rw [compileActions_of_not_block hblock, Node.members, compileActionEach]
    rfl

/-- What the factories of the four types make in a world, of values that they accept. -/
inductive Node.Makes (r : Registry) (w : World) (value : Node) : Maker → ActionBody → Prop where
  | message {text : TextTemplate} (reads : TextTemplate.ofNode value = .ok text) :
      Makes r w value (.action .message) (.message text)
  | command {text : TextTemplate} (reads : TextTemplate.ofNode value = .ok text) :
      Makes r w value (.action .command) (.command text)
  | chain {actions : List Action} (members : (compileActionEach r value.members w).1 = actions) :
      Makes r w value (.action .chain) (.chain actions)
  | delay {delay : Nat} {mode : ExecMode} {actions : List Action}
      (map : CompileError.expectMap value = .ok ())
      (ticks : CompileError.ticks value "delay" (some 0) = .ok delay)
      (placed : CompileError.execMode value = .ok mode)
      (members : (compileActionEach r (value.valueOf "actions").members w).1 = actions) :
      Makes r w value (.action .delay) (.delay delay mode actions)

/-- Factories of plain trees make what the spelling says. -/
theorem Node.Makes.makeAction {w : World} {maker : Maker} {body : ActionBody}
    (h : Node.Makes r w value maker body) : (makeAction r maker value w).1 = .ok body := by
  cases h with
  | message reads =>
    rw [RuleEngine.makeAction, reads]
    rfl
  | command reads =>
    rw [RuleEngine.makeAction, reads]
    rfl
  | chain members =>
    rw [RuleEngine.makeAction, ← members, ← compileActions_fst]
    rfl
  | delay map ticks placed members =>
    rw [RuleEngine.makeAction, map, ticks, placed, ← members, ← compileActions_fst]
    rfl

/-- What a factory makes of the value of a node becomes the body of an action. -/
theorem Node.Declares.compileAction {maker : Maker} {typeKey : String} {chance : Formula}
    (h : n.Declares r maker typeKey chance) (hkind : maker.kind = .action) {body : ActionBody}
    {w : World} (makes : Node.Makes r w (n.valueOf "value") maker body) :
    (compileAction r n w).1 = .mk typeKey chance body := by
  obtain ⟨id, hlookup⟩ := h.known
  obtain ⟨entries, rfl⟩ := Node.MadeBy.isMap ⟨typeKey, id, h.named, hlookup⟩
  have hfind := Compile.findFactory_of_type h.named hlookup w
  rw [hkind] at hfind
  rw [RuleEngine.compileAction, Compile.bind_apply, hfind]
  dsimp only
  rw [h.chanced]
  dsimp only
  rw [Compile.bind_apply, Make.run_apply, makes.makeAction]
  rfl

mutual

/-- A node compiles to the tree that it spells, in every world. -/
theorem Node.Spells.compileAction {n : Node} {a : Action} (h : n.Spells r a) (w : World) :
    (compileAction r n w).1 = a := by
  cases a with
  | mk typeKey chance body =>
    cases body with
    | message text =>
      cases h with
      | message declares reads => exact declares.compileAction rfl (.message reads)
    | command text =>
      cases h with
      | command declares reads => exact declares.compileAction rfl (.command reads)
    | chain actions =>
      cases h with
      | chain declares members =>
        exact declares.compileAction rfl (.chain (members.compileActionEach w))
    | delay delay mode actions =>
      cases h with
      | delay declares map ticks placed members =>
        exact declares.compileAction rfl
          (.delay map ticks placed (members.compileActionEach w))
    | _ => cases h

/-- Nodes that spell actions compile to them. -/
theorem Node.SpellEach.compileActionEach {nodes : List Node} {actions : List Action}
    (h : Node.SpellEach r nodes actions) (w : World) :
    (compileActionEach r nodes w).1 = actions := by
  cases actions with
  | nil =>
    cases h with
    | nil =>
      rw [RuleEngine.compileActionEach]
      rfl
  | cons a rest =>
    cases h with
    | cons first others =>
      rw [RuleEngine.compileActionEach]
      exact congrArg₂ List.cons (first.compileAction w) (others.compileActionEach _)

end

mutual

theorem Node.Spells.plain {n : Node} {a : Action} (h : n.Spells r a) : a.Plain := by
  cases a with
  | mk typeKey chance body =>
    rw [Action.Plain]
    cases body with
    | message text =>
      cases h with
      | message declares reads => exact ⟨declares.certain, by simp [ActionBody.Plain]⟩
    | command text =>
      cases h with
      | command declares reads => exact ⟨declares.certain, by simp [ActionBody.Plain]⟩
    | chain actions =>
      cases h with
      | chain declares members =>
        rw [ActionBody.Plain]
        exact ⟨declares.certain, members.plain⟩
    | delay delay mode actions =>
      cases h with
      | delay declares map ticks placed members =>
        rw [ActionBody.Plain]
        exact ⟨declares.certain, members.plain⟩
    | _ => cases h

theorem Node.SpellEach.plain {nodes : List Node} {actions : List Action}
    (h : Node.SpellEach r nodes actions) : actionsPlain actions := by
  cases actions with
  | nil => trivial
  | cons a rest =>
    cases h with
    | cons first others =>
      rw [actionsPlain]
      exact ⟨first.plain, others.plain⟩

end

/-! ### What compiles to such a tree -/

/-- A factory that is found is that of the node's type. -/
theorem Compile.of_findFactory {wanted : RuleKind} {w : World} {typeKey : String} {f : Factory}
    (found : (Compile.findFactory r wanted n w).1 = .ok (typeKey, f)) :
    (n.getPresent? "type").bind Node.text? = some typeKey ∧ r.lookup? typeKey = some f ∧
      (Compile.findFactory r wanted n w).2 = w := by
  unfold Compile.findFactory at found ⊢
  cases htype : (n.getPresent? "type").bind Node.text? with
  | none =>
    rw [htype] at found
    cases found
  | some key =>
    rw [htype] at found
    dsimp only at found ⊢
    cases hlookup : r.lookup? key with
    | none =>
      rw [hlookup] at found
      cases found
    | some factory =>
      rw [hlookup] at found
      dsimp only at found ⊢
      by_cases hkind : factory.kind = wanted
      · rw [if_pos hkind] at found ⊢
        obtain ⟨rfl, rfl⟩ := Prod.mk.inj (Except.ok.inj found)
        exact ⟨rfl, hlookup, rfl⟩
      · rw [if_neg hkind] at found
        cases found

/-- An action that is not disabled was made by the factory of its node's type. -/
theorem exists_made_of_compileAction {w : World} {typeKey : String} {chance : Formula}
    {body : ActionBody} (compiles : (compileAction r n w).1 = .mk typeKey chance body)
    (enabled : body ≠ .idle) :
    ∃ maker, (n.getPresent? "type").bind Node.text? = some typeKey ∧
      (∃ id, r.lookup? typeKey = some ⟨id, maker⟩) ∧ chanceOf n = .ok chance ∧
      (makeAction r maker (n.valueOf "value") w).1 = .ok body := by
  have hdisabled : ∀ key, Action.disabled key ≠ .mk typeKey chance body := by
    rintro key heq
    exact enabled (Action.mk.inj heq).2.2.symm
  by_cases hshape : n.shape = .map
  · obtain ⟨entries, rfl⟩ := Node.exists_eq_map hshape
    rw [compileAction, Compile.bind_apply] at compiles
    cases hfound : (Compile.findFactory r .action (.map entries) w).1 with
    | error key =>
      rw [hfound] at compiles
      exact absurd compiles (hdisabled _)
    | ok found =>
      obtain ⟨key, id, maker⟩ := found
      obtain ⟨hnamed, hlookup, hworld⟩ := Compile.of_findFactory hfound
      rw [hfound, hworld] at compiles
      dsimp only at compiles
      cases hchance : chanceOf (.map entries) with
      | error cause =>
        rw [hchance] at compiles
        exact absurd compiles (hdisabled _)
      | ok chance' =>
        rw [hchance] at compiles
        dsimp only at compiles
        rw [Compile.bind_apply, Make.run_apply] at compiles
        cases hmade : (makeAction r maker ((Node.map entries).valueOf "value") w).1 with
        | error refusal =>
          rw [hmade] at compiles
          exact absurd compiles (hdisabled _)
        | ok made =>
          rw [hmade] at compiles
          obtain ⟨rfl, rfl, rfl⟩ := Action.mk.inj compiles
          exact ⟨maker, hnamed, ⟨id, hlookup⟩, rfl, hmade⟩
  · rw [compileAction_of_not_map hshape] at compiles
    exact absurd compiles (hdisabled _)

/-- The types of actions that plain trees are made of. -/
def Maker.IsPlain : Maker → Prop
  | .action .chain | .action .delay | .action .message | .action .command => True
  | _ => False

/-- No other factory makes the body of a plain tree. -/
theorem makeAction_not_plain {maker : Maker} (other : ¬ maker.IsPlain) :
    Make.Returns (fun body => ¬ body.Plain) (makeAction r maker value) := by
  have hnot : ∀ {body : ActionBody}, ¬ body.Plain →
      Make.Returns (fun body => ¬ body.Plain) (pure body : Make ActionBody) :=
    fun h => Make.returns_pure h
  cases maker with
  | action type =>
    cases type with
    | chain => exact absurd trivial other
    | delay => exact absurd trivial other
    | message => exact absurd trivial other
    | command => exact absurd trivial other
    | timer =>
      rw [makeAction]
      refine Make.returns_bind fun _ => Make.returns_bind fun period => ?_
      dsimp only
      split
      all_goals
        (repeat' refine Make.returns_bind fun _ => ?_)
        exact hnot (by simp [ActionBody.Plain])
    | conditional =>
      rw [makeAction]
      refine Make.returns_bind fun _ => Make.returns_bind fun _ => Make.returns_bind fun _ => ?_
      exact hnot (by simp [ActionBody.Plain])
    | priority =>
      by_cases hshape : value.shape = .map
      · obtain ⟨entries, rfl⟩ := Node.exists_eq_map hshape
        rw [makeAction]
        exact Make.returns_bind fun _ => hnot (by simp [ActionBody.Plain])
      · rw [makeAction_priority_of_not_map hshape]
        exact Make.returns_throw _
    | set =>
      rw [makeAction]
      refine Make.returns_ofExcept fun body hset => ?_
      obtain ⟨key, text, rfl⟩ := CompileError.eq_set_of_setProperty hset
      simp [ActionBody.Plain]
  | guestAction id =>
    rw [makeAction]
    exact Make.returns_bind fun _ => hnot (by simp [ActionBody.Plain])
  | customAction make =>
    rw [makeAction]
    cases make value with
    | ok procedure => exact hnot (by simp [ActionBody.Plain])
    | error refusal => exact Make.returns_throw refusal
  | _ =>
    rw [makeAction]
    exact hnot (by simp [ActionBody.Plain])

/-- The bodies of plain trees are made as they should be. -/
theorem Node.makes_of_plain {w : World} {maker : Maker} {body : ActionBody}
    (made : (makeAction r maker value w).1 = .ok body) (plain : body.Plain) :
    Node.Makes r w value maker body := by
  by_cases hmaker : maker.IsPlain
  · cases maker with
    | action type =>
      cases type with
      | chain =>
        rw [(Node.Makes.chain rfl).makeAction] at made
        obtain rfl := Except.ok.inj made
        exact .chain rfl
      | delay =>
        have steps := made
        rw [makeAction] at steps
        obtain ⟨_, hmap, steps⟩ := Make.ofExcept_bind_eq_ok.mp steps
        obtain ⟨delay, hticks, steps⟩ := Make.ofExcept_bind_eq_ok.mp steps
        obtain ⟨mode, hmode, -⟩ := Make.ofExcept_bind_eq_ok.mp steps
        rw [(Node.Makes.delay hmap hticks hmode rfl).makeAction] at made
        obtain rfl := Except.ok.inj made
        exact .delay hmap hticks hmode rfl
      | message =>
        rw [makeAction] at made
        obtain ⟨text, hreads, made⟩ := Make.ofExcept_bind_eq_ok.mp made
        obtain rfl := Except.ok.inj made
        exact .message (CompileError.liftTemplate_eq_ok.mp hreads)
      | command =>
        rw [makeAction] at made
        obtain ⟨text, hreads, made⟩ := Make.ofExcept_bind_eq_ok.mp made
        obtain rfl := Except.ok.inj made
        exact .command (CompileError.liftTemplate_eq_ok.mp hreads)
      | _ => exact hmaker.elim
    | _ => exact hmaker.elim
  · exact absurd plain (makeAction_not_plain hmaker w body made)

mutual

/-- A node that compiles to a plain tree, in some world, spells it. -/
theorem Node.spells_of_plain {n : Node} {a : Action} (plain : a.Plain) {w : World}
    (compiles : (compileAction r n w).1 = a) : n.Spells r a := by
  cases a with
  | mk typeKey chance body =>
    rw [Action.Plain] at plain
    obtain ⟨hcertain, hbody⟩ := plain
    have enabled : body ≠ .idle := by
      rintro rfl
      simp [ActionBody.Plain] at hbody
    obtain ⟨maker, hnamed, hknown, hchanced, made⟩ :=
      exists_made_of_compileAction compiles enabled
    have makes := Node.makes_of_plain made hbody
    have declares : n.Declares r maker typeKey chance := ⟨hnamed, hknown, hchanced, hcertain⟩
    cases body with
    | message text =>
      cases makes with
      | message reads => exact .message declares reads
    | command text =>
      cases makes with
      | command reads => exact .command declares reads
    | chain actions =>
      rw [ActionBody.Plain] at hbody
      cases makes with
      | chain members => exact .chain declares (Node.spellEach_of_plain hbody members)
    | delay delay mode actions =>
      rw [ActionBody.Plain] at hbody
      cases makes with
      | delay map ticks placed members =>
        exact .delay declares map ticks placed (Node.spellEach_of_plain hbody members)
    | _ => simp [ActionBody.Plain] at hbody

/-- Plain actions that are compiled are spelled by their nodes. -/
theorem Node.spellEach_of_plain {nodes : List Node} {actions : List Action}
    (plain : actionsPlain actions) {w : World}
    (compiles : (compileActionEach r nodes w).1 = actions) : Node.SpellEach r nodes actions := by
  cases nodes with
  | nil =>
    rw [compileActionEach] at compiles
    obtain rfl : [] = actions := compiles
    exact .nil
  | cons n rest =>
    rw [compileActionEach] at compiles
    cases actions with
    | nil => cases compiles
    | cons a others =>
      obtain ⟨hfirst, hothers⟩ := List.cons.inj compiles
      rw [actionsPlain] at plain
      exact .cons (Node.spells_of_plain plain.1 hfirst) (Node.spellEach_of_plain plain.2 hothers)

end

/-- **A node spells a plain tree if it compiles to it**, in one world or in all. -/
theorem Node.spells_iff {a : Action} (w : World) :
    n.Spells r a ↔ a.Plain ∧ (compileAction r n w).1 = a := by
  constructor
  · exact fun h => ⟨h.plain, h.compileAction w⟩
  · exact fun h => Node.spells_of_plain h.1 h.2

end Nodes

end RuleEngine
