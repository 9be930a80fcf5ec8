/-
  RuleEngine/Proofs/Rule/Deferring.lean
  =====================================
  **Ticks of compiled rules come to an end.**

  Delays and timers are the only rules that put tasks into the queue: a delay the
  continuation of its actions, a timer the firings of its actions and the canceller that
  ends them.  A queue whose tasks all come from compiled delays and timers
  (`Work.FromRules`) stays so, whatever fires: what a task schedules comes from the
  delays and timers in the tree of its actions, and each of these was compiled with the
  tree (`compileAction_deferrals`).

  The actions that a task schedules stand below it in its tree, so tasks are thrifty
  (`workshop_thrifty`) even where nothing has a delay.  Only a repeating task comes
  back, and it does so after the current tick: a compiled period is at least one, and
  its next number does not wrap as long as there is room on the counter (`Work.Fits`),
  which there is in its first half.  So every tick ends (`tick_of_rules_ends`).
-/
import RuleEngine.Proofs.Rule.Calling
import RuleEngine.Proofs.Rule.Compiling

namespace RuleEngine

/-! ### Delays and timers within others -/

/-- What stands within some delays and timers is among them. -/
def Closed (bodies : List ActionBody) : Prop := ∀ b ∈ bodies, b.deferrals ⊆ bodies

theorem closed_nil : Closed [] := by simp [Closed]

theorem Closed.append {bodies more : List ActionBody} (h : Closed bodies) (h' : Closed more) :
    Closed (bodies ++ more) := by
  intro b hb
  rcases List.mem_append.mp hb with hb | hb
  · exact List.Subset.trans (h b hb) (List.subset_append_left _ _)
  · exact List.Subset.trans (h' b hb) (List.subset_append_right _ _)

/-- A delay or a timer comes on top of what is within it. -/
theorem Closed.cons {body : ActionBody} {bodies : List ActionBody} (h : Closed bodies)
    (hbody : body.deferrals = body :: bodies) : Closed (body :: bodies) := by
  intro b hb
  rcases List.mem_cons.mp hb with rfl | hb
  · exact hbody ▸ List.Subset.refl _
  · exact List.Subset.trans (h b hb) (List.subset_cons_self _ _)

mutual

theorem Action.closed_deferrals (a : Action) : Closed a.deferrals := by
  cases a with
  | mk typeKey chance body =>
    rw [Action.deferrals]
    exact ActionBody.closed_deferrals body

theorem ActionBody.closed_deferrals (body : ActionBody) : Closed body.deferrals := by
  cases body with
  | chain actions =>
    rw [ActionBody.deferrals]
    exact closed_actionsDeferrals actions
  | delay delay mode actions =>
    rw [ActionBody.deferrals]
    exact (closed_actionsDeferrals actions).cons (by rw [ActionBody.deferrals])
  | timer delay period duration mode actions =>
    rw [ActionBody.deferrals]
    exact (closed_actionsDeferrals actions).cons (by rw [ActionBody.deferrals])
  | conditional conditions actions =>
    rw [ActionBody.deferrals]
    exact (closed_requirementsDeferrals conditions).append (closed_actionsDeferrals actions)
  | priority branches =>
    rw [ActionBody.deferrals]
    exact closed_branchesDeferrals branches
  | _ =>
    rw [ActionBody.deferrals]
    exact closed_nil

theorem Requirement.closed_deferrals (q : Requirement) : Closed q.deferrals := by
  cases q with
  | mk typeKey body notMet =>
    rw [Requirement.deferrals]
    exact (RequirementBody.closed_deferrals body).append (closed_actionsDeferrals notMet)

theorem RequirementBody.closed_deferrals (body : RequirementBody) : Closed body.deferrals := by
  cases body with
  | all requirements =>
    rw [RequirementBody.deferrals]
    exact closed_requirementsDeferrals requirements
  | any requirements =>
    rw [RequirementBody.deferrals]
    exact closed_requirementsDeferrals requirements
  | not requirement =>
    rw [RequirementBody.deferrals]
    exact Requirement.closed_deferrals requirement
  | _ =>
    rw [RequirementBody.deferrals]
    exact closed_nil

theorem Branch.closed_deferrals (b : Branch) : Closed b.deferrals := by
  cases b with
  | mk name conditions actions =>
    rw [Branch.deferrals]
    exact (closed_requirementsDeferrals conditions).append (closed_actionsDeferrals actions)

theorem closed_actionsDeferrals (actions : List Action) : Closed (actionsDeferrals actions) := by
  cases actions with
  | nil =>
    rw [actionsDeferrals]
    exact closed_nil
  | cons a rest =>
    rw [actionsDeferrals]
    exact (Action.closed_deferrals a).append (closed_actionsDeferrals rest)

theorem closed_requirementsDeferrals (requirements : List Requirement) :
    Closed (requirementsDeferrals requirements) := by
  cases requirements with
  | nil =>
    rw [requirementsDeferrals]
    exact closed_nil
  | cons q rest =>
    rw [requirementsDeferrals]
    exact (Requirement.closed_deferrals q).append (closed_requirementsDeferrals rest)

theorem closed_branchesDeferrals (branches : List Branch) :
    Closed (branchesDeferrals branches) := by
  cases branches with
  | nil =>
    rw [branchesDeferrals]
    exact closed_nil
  | cons b rest =>
    rw [branchesDeferrals]
    exact (Branch.closed_deferrals b).append (closed_branchesDeferrals rest)

end

/-! ### What steps of compilation return -/

section Returns

variable {α β : Type}

/-- Whatever a step of compilation returns satisfies a predicate. -/
def Compile.Returns (p : α → Prop) (x : Compile α) : Prop := ∀ w, p (x w).1

/-- Whatever a step of a factory returns, unless it refuses, satisfies a predicate. -/
def Make.Returns (p : α → Prop) (x : Make α) : Prop := ∀ w a, (x w).1 = .ok a → p a

variable {p : α → Prop} {q : β → Prop}

theorem Compile.returns_pure {a : α} (h : p a) : Compile.Returns p (pure a : Compile α) :=
  fun _ => h

/-- What a sequence returns satisfies what its second step ensures. -/
theorem Compile.Returns.bind {x : Compile α} {f : α → Compile β} (hx : Compile.Returns p x)
    (hf : ∀ a, p a → Compile.Returns q (f a)) : Compile.Returns q (x >>= f) :=
  fun w => hf _ (hx w) _

/-- Nothing need be known of what the first step returns. -/
theorem Compile.returns_bind {x : Compile α} {f : α → Compile β}
    (hf : ∀ a, Compile.Returns q (f a)) : Compile.Returns q (x >>= f) :=
  fun _ => hf _ _

theorem Make.returns_pure {a : α} (h : p a) : Make.Returns p (pure a : Make α) := by
  intro w b hb
  cases hb
  exact h

theorem Make.returns_throw (refusal : Refusal) : Make.Returns p (throw refusal : Make α) := by
  intro w b hb
  cases hb

theorem Make.Returns.bind {x : Make α} {f : α → Make β} (hx : Make.Returns p x)
    (hf : ∀ a, p a → Make.Returns q (f a)) : Make.Returns q (x >>= f) := by
  intro w b hb
  rw [Make.bind_apply] at hb
  cases hrun : x w with
  | mk result w' =>
    rw [hrun] at hb
    cases result with
    | ok a => exact hf a (hx w a (by rw [hrun])) w' b hb
    | error refusal => cases hb

theorem Make.returns_bind {x : Make α} {f : α → Make β} (hf : ∀ a, Make.Returns q (f a)) :
    Make.Returns q (x >>= f) :=
  Make.Returns.bind (p := fun _ => True) (fun _ _ _ => trivial) fun a _ => hf a

theorem Make.returns_lift {x : Compile α} (hx : Compile.Returns p x) :
    Make.Returns p (liftM x : Make α) := by
  intro w a ha
  cases ha
  exact hx w

theorem Make.returns_ofExcept {x : Except CompileError α} (h : ∀ a, x = .ok a → p a) :
    Make.Returns p (Make.ofExcept x) := by
  intro w a ha
  rw [Make.ofExcept_apply] at ha
  cases x with
  | ok b => exact h a (congrArg Except.ok (Except.ok.inj ha))
  | error cause => cases ha

theorem Make.Returns.run {x : Make α} (hx : Make.Returns p x) :
    Compile.Returns (fun result => ∀ a, result = .ok a → p a) x.run := hx

end Returns

/-- The body of an action is what a factory makes of the node's value, or idle. -/
theorem compileAction_returns {r : Registry} {node : Node} {p : ActionBody → Prop}
    (idle : p .idle)
    (made : ∀ entries, node = .map entries → ∀ maker,
      Make.Returns p (makeAction r maker (node.valueOf "value"))) :
    Compile.Returns (fun a => p a.body) (compileAction r node) := by
  by_cases hshape : node.shape = .map
  · obtain ⟨entries, rfl⟩ := Node.exists_eq_map hshape
    rw [compileAction]
    refine Compile.returns_bind fun found => ?_
    cases found with
    | error typeKey => exact Compile.returns_pure idle
    | ok found =>
      obtain ⟨typeKey, factory⟩ := found
      dsimp only
      cases chanceOf (.map entries) with
      | error cause => exact Compile.returns_bind fun _ => Compile.returns_pure idle
      | ok chance =>
        refine (made entries rfl factory.maker).run.bind fun result hbody => ?_
        cases result with
        | ok body => exact Compile.returns_pure (hbody body rfl)
        | error refusal => exact Compile.returns_bind fun _ => Compile.returns_pure idle
  · rw [compileAction_of_not_map hshape]
    exact Compile.returns_bind fun _ => Compile.returns_pure idle

/-! ### Tick counts -/

/-- A tick count that is read is not negative as a signed 64-bit number. -/
theorem CompileError.ticks_lt {value : Node} {key : String} {default? : Option Nat} {n : Nat}
    (h : CompileError.ticks value key default? = .ok n)
    (hdefault : ∀ d, default? = some d → d < 2 ^ 63) : n < 2 ^ 63 := by
  unfold ticks at h
  split at h
  · split at h
    · rename_i i _
      split at h
      · obtain rfl := Except.ok.inj h
        have hlt := i.toInt_lt
        omega
      · cases h
    · cases h
  · split at h
    · obtain rfl := Except.ok.inj h
      exact hdefault _ rfl
    · cases h

/-- The tick counts of a delay or a timer are in the range of what can be written. -/
def ActionBody.InRange : ActionBody → Prop
  | .delay lead _ _ => lead < 2 ^ 63
  | .timer lead period duration _ _ =>
    lead < 2 ^ 63 ∧ 0 < period ∧ period < 2 ^ 63 ∧ duration < 2 ^ 63
  | _ => True

/-! ### The delays and timers of compiled trees -/

/-- Some action node compiles to the body. -/
def ActionBody.Compiled (body : ActionBody) : Prop :=
  ∃ r node w, (compileAction r node w).1.body = body

/-- Some delays and timers were compiled, and their tick counts are in range. -/
def AllCompiled (bodies : List ActionBody) : Prop := ∀ b ∈ bodies, b.InRange ∧ b.Compiled

theorem allCompiled_nil : AllCompiled [] := by simp [AllCompiled]

theorem AllCompiled.append {bodies more : List ActionBody} (h : AllCompiled bodies)
    (h' : AllCompiled more) : AllCompiled (bodies ++ more) := fun b hb =>
  (List.mem_append.mp hb).elim (h b) (h' b)

/-- The delays and timers within a body are as they should be, except that the body
    itself need not be compiled. -/
def ActionBody.Inside (body : ActionBody) : Prop :=
  ∀ b ∈ body.deferrals, b.InRange ∧ (b = body ∨ b.Compiled)

theorem ActionBody.inside_idle : ActionBody.idle.Inside := by
  intro b hb
  cases hb

theorem AllCompiled.inside {body : ActionBody} (h : AllCompiled body.deferrals) : body.Inside :=
  fun b hb => (h b hb).imp_right Or.inr

/-- A delay or a timer comes on top of its actions. -/
theorem AllCompiled.inside_cons {body : ActionBody} {actions : List Action}
    (h : AllCompiled (actionsDeferrals actions))
    (hbody : body.deferrals = body :: actionsDeferrals actions) (hrange : body.InRange) :
    body.Inside := by
  intro b hb
  rw [hbody] at hb
  rcases List.mem_cons.mp hb with rfl | hb
  · exact ⟨hrange, Or.inl rfl⟩
  · exact (h b hb).imp_right Or.inr

/-- The body of a compiled action is compiled itself, by the very node. -/
theorem allCompiled_of_inside {r : Registry} {node : Node}
    (h : Compile.Returns (fun a => a.body.Inside) (compileAction r node)) :
    Compile.Returns (fun a => AllCompiled a.deferrals) (compileAction r node) := by
  intro w b hb
  have hbody : (compileAction r node w).1.deferrals =
      (compileAction r node w).1.body.deferrals := by
    cases (compileAction r node w).1
    rw [Action.deferrals, Action.body]
  -- only the body of the action itself need not be compiled, and the node compiles to it
  obtain ⟨hrange, rfl | hb⟩ := h w b (hbody ▸ hb)
  · exact ⟨hrange, r, node, w, rfl⟩
  · exact ⟨hrange, hb⟩

open Compile Make

/-! Compiling follows the tree, so the induction is on the size of the node, as the
recursion of the compiler is. -/

mutual

theorem compileAction_inside (r : Registry) (node : Node) :
    Compile.Returns (fun a => a.body.Inside) (compileAction r node) :=
  compileAction_returns ActionBody.inside_idle fun entries _hmap maker =>
    makeAction_inside r maker (node.valueOf "value")
termination_by (node.size, 2)
decreasing_by
  subst _hmap
  exact Prod.Lex.left _ _ (Node.size_valueOf_lt _ _)

theorem makeAction_inside (r : Registry) (maker : Maker) (value : Node) :
    Make.Returns ActionBody.Inside (makeAction r maker value) := by
  match maker with
  | .action .chain =>
    rw [makeAction]
    exact (returns_lift (compileActions_deferrals r value)).bind fun actions h =>
      Make.returns_pure (AllCompiled.inside (by rwa [ActionBody.deferrals]))
  | .action .delay =>
    rw [makeAction]
    refine Make.returns_bind fun _ => ?_
    refine (returns_ofExcept fun _ h => CompileError.ticks_lt h (by simp)).bind fun delay hd => ?_
    refine Make.returns_bind fun _ => ?_
    exact (returns_lift (compileActions_deferrals r (value.valueOf "actions"))).bind
      fun actions h => Make.returns_pure (h.inside_cons (by rw [ActionBody.deferrals]) hd)
  | .action .timer =>
    rw [makeAction]
    refine Make.returns_bind fun _ => ?_
    refine (returns_ofExcept fun _ h => CompileError.ticks_lt h (by simp)).bind fun period hp => ?_
    dsimp only
    split
    -- a period of zero is refused
    · exact (returns_throw _ : Make.Returns (fun _ : Unit => False) _).bind fun _ => False.elim
    rename_i hzero
    refine (returns_ofExcept fun _ h => CompileError.ticks_lt h (by simp)).bind fun delay hd => ?_
    refine (returns_ofExcept fun _ h => CompileError.ticks_lt h (by simp)).bind
      fun duration ht => ?_
    refine Make.returns_bind fun _ => ?_
    exact (returns_lift (compileActions_deferrals r (value.valueOf "actions"))).bind
      fun actions h => Make.returns_pure
        (h.inside_cons (by rw [ActionBody.deferrals]) ⟨hd, Nat.pos_of_ne_zero hzero, hp, ht⟩)
  | .action .conditional =>
    rw [makeAction]
    refine Make.returns_bind fun _ => ?_
    refine (returns_lift (compileRequirements_deferrals r false
      (value.valueOf "conditions"))).bind fun conditions hc => ?_
    exact (returns_lift (compileActions_deferrals r (value.valueOf "actions"))).bind
      fun actions h => Make.returns_pure (AllCompiled.inside (by
        rw [ActionBody.deferrals]
        exact hc.append h))
  | .action .priority =>
    match value with
    | .map entries =>
      rw [makeAction]
      exact (compileBranches_deferrals r entries).bind fun branches h =>
        Make.returns_pure (AllCompiled.inside (by rwa [ActionBody.deferrals]))
    | .scalar s =>
      rw [makeAction_priority_of_not_map (by simp [Node.shape])]
      exact returns_throw _
    | .list items =>
      rw [makeAction_priority_of_not_map (by simp [Node.shape])]
      exact returns_throw _
  | .action .message =>
    rw [makeAction]
    exact Make.returns_bind fun _ => Make.returns_pure (AllCompiled.inside allCompiled_nil)
  | .action .command =>
    rw [makeAction]
    exact Make.returns_bind fun _ => Make.returns_pure (AllCompiled.inside allCompiled_nil)
  | .action .set =>
    rw [makeAction]
    refine returns_ofExcept fun body hset => ?_
    obtain ⟨key, text, rfl⟩ := CompileError.eq_set_of_setProperty hset
    exact AllCompiled.inside allCompiled_nil
  | .guestAction id =>
    rw [makeAction]
    exact Make.returns_bind fun _ => Make.returns_pure (AllCompiled.inside allCompiled_nil)
  | .customAction make =>
    rw [makeAction]
    cases make value with
    | ok procedure => exact Make.returns_pure (AllCompiled.inside allCompiled_nil)
    | error refusal => exact Make.returns_throw refusal
  | .requirement _ => rw [makeAction]; exact Make.returns_pure ActionBody.inside_idle
  | .guestRequirement _ => rw [makeAction]; exact Make.returns_pure ActionBody.inside_idle
  | .customRequirement _ => rw [makeAction]; exact Make.returns_pure ActionBody.inside_idle
termination_by (value.size, 3)
decreasing_by
  all_goals first
    | exact Prod.Lex.right _ (by omega)
    | exact valueOf_before _ value (by omega)
    | exact Prod.Lex.left _ _ (by simp [Node.size])

/-- Everything that is deferred within compiled actions was compiled, with counts in range. -/
theorem compileActions_deferrals (r : Registry) (node : Node) :
    Compile.Returns (fun actions => AllCompiled (actionsDeferrals actions))
      (compileActions r node) := by
  by_cases hblock : node.IsBlock
  · rw [compileActions_eq hblock]
    exact compileActionEach_deferrals r node.members
  · rw [compileActions_of_not_block hblock]
    exact returns_bind fun _ => returns_pure (by rw [actionsDeferrals]; exact allCompiled_nil)
termination_by (node.size, 1)
decreasing_by exact members_before node

theorem compileActionEach_deferrals (r : Registry) (nodes : List Node) :
    Compile.Returns (fun actions => AllCompiled (actionsDeferrals actions))
      (compileActionEach r nodes) := by
  match nodes with
  | [] =>
    rw [compileActionEach]
    exact returns_pure (by rw [actionsDeferrals]; exact allCompiled_nil)
  | node :: rest =>
    rw [compileActionEach]
    refine (allCompiled_of_inside (compileAction_inside r node)).bind fun first hfirst => ?_
    refine (compileActionEach_deferrals r rest).bind fun others hothers => returns_pure ?_
    rw [actionsDeferrals]
    exact hfirst.append hothers
termination_by (Node.itemsSize nodes, 0)
decreasing_by
  all_goals exact Prod.Lex.left _ _ (by simp only [Node.itemsSize]; omega)

theorem compileBranches_deferrals (r : Registry) (entries : List (String × Node)) :
    Make.Returns (fun branches => AllCompiled (branchesDeferrals branches))
      (compileBranches r entries) := by
  match entries with
  | [] =>
    rw [compileBranches]
    exact Make.returns_pure (by rw [branchesDeferrals]; exact allCompiled_nil)
  | (name, .map branch) :: rest =>
    rw [compileBranches]
    refine (returns_lift (compileRequirements_deferrals r false
      ((Node.map branch).valueOf "conditions"))).bind fun conditions hc => ?_
    refine (returns_lift (compileActions_deferrals r
      ((Node.map branch).valueOf "actions"))).bind fun actions ha => ?_
    refine (compileBranches_deferrals r rest).bind fun branches hrest => Make.returns_pure ?_
    rw [branchesDeferrals, Branch.deferrals]
    exact (hc.append ha).append hrest
  | (name, .scalar s) :: rest =>
    rw [compileBranches_of_not_map (by simp [Node.shape])]
    exact returns_throw _
  | (name, .list items) :: rest =>
    rw [compileBranches_of_not_map (by simp [Node.shape])]
    exact returns_throw _
termination_by (Node.entriesSize entries, 0)
decreasing_by
  all_goals
    first
    | exact Prod.Lex.left _ _ (by simp only [Node.entriesSize]; omega)
    | exact Prod.Lex.left _ _ (by
        have := Node.size_valueOf_lt "conditions" branch
        have := Node.size_valueOf_lt "actions" branch
        simp only [Node.entriesSize]
        omega)

theorem compileRequirement_deferrals (r : Registry) (sideEffects : Bool) (node : Node) :
    Compile.Returns (fun q => AllCompiled q.deferrals) (compileRequirement r sideEffects node) := by
  have hidle : ∀ typeKey, AllCompiled (Requirement.disabled typeKey).deferrals := by
    intro typeKey b hb
    cases hb
  match node with
  | .scalar s =>
    rw [compileRequirement_of_not_map (by simp [Node.shape])]
    exact returns_bind fun _ => returns_pure (hidle "?")
  | .list items =>
    rw [compileRequirement_of_not_map (by simp [Node.shape])]
    exact returns_bind fun _ => returns_pure (hidle "?")
  | .map entries =>
    rw [compileRequirement]
    refine returns_bind fun found => ?_
    cases found with
    | error typeKey => exact returns_pure (hidle typeKey)
    | ok found =>
      obtain ⟨typeKey, factory⟩ := found
      dsimp only
      have hmade := makeRequirement_deferrals r sideEffects factory.maker
        ((Node.map entries).valueOf "value")
      refine Compile.Returns.bind hmade.run fun made hbody => ?_
      cases made with
      | error refusal => exact returns_bind fun _ => returns_pure (hidle typeKey)
      | ok body =>
        have hb := hbody body rfl
        cases sideEffects with
        | true =>
          refine (compileActions_deferrals r _).bind fun notMet hnotMet => returns_pure ?_
          rw [Requirement.deferrals]
          exact hb.append hnotMet
        | false =>
          refine returns_pure ?_
          rw [Requirement.deferrals, actionsDeferrals]
          exact hb.append allCompiled_nil
termination_by (node.size, 2)
decreasing_by
  all_goals exact Prod.Lex.left _ _ (Node.size_valueOf_lt _ _)

theorem makeRequirement_deferrals (r : Registry) (sideEffects : Bool) (maker : Maker)
    (value : Node) :
    Make.Returns (fun body => AllCompiled body.deferrals)
      (makeRequirement r sideEffects maker value) := by
  match maker with
  | .requirement .all =>
    rw [makeRequirement]
    exact (returns_lift (compileRequirements_deferrals r sideEffects value)).bind
      fun requirements h => Make.returns_pure (by rwa [RequirementBody.deferrals])
  | .requirement .any =>
    rw [makeRequirement]
    exact (returns_lift (compileRequirements_deferrals r false value)).bind
      fun requirements h => Make.returns_pure (by rwa [RequirementBody.deferrals])
  | .requirement .not =>
    rw [makeRequirement]
    refine (returns_lift (compileRequirement_deferrals r false value)).bind fun inner h => ?_
    have hrest : Make.Returns (fun body => AllCompiled body.deferrals)
        (pure (.not inner) : Make RequirementBody) :=
      Make.returns_pure (by rwa [RequirementBody.deferrals])
    dsimp only
    split
    · exact Make.returns_bind fun _ => hrest
    · exact hrest
  | .requirement (.equal negated) =>
    rw [makeRequirement]
    exact Make.returns_bind fun _ => Make.returns_pure allCompiled_nil
  | .requirement (.compare relation) =>
    rw [makeRequirement]
    refine Make.returns_bind fun _ => Make.returns_bind fun _ => Make.returns_bind fun _ => ?_
    exact Make.returns_pure allCompiled_nil
  | .requirement .cooldown =>
    rw [makeRequirement]
    refine returns_ofExcept fun body hcooldown => ?_
    obtain ⟨key, window, unit, rfl⟩ := CompileError.eq_cooldown_of_cooldown hcooldown
    exact allCompiled_nil
  | .requirement .chance =>
    rw [makeRequirement]
    exact Make.returns_bind fun _ => Make.returns_pure allCompiled_nil
  | .guestRequirement id =>
    rw [makeRequirement]
    exact Make.returns_bind fun _ => Make.returns_pure allCompiled_nil
  | .customRequirement make =>
    rw [makeRequirement]
    cases make value sideEffects with
    | ok procedure => exact Make.returns_pure allCompiled_nil
    | error refusal => exact Make.returns_throw refusal
  | .action _ => rw [makeRequirement]; exact Make.returns_pure allCompiled_nil
  | .guestAction _ => rw [makeRequirement]; exact Make.returns_pure allCompiled_nil
  | .customAction _ => rw [makeRequirement]; exact Make.returns_pure allCompiled_nil
termination_by (value.size, 3)
decreasing_by
  all_goals exact Prod.Lex.right _ (by omega)

theorem compileRequirements_deferrals (r : Registry) (sideEffects : Bool) (node : Node) :
    Compile.Returns (fun requirements => AllCompiled (requirementsDeferrals requirements))
      (compileRequirements r sideEffects node) := by
  by_cases hblock : node.IsBlock
  · rw [compileRequirements_eq hblock]
    exact compileRequirementEach_deferrals r sideEffects node.members
  · rw [compileRequirements_of_not_block hblock]
    exact returns_bind fun _ => returns_pure (by rw [requirementsDeferrals]; exact allCompiled_nil)
termination_by (node.size, 1)
decreasing_by exact members_before node

theorem compileRequirementEach_deferrals (r : Registry) (sideEffects : Bool) (nodes : List Node) :
    Compile.Returns (fun requirements => AllCompiled (requirementsDeferrals requirements))
      (compileRequirementEach r sideEffects nodes) := by
  match nodes with
  | [] =>
    rw [compileRequirementEach]
    exact returns_pure (by rw [requirementsDeferrals]; exact allCompiled_nil)
  | node :: rest =>
    rw [compileRequirementEach]
    refine (compileRequirement_deferrals r sideEffects node).bind fun first hfirst => ?_
    refine (compileRequirementEach_deferrals r sideEffects rest).bind
      fun others hothers => returns_pure ?_
    rw [requirementsDeferrals]
    exact hfirst.append hothers
termination_by (Node.itemsSize nodes, 0)
decreasing_by
  all_goals exact Prod.Lex.left _ _ (by simp only [Node.itemsSize]; omega)

end

/-- The delays and timers within the body of a compiled action. -/
theorem ActionBody.Compiled.deferrals {body : ActionBody} (h : body.Compiled) :
    AllCompiled body.deferrals := by
  obtain ⟨r, node, w, rfl⟩ := h
  have hnode := allCompiled_of_inside (compileAction_inside r node) w
  cases haction : (compileAction r node w).1 with
  | mk typeKey chance body =>
    rw [haction, Action.deferrals] at hnode
    exact hnode

theorem ActionBody.Compiled.of_delay {delay : Nat} {mode : ExecMode} {actions : List Action}
    (h : (ActionBody.delay delay mode actions).Compiled) :
    AllCompiled (actionsDeferrals actions) := by
  have hall := h.deferrals
  rw [ActionBody.deferrals] at hall
  exact fun b hb => hall b (List.mem_cons_of_mem _ hb)

theorem ActionBody.Compiled.of_timer {delay period duration : Nat} {mode : ExecMode}
    {actions : List Action} (h : (ActionBody.timer delay period duration mode actions).Compiled) :
    (0 < period ∧ period < 2 ^ 63) ∧ AllCompiled (actionsDeferrals actions) := by
  have hall := h.deferrals
  rw [ActionBody.deferrals] at hall
  obtain ⟨⟨-, hpos, hlt, -⟩, -⟩ := hall _ List.mem_cons_self
  exact ⟨⟨hpos, hlt⟩, fun b hb => hall b (List.mem_cons_of_mem _ hb)⟩

/-! ### Queues of rules -/

/-- A task, with its period if it repeats, is one that a compiled rule schedules: the
    continuation of a delay, the firings of a timer, or what ends them. -/
inductive Work.FromRules : Option Nat → Work → Prop where
  | continuation {delay : Nat} {mode : ExecMode} {c : ContextId} {actions : List Action}
      (compiled : (ActionBody.delay delay mode actions).Compiled) :
      FromRules none (.actions mode c actions)
  | firing {delay period duration : Nat} {mode : ExecMode} {c : ContextId} {actions : List Action}
      (compiled : (ActionBody.timer delay period duration mode actions).Compiled) :
      FromRules (some period) (.actions mode c actions)
  | canceller {task : TaskId} : FromRules none (.cancel task)

/-- What a task of compiled rules defers is compiled. -/
theorem Work.FromRules.deferrals {period? : Option Nat} {task : Work}
    (h : Work.FromRules period? task) : AllCompiled task.deferrals := by
  cases h with
  | continuation compiled => exact compiled.of_delay
  | firing compiled => exact compiled.of_timer.2
  | canceller => exact allCompiled_nil

theorem Work.FromRules.period {period : Nat} {task : Work}
    (h : Work.FromRules (some period) task) : 0 < period ∧ period < 2 ^ 63 := by
  cases h with
  | firing compiled => exact compiled.of_timer.1

/-- What compiled delays and timers schedule is a task from rules. -/
theorem Call.From.holds {bodies : List ActionBody} {c : Call Work} (hc : c.From bodies)
    (hall : AllCompiled bodies) : c.Holds Work.FromRules := by
  cases hc with
  | continuation within => exact .continuation (hall _ within).2
  | @firing delay period duration mode c actions within =>
    obtain ⟨⟨-, hpos, -, -⟩, hcompiled⟩ := hall _ within
    have hperiod : max period 1 = period := Nat.max_eq_left hpos
    change Work.FromRules (some (max period 1)) _
    rw [hperiod]
    exact .firing hcompiled
  | canceller within => exact .canceller
  | cancel => trivial

/-! ### Room on the counter -/

/-- No timer that is queued again at a tick computes a number past the end of the
    counter. -/
def HasRoom (now : Nat) (bodies : List ActionBody) : Prop :=
  ∀ lead period duration mode actions, .timer lead period duration mode actions ∈ bodies →
    now + period < tickSpan

/-- A task has room on the counter, and so have the timers within its actions. -/
structure Work.Fits (now : Nat) (period? : Option Nat) (task : Work) : Prop where
  own : ∀ period, period? = some period → now + period < tickSpan
  within : HasRoom now task.deferrals

/-- There is room up to the middle of the counter, since the period of a timer was read as
    a signed number. -/
theorem Work.FromRules.fits {now : Nat} {period? : Option Nat} {task : Work}
    (h : Work.FromRules period? task) (early : now ≤ 2 ^ 63) : Work.Fits now period? task where
  own := by
    rintro period rfl
    obtain ⟨-, hlt⟩ := h.period
    exact Nat.add_lt_add_of_le_of_lt early hlt
  within := by
    intro lead period duration mode actions hmem
    obtain ⟨⟨-, -, hlt, -⟩, -⟩ := h.deferrals _ hmem
    exact Nat.add_lt_add_of_le_of_lt early hlt

theorem Work.closed_deferrals (task : Work) : Closed task.deferrals := by
  cases task with
  | actions mode c actions => exact closed_actionsDeferrals actions
  | cancel id => exact closed_nil

/-- What delays and timers with room schedule has room. -/
theorem Call.From.fits {bodies : List ActionBody} {now : Nat} {c : Call Work}
    (hc : c.From bodies) (hall : AllCompiled bodies) (closed : Closed bodies)
    (room : HasRoom now bodies) : c.Holds (Work.Fits now) := by
  cases hc with
  | @continuation delay mode c actions within =>
    have hsub := closed _ within
    rw [ActionBody.deferrals] at hsub
    exact ⟨by simp, fun lead period duration mode more hmem =>
      room lead period duration mode more (hsub (List.mem_cons_of_mem _ hmem))⟩
  | @firing delay period duration mode c actions within =>
    have hsub := closed _ within
    rw [ActionBody.deferrals] at hsub
    obtain ⟨⟨-, hpos, -, -⟩, -⟩ := hall _ within
    have hperiod : max period 1 = period := Nat.max_eq_left hpos
    refine ⟨fun again hagain => ?_, fun lead period' duration' mode' more hmem => ?_⟩
    · obtain rfl := (Option.some.inj hagain).symm.trans hperiod
      exact room _ _ _ _ _ within
    · exact room lead period' duration' mode' more (hsub (List.mem_cons_of_mem _ hmem))
  | canceller within => exact ⟨by simp, by simp [HasRoom, Work.deferrals]⟩
  | cancel => trivial

/-! ### Ticks of rules -/

/-- Compiled rules schedule what is compiled, and each of their tasks weighs less than the rule
    that schedules it. -/
theorem workshop_thrifty (now : Nat) :
    workshop.Thrifty fun period? task =>
      Work.FromRules period? task ∧ Work.Fits now period? task := by
  rintro id period? task st ⟨hrules, hfits⟩
  obtain ⟨calls, hcalls, hweight, hfrom⟩ := task.run_asks st
  refine ⟨calls, (task.perform_scheduler id st).trans hcalls, ?_, fun c hc => ?_⟩
  · exact Nat.lt_of_le_of_lt hweight (Nat.sub_lt task.weight_pos Nat.one_pos)
  · have hall := hrules.deferrals
    exact ((hfrom c hc).holds hall).and ((hfrom c hc).fits hall task.closed_deferrals hfits.within)

/-- **Every tick of compiled rules ends.**  When every queued task is the continuation of
    a compiled delay, the firings of a compiled timer or the canceller of one, then a
    tick finds nothing due after at most as many firings as the load was when it began,
    whatever the contexts, the dice and the platform are; no greater bound on its firings
    would make a difference, and the queue holds such tasks again.  No timer may get to
    the end of the counter, as its next number would wrap to one that is due at once;
    that takes more than half of all tick numbers (`Work.FromRules.fits`). -/
theorem tick_of_rules_ends {st : EngineState} (rules : st.scheduler.Holds Work.FromRules)
    (room : st.scheduler.Holds (Work.Fits (st.scheduler.current + 1))) :
    (st.tick workshop).2.Drained ∧
      (st.tick workshop).1 ≤ Scheduled.load workshop st.begun.scheduler ∧
      (∀ fuel, Scheduled.load workshop st.begun.scheduler ≤ fuel →
        Scheduled.fireDue workshop fuel st.begun = st.tick workshop) ∧
      (st.tick workshop).2.scheduler.Holds Work.FromRules := by
  have hlater : ∀ period task,
      Work.FromRules (some period) task ∧ Work.Fits (st.scheduler.current + 1) (some period) task →
      st.begun.scheduler.current < (st.begun.scheduler.current + period) % tickSpan := by
    rintro period task ⟨hrules, hfits⟩
    -- where a period fits, the tick itself has not wrapped either
    have hlt := hfits.own period rfl
    have hnow : st.begun.scheduler.current = st.scheduler.current + 1 :=
      Nat.mod_eq_of_lt (Nat.lt_of_le_of_lt (Nat.le_add_right _ period) hlt)
    rw [hnow, Nat.mod_eq_of_lt hlt]
    exact Nat.lt_add_of_pos_right hrules.period.1
  have hqueue : st.scheduler.Holds fun period? task =>
      Work.FromRules period? task ∧ Work.Fits (st.scheduler.current + 1) period? task :=
    fun e he => ⟨rules e he, room e he⟩
  obtain ⟨hdrained, hcount, hfuel, hholds, -⟩ :=
    Scheduled.tick_ends (workshop_thrifty _) hqueue hlater
  exact ⟨hdrained, hcount, hfuel, fun e he => (hholds e he).1⟩

def napNode : Node :=
  .typed "delay" (.map [("actions", .list [.typed "delay" (.map [("actions", .list [])])])])

def napActions : List Action :=
  (compileActions ({} : Registry).registerBuiltins.2.2
    ((napNode.valueOf "value").valueOf "actions") {}).1

theorem nap_compiled : (ActionBody.delay 0 .sync napActions).Compiled := by
  refine ⟨({} : Registry).registerBuiltins.2.2, napNode, {}, ?_⟩
  have hmade : napNode.MadeBy ({} : Registry).registerBuiltins.2.2 (.action .delay) :=
    Node.typed_madeBy _ rfl
  rw [compileAction_body hmade rfl rfl, makeAction]
  rfl

/-- A tick that fires the continuation of such a delay, which schedules the next one for
    the same tick, ends. -/
theorem tick_of_rules_ends_nap :
    let st : EngineState :=
      { scheduler := Scheduler.performAll {} [.schedule 1 (.actions .sync 0 napActions)],
        world := {} }
    st.scheduler.Holds Work.FromRules ∧
      st.scheduler.Holds (Work.Fits (st.scheduler.current + 1)) ∧
      (st.tick workshop).2.Drained := by
  intro st
  have rules : st.scheduler.Holds Work.FromRules := by
    intro e he
    obtain rfl := List.mem_singleton.mp he
    exact .continuation nap_compiled
  have room : st.scheduler.Holds (Work.Fits (st.scheduler.current + 1)) :=
    fun e he => (rules e he).fits (by decide)
  exact ⟨rules, room, (tick_of_rules_ends rules room).1⟩

end RuleEngine
