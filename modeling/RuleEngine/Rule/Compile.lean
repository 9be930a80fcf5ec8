/-
  RuleEngine/Rule/Compile.lean
  ============================
  **From trees to rules.**

  A rule node is a map that names its type; the factory of the type makes the rule
  from the value of the node.  Every failure is contained at the node it happens in:
  the node becomes a disabled rule, one warning is reported, and the rest of the
  tree is unaffected.  A node that fails only because a rule inside it did is
  disabled without a warning of its own.
-/
import RuleEngine.Registry
import RuleEngine.Node.Size
import RuleEngine.Guest.Call

namespace RuleEngine

/-- A step of compilation: guests may be asked, and notices are reported. -/
abbrev Compile := StateM World

/-- A step of a factory, which may refuse. -/
abbrev Make := ExceptT Refusal Compile

namespace Compile

def report (n : Notice) : Compile Unit := modify (·.report n)

def reject (typeKey : String) (reason : RejectReason) : Compile Unit :=
  report (.ruleDisabled typeKey reason)

/-- Report why a factory refused, unless a rule inside has reported it. -/
def rejectRefusal (typeKey : String) : Refusal → Compile Unit
  | .error .nestedRejected => pure ()
  | .error cause => reject typeKey (.failed cause)
  | .panicked message? => reject typeKey (.factoryPanicked (panicText message?))

/-- The factory of a rule node, which has to make rules of the wanted kind, and the
    key of its type.  Without one the key is all there is, and why is reported. -/
def findFactory (r : Registry) (wanted : RuleKind) (node : Node) :
    Compile (Except String (String × Factory)) := do
  match (node.getPresent? "type").bind Node.text? with
  | none => do
    reject "?" (.failed (.missingKey "type"))
    return .error "?"
  | some typeKey =>
    match r.lookup? typeKey with
    | none => do
      reject typeKey .unknownType
      return .error typeKey
    | some factory =>
      if factory.kind = wanted then return .ok (typeKey, factory)
      else do
        reject typeKey (.wrongKind factory.kind)
        return .error typeKey

end Compile

namespace Make

def fail {α : Type} (e : CompileError) : Make α := throw (.error e)

def ofExcept {α : Type} : Except CompileError α → Make α
  | .ok x => pure x
  | .error e => fail e

end Make

/-! ### Reading the values of rules -/

namespace CompileError

def liftTemplate {α : Type} (r : Except TemplateError α) : Except CompileError α :=
  r.mapError .template

/-- A tick count: the value of a key, or a default in its place. -/
def ticks (value : Node) (key : String) (default? : Option Nat) : Except CompileError Nat :=
  match value.getPresent? key with
  | some node =>
    match node.asInteger? with
    | some n => if 0 ≤ n then .ok n.toInt.toNat else .error (.invalidValue key .notTickCount)
    | none => .error (.invalidValue key .notTickCount)
  | none =>
    match default? with
    | some n => .ok n
    | none => .error (.missingKey key)

/-- Where the actions of a rule run when they are due: on the ticking thread, unless the rule
    asks for another one. -/
def execMode (value : Node) : Except CompileError ExecMode :=
  match value.getPresent? "async" with
  | some node =>
    match node.asBool? with
    | some b => .ok (.ofAsync b)
    | none => .error (.invalidValue "async" .notBoolean)
  | none => .ok .sync

def expectMap (value : Node) : Except CompileError Unit :=
  match value with
  | .map _ => .ok ()
  | other => .error (.shape .map other.shape)

def operand (side : String) : Node → Except CompileError Operand
  | .scalar .null => .error (.missingKey side)
  | .scalar (.str s) => do
    return ⟨← liftTemplate (TextTemplate.compile s), (Formula.compile s).toOption⟩
  | .scalar (.bool b) => .ok ⟨.literal (Node.boolText b), none⟩
  | .scalar s => do
    let number ← liftTemplate (Formula.ofNode (.scalar s))
    return ⟨← liftTemplate (TextTemplate.ofNode (.scalar s)), some number⟩
  | other => .error (.shape .scalarOperand other.shape)

/-- The two sides of a comparison, from a map or a list of two. -/
def operands (value : Node) : Except CompileError (Operand × Operand) :=
  match value with
  | .map _ => do
    return (← operand "left" (value.valueOf "left"), ← operand "right" (value.valueOf "right"))
  | .list [left, right] => do return (← operand "left" left, ← operand "right" right)
  | .list items => .error (.invalidValue "value" (.operandCount items.length))
  | other => .error (.shape .mapOrPair other.shape)

/-- The formula of a side that has to be a number. -/
def numericSide (side : String) (o : Operand) : Except CompileError Formula :=
  match o.number? with
  | some f => .ok f
  | none => .error (.invalidValue side .notNumeric)

def cooldown (value : Node) : Except CompileError RequirementBody := do
  expectMap value
  match value.getPresent? "key" with
  | none => .error (.missingKey "key")
  | some node => do
    let key ← liftTemplate (TextTemplate.ofNode node)
    match value.getPresent? "seconds", value.getPresent? "millis" with
    | some seconds, none => return .cooldown key (← liftTemplate (Formula.ofNode seconds)) 1000
    | none, some millis => return .cooldown key (← liftTemplate (Formula.ofNode millis)) 1
    | some _, some _ => .error (.invalidValue "seconds" .twoUnits)
    | none, none => .error (.missingKey "seconds")

def setProperty (value : Node) : Except CompileError ActionBody :=
  match (value.getPresent? "key").bind Node.text? with
  | none => .error (.missingKey "key")
  | some key =>
    match value.getPresent? "value" with
    | none => .error (.missingKey "value")
    | some text => do return .set key (← liftTemplate (TextTemplate.ofNode text))

end CompileError

open CompileError

/-- A block inside a value is compiled after the value. -/
theorem valueOf_before (key : String) (value : Node) {i j : Nat} (h : i < j) :
    Prod.Lex (· < ·) (· < ·) ((value.valueOf key).size, i) (value.size, j) := by
  rcases Nat.lt_or_eq_of_le (Node.size_valueOf_le key value) with lt | eq
  · exact Prod.Lex.left _ _ lt
  · rw [eq]
    exact Prod.Lex.right _ h

/-- What a guest is handed, if it accepts the value. -/
def guestPayload (id : GuestId) (value : Node) : Make Payload := do
  let payload ← match value.asText? with
    | some s => do pure (Payload.text (← Make.ofExcept (liftTemplate (TextTemplate.compile s))))
    | none => pure (Payload.json value.json)
  let (reason?, w) := Guest.validate (← get) id payload.source
  set w
  match reason? with
  | some reason => Make.fail (.rejected reason)
  | none => return payload

/-- The chance of an action node, which is certain unless it says otherwise. -/
def chanceOf (node : Node) : Except TemplateError Formula :=
  match node.getPresent? "chance" with
  | some chance => Formula.ofNode chance
  | none => .ok (.constant 1)

/-! ### Compiling nodes -/

mutual

def compileAction (r : Registry) (node : Node) : Compile Action :=
  match node with
  | .map entries => do
    match ← Compile.findFactory r .action (.map entries) with
    | .error typeKey => return .disabled typeKey
    | .ok (typeKey, factory) =>
      match chanceOf (.map entries) with
      | .error cause => do
        Compile.reject typeKey (.invalidChance cause)
        return .disabled typeKey
      | .ok chance => do
        match ← (makeAction r factory.maker ((Node.map entries).valueOf "value")).run with
        | .ok body => return .mk typeKey chance body
        | .error refusal => do
          Compile.rejectRefusal typeKey refusal
          return .disabled typeKey
  | other => do
    Compile.reject "?" (.failed (.shape .ruleMap other.shape))
    return .disabled "?"
termination_by (node.size, 2)
decreasing_by exact Prod.Lex.left _ _ (Node.size_valueOf_lt _ _)

def makeAction (r : Registry) (maker : Maker) (value : Node) : Make ActionBody :=
  match maker with
  | .action .chain => do return .chain (← compileActions r value)
  | .action .delay => do
    Make.ofExcept (expectMap value)
    let delay ← Make.ofExcept (ticks value "delay" (some 0))
    let mode ← Make.ofExcept (execMode value)
    return .delay delay mode (← compileActions r (value.valueOf "actions"))
  | .action .timer => do
    Make.ofExcept (expectMap value)
    let period ← Make.ofExcept (ticks value "period" none)
    if period = 0 then Make.fail (.invalidValue "period" .zeroPeriod)
    let delay ← Make.ofExcept (ticks value "delay" (some 0))
    let duration ← Make.ofExcept (ticks value "duration" none)
    let mode ← Make.ofExcept (execMode value)
    return .timer delay period duration mode (← compileActions r (value.valueOf "actions"))
  | .action .conditional => do
    Make.ofExcept (expectMap value)
    let conditions ← compileRequirements r false (value.valueOf "conditions")
    return .conditional conditions (← compileActions r (value.valueOf "actions"))
  | .action .priority =>
    match value with
    | .map entries => do return .priority (← compileBranches r entries)
    | other => Make.fail (.shape .map other.shape)
  | .action .message => do
    return .message (← Make.ofExcept (liftTemplate (TextTemplate.ofNode value)))
  | .action .command => do
    return .command (← Make.ofExcept (liftTemplate (TextTemplate.ofNode value)))
  | .action .set => Make.ofExcept (setProperty value)
  | .guestAction id => do return .guest id (← guestPayload id value)
  | .customAction make => do
    match make value with
    | .ok procedure => return .custom procedure
    | .error refusal => throw refusal
  | .requirement _ | .guestRequirement _ | .customRequirement _ => pure .idle
termination_by (value.size, 3)
decreasing_by
  all_goals first
    | exact Prod.Lex.right _ (by omega)
    | exact valueOf_before _ value (by omega)
    | exact Prod.Lex.left _ _ (by simp [Node.size])

/-- Compile a block of actions: a map or a list; nothing is an empty block. -/
def compileActions (r : Registry) (node : Node) : Compile (List Action) :=
  match _h : node.shape with
  | .scalar =>
    if node.isNull then pure []
    else do
      Compile.reject "actions" (.failed (.shape .actionBlock .scalar))
      return []
  | .list | .map => compileActionEach r node.members
termination_by (node.size, 0)
decreasing_by
  all_goals exact Prod.Lex.left _ _ (Node.itemsSize_members_lt _ (by simp [_h]))

def compileActionEach (r : Registry) (nodes : List Node) : Compile (List Action) :=
  match nodes with
  | [] => pure []
  | node :: rest => do
    let first ← compileAction r node
    return first :: (← compileActionEach r rest)
termination_by (Node.itemsSize nodes, 0)
decreasing_by
  all_goals exact Prod.Lex.left _ _ (by simp only [Node.itemsSize]; omega)

def compileBranches (r : Registry) (entries : List (String × Node)) : Make (List Branch) :=
  match entries with
  | [] => pure []
  | (name, .map branch) :: rest => do
    let conditions ← compileRequirements r false ((Node.map branch).valueOf "conditions")
    let actions ← compileActions r ((Node.map branch).valueOf "actions")
    return .mk name conditions actions :: (← compileBranches r rest)
  | (name, other) :: _ => Make.fail (.invalidValue name (.notBranch other.shape))
termination_by (Node.entriesSize entries, 0)
decreasing_by
  all_goals
    first
    | exact Prod.Lex.left _ _ (by simp only [Node.entriesSize]; omega)
    | exact Prod.Lex.left _ _ (by
        have := Node.size_valueOf_lt "conditions" branch
        have := Node.size_valueOf_lt "actions" branch
        simp only [Node.entriesSize]
        omega)

/-- Compile a requirement node.  Its not-met actions are compiled only if side
    effects are asked for. -/
def compileRequirement (r : Registry) (sideEffects : Bool) (node : Node) : Compile Requirement :=
  match node with
  | .map entries => do
    match ← Compile.findFactory r .requirement (.map entries) with
    | .error typeKey => return .disabled typeKey
    | .ok (typeKey, factory) => do
      match ← (makeRequirement r sideEffects factory.maker
          ((Node.map entries).valueOf "value")).run with
      | .error refusal => do
        Compile.rejectRefusal typeKey refusal
        return .disabled typeKey
      | .ok body =>
        if sideEffects then do
          return .mk typeKey body
            (← compileActions r ((Node.map entries).valueOf "not-met-actions"))
        else return .mk typeKey body []
  | other => do
    Compile.reject "?" (.failed (.shape .ruleMap other.shape))
    return .disabled "?"
termination_by (node.size, 2)
decreasing_by
  all_goals exact Prod.Lex.left _ _ (Node.size_valueOf_lt _ _)

def makeRequirement (r : Registry) (sideEffects : Bool) (maker : Maker) (value : Node) :
    Make RequirementBody :=
  match maker with
  | .requirement .all => do return .all (← compileRequirements r sideEffects value)
  | .requirement .any => do return .any (← compileRequirements r false value)
  | .requirement .not => do
    let inner ← compileRequirement r false value
    if inner.isDisabled then Make.fail .nestedRejected
    return .not inner
  | .requirement (.equal negated) => do
    let (left, right) ← Make.ofExcept (operands value)
    return .equality negated left right
  | .requirement (.compare relation) => do
    let (left, right) ← Make.ofExcept (operands value)
    return .comparison relation (← Make.ofExcept (numericSide "left" left))
      (← Make.ofExcept (numericSide "right" right))
  | .requirement .cooldown => Make.ofExcept (cooldown value)
  | .requirement .chance => do
    return .chance (← Make.ofExcept (liftTemplate (Formula.ofNode value)))
  | .guestRequirement id => do return .guest id (← guestPayload id value)
  | .customRequirement make => do
    match make value sideEffects with
    | .ok procedure => return .custom procedure
    | .error refusal => throw refusal
  | .action _ | .guestAction _ | .customAction _ => pure .idle
termination_by (value.size, 3)
decreasing_by
  all_goals exact Prod.Lex.right _ (by omega)

/-- Compile a block of requirements: a map or a list; nothing is an empty block. -/
def compileRequirements (r : Registry) (sideEffects : Bool) (node : Node) :
    Compile (List Requirement) :=
  match _h : node.shape with
  | .scalar =>
    if node.isNull then pure []
    else do
      Compile.reject "conditions" (.failed (.shape .requirementBlock .scalar))
      return []
  | .list | .map => compileRequirementEach r sideEffects node.members
termination_by (node.size, 0)
decreasing_by
  all_goals exact Prod.Lex.left _ _ (Node.itemsSize_members_lt _ (by simp [_h]))

def compileRequirementEach (r : Registry) (sideEffects : Bool) (nodes : List Node) :
    Compile (List Requirement) :=
  match nodes with
  | [] => pure []
  | node :: rest => do
    let first ← compileRequirement r sideEffects node
    return first :: (← compileRequirementEach r sideEffects rest)
termination_by (Node.itemsSize nodes, 0)
decreasing_by
  all_goals exact Prod.Lex.left _ _ (by simp only [Node.itemsSize]; omega)

end

end RuleEngine
