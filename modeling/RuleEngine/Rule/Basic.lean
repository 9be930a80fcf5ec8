/-
  RuleEngine/Rule/Basic.lean
  ==========================
  **Compiled rules.**

  A compiled rule is a tree.  An action does something; it may be skipped by chance.
  A requirement decides something; when it is not met, its not-met actions may be
  triggered.  A node that did not compile is a rule with an idle body: an action
  that does nothing, a requirement that is never met.
-/
import RuleEngine.Rule.Procedure
import RuleEngine.Scheduler.Basic
import RuleEngine.Template.TextTemplate
import RuleEngine.Template.Formula

namespace RuleEngine

/-! ### Parts of rules -/

inductive Relation where
  | greater
  | greaterOrEqual
  | less
  | lessOrEqual
deriving DecidableEq, Repr

def Relation.holds : Relation → Float → Float → Bool
  | .greater, x, y => x > y
  | .greaterOrEqual, x, y => x ≥ y
  | .less, x, y => x < y
  | .lessOrEqual, x, y => x ≤ y

/-- A side of a comparison: its text, and the formula that the text is, if it is one. -/
structure Operand where
  text : TextTemplate
  number? : Option Formula
deriving DecidableEq

/-- The number of a loaded guest module. -/
abbrev GuestId := Nat

/-- What a guest is handed on every call: a text that is rendered then, or JSON. -/
inductive Payload where
  | text (template : TextTemplate)
  | json (value : String)
deriving DecidableEq

/-- The text in which a payload is shown to the validation of a guest. -/
def Payload.source : Payload → String
  | .text template => template.source
  | .json value => value

/-! ### Rules -/

mutual

/-- A rule that does something, when a roll is below its chance. -/
inductive Action where
  | mk (typeKey : String) (chance : Formula) (body : ActionBody)

inductive ActionBody where
  /-- Nothing: the node did not compile. -/
  | idle
  | chain (actions : List Action)
  /-- Trigger actions some ticks later. -/
  | delay (delay : Nat) (mode : ExecMode) (actions : List Action)
  /-- Trigger actions every `period` ticks, for a duration. -/
  | timer (delay period duration : Nat) (mode : ExecMode) (actions : List Action)
  | conditional (conditions : List Requirement) (actions : List Action)
  /-- Trigger the actions of the first branch whose conditions hold. -/
  | priority (branches : List Branch)
  | message (text : TextTemplate)
  | command (text : TextTemplate)
  | set (key : String) (value : TextTemplate)
  | guest (id : GuestId) (payload : Payload)
  | custom (procedure : Procedure Unit)

inductive Requirement where
  | mk (typeKey : String) (body : RequirementBody) (notMet : List Action)

inductive RequirementBody where
  /-- Never met: the node did not compile. -/
  | idle
  | all (requirements : List Requirement)
  | any (requirements : List Requirement)
  | not (requirement : Requirement)
  | equality (negated : Bool) (left right : Operand)
  | comparison (relation : Relation) (left right : Formula)
  /-- Met unless the key is cooling down; `unit` is the milliseconds of one of the
      window's units. -/
  | cooldown (key : TextTemplate) (window : Formula) (unit : Float)
  | chance (probability : Formula)
  | guest (id : GuestId) (payload : Payload)
  | custom (procedure : Bool → Procedure Bool)

inductive Branch where
  | mk (name : String) (conditions : List Requirement) (actions : List Action)

end

instance : Inhabited ActionBody := ⟨.idle⟩
instance : Inhabited RequirementBody := ⟨.idle⟩

namespace Action

def typeKey : Action → String
  | mk typeKey _ _ => typeKey

def chance : Action → Formula
  | mk _ chance _ => chance

def body : Action → ActionBody
  | mk _ _ body => body

/-- The action of a node that did not compile. -/
def disabled (typeKey : String) : Action := mk typeKey (.constant 1) .idle

def isDisabled (a : Action) : Bool :=
  match a.body with
  | .idle => true
  | _ => false

end Action

namespace Requirement

def typeKey : Requirement → String
  | mk typeKey _ _ => typeKey

def body : Requirement → RequirementBody
  | mk _ body _ => body

/-- The actions that may be triggered when the requirement is not met. -/
def notMet : Requirement → List Action
  | mk _ _ notMet => notMet

def disabled (typeKey : String) : Requirement := mk typeKey .idle []

def isDisabled (r : Requirement) : Bool :=
  match r.body with
  | .idle => true
  | _ => false

end Requirement

/-! ### How much work a rule can schedule -/

mutual

/-- How many firings of one tick the action can lead to. -/
def Action.weight : Action → Nat
  | .mk _ _ body => body.weight

def ActionBody.weight : ActionBody → Nat
  | .idle => 0
  | .chain actions => actionsWeight actions
  | .delay _ _ actions => actionsWeight actions + 1
  | .timer _ _ _ _ actions => actionsWeight actions + 2
  | .conditional conditions actions => requirementsWeight conditions + actionsWeight actions
  | .priority branches => branchesWeight branches
  | .message _ => 0
  | .command _ => 0
  | .set _ _ => 0
  | .guest _ _ => 0
  | .custom _ => 0

def Requirement.weight : Requirement → Nat
  | .mk _ body notMet => body.weight + actionsWeight notMet

def RequirementBody.weight : RequirementBody → Nat
  | .idle => 0
  | .all requirements => requirementsWeight requirements
  | .any requirements => requirementsWeight requirements
  | .not requirement => requirement.weight
  | .equality _ _ _ => 0
  | .comparison _ _ _ => 0
  | .cooldown _ _ _ => 0
  | .chance _ => 0
  | .guest _ _ => 0
  | .custom _ => 0

def Branch.weight : Branch → Nat
  | .mk _ conditions actions => requirementsWeight conditions + actionsWeight actions

def actionsWeight : List Action → Nat
  | [] => 0
  | a :: rest => a.weight + actionsWeight rest

def requirementsWeight : List Requirement → Nat
  | [] => 0
  | r :: rest => r.weight + requirementsWeight rest

def branchesWeight : List Branch → Nat
  | [] => 0
  | b :: rest => b.weight + branchesWeight rest

end

end RuleEngine
