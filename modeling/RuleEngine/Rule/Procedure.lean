/-
  RuleEngine/Rule/Procedure.lean
  ==============================
  **Rules of the application.**

  An application may add types of rules of its own.  What such a rule does is a
  procedure: a tree whose nodes are operations of the context that the rule runs
  for, and whose branches are what the operations return.  A procedure may also
  fail, which ends the trigger it runs in.
-/
import RuleEngine.Context
import RuleEngine.Duration

namespace RuleEngine

/-- A computation over the operations of a context. -/
inductive Procedure (α : Type) : Type where
  | done (result : α)
  | fail (message : String)
  | subject (next : Subject → Procedure α)
  | read (key : String) (next : Option Node → Procedure α)
  | write (key : String) (value : Node) (next : Procedure α)
  | setTargets (targets : List Subject) (next : Procedure α)
  | deliver (delivery : Delivery) (next : Procedure α)
  | roll (next : Float → Procedure α)
  | useCooldown (key : String) (window : Duration) (next : Bool → Procedure α)

end RuleEngine
