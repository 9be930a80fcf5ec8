/-
  RuleEngine/RuleBook.lean
  ========================
  **Rules by event.**

  A rule book says for each event under which conditions its actions run.  It is
  compiled once from a map of events; an entry that is no map is reported and left
  out.  Firing an event evaluates its conditions with side effects and, if they
  hold, runs its actions.
-/
import RuleEngine.Rule.Compile
import RuleEngine.Rule.Guard

namespace RuleEngine

structure EventRules where
  conditions : List Requirement
  actions : List Action

structure RuleBook where
  events : List (String × EventRules)

namespace RuleBook

def compileEvents (r : Registry) : List (String × Node) → Compile (List (String × EventRules))
  | [] => pure []
  | (event, .map entries) :: rest => do
    let conditions ← compileRequirements r true ((Node.map entries).valueOf "conditions")
    let actions ← compileActions r ((Node.map entries).valueOf "actions")
    return (event, ⟨conditions, actions⟩) :: (← compileEvents r rest)
  | (event, other) :: rest => do
    Compile.report (.eventSkipped event other.shape)
    compileEvents r rest

/-- Compile a rule book.  Only a root that is no map is an error. -/
def compile (r : Registry) (root : Node) : Compile (Except CompileError RuleBook) :=
  match root with
  | .map entries => do
    let events ← compileEvents r entries
    Compile.report (.bookCompiled events.length)
    return .ok ⟨events⟩
  | other => return .error (.shape .eventMap other.shape)

def rules? (b : RuleBook) (event : String) : Option EventRules := lookupEntry event b.events

/-- Fire an event for a context.  Tells whether its actions ran. -/
def fire (b : RuleBook) (event : String) (c : ContextId) : StateM EngineState Bool :=
  match b.rules? event with
  | none => do
    modify fun st => { st with world := st.world.report (.noRulesFor event) }
    return false
  | some rules =>
    guarded event false do
      if ← allMet c true rules.conditions then
        triggerAll c rules.actions
        return true
      else return false

end RuleBook

end RuleEngine
