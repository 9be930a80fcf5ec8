/-
  RuleEngine/Rule/Guard.lean
  ==========================
  **Containing panics.**

  No failure of a rule leaves the engine: an evaluation that panics is reported and
  answers with a fallback.  What it did before the panic stays done.
-/
import RuleEngine.Rule.Run

namespace RuleEngine

/-- Run a step; a panic is reported as one of `what` and answered with `fallback`. -/
def guarded {α : Type} (what : String) (fallback : α) (step : Run α) : StateM EngineState α :=
  fun st =>
    match step st with
    | .ok x st => (x, st)
    | .error message st =>
      (fallback, { st with world := st.world.report (.evaluationPanicked what message) })

/-- Trigger actions; a panic ends the trigger. -/
def trigger (c : ContextId) (actions : List Action) : StateM EngineState Unit :=
  guarded "trigger" () (triggerAll c actions)

/-- Whether requirements are satisfied; a panic counts as not. -/
def isSatisfied (c : ContextId) (requirements : List Requirement) (sideEffects : Bool) :
    StateM EngineState Bool :=
  guarded "requirements" false (allMet c sideEffects requirements)

end RuleEngine
