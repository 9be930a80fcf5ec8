/-
  RuleEngine/Assignment.lean
  ==========================
  **Values given on the command line.**

  A property or placeholder is given as a key and a value with an equals sign
  between them.  The value of a property is read as a rule file would read it, as
  long as it is a single scalar; anything else stands for its own text.
-/
import RuleEngine.Node.OfYaml

namespace RuleEngine

structure Assignment where
  key : String
  value : String
deriving DecidableEq, Repr

inductive AssignmentError where
  | noEqualsSign (argument : String)
  | noKey (argument : String)
deriving DecidableEq, Repr

def AssignmentError.message : AssignmentError → String
  | noEqualsSign argument => s!"expected key=value, got '{argument}'"
  | noKey argument => s!"missing key in '{argument}'"

namespace Assignment

/-- The assignment of an argument: the first equals sign ends the key, and blanks
    around the key do not belong to it. -/
def parse (argument : String) : Except AssignmentError Assignment :=
  let cs := argument.toList
  match cs.dropWhile (· != '=') with
  | [] => .error (.noEqualsSign argument)
  | _ :: value =>
    let key := Text.trim (String.ofList (cs.takeWhile (· != '=')))
    if key = "" then .error (.noKey argument) else .ok ⟨key, String.ofList value⟩

end Assignment

/-- The property that a text stands for: a number or truth value keeps its type. -/
def Node.ofGiven (text : String) : Node :=
  match Node.readYaml text with
  | .ok (.scalar s) => if (Node.scalar s).isNull then .ofText text else .scalar s
  | _ => .ofText text

end RuleEngine
