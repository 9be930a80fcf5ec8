/-
  RuleEngine/Console.lean
  =======================
  **The console as a platform.**

  On the command line a rule file is tried out for a subject that is only a name.
  The console resolves placeholders from a list of values and shows what rules ask
  of the platform as lines.
-/
import RuleEngine.Platform
import RuleEngine.Context
import RuleEngine.Text.Lowercase

namespace RuleEngine.Console

/-- The subject of a name: its id does not depend on the case of the name. -/
def subject (name : String) : Subject := ⟨Text.lowercase name, name⟩

/-- The value of a placeholder: the name of the subject, or the last of the values
    that were given for it. -/
def resolve (placeholders : List (String × String)) (subject : Subject) (name : String) :
    Option String :=
  if name = "player_name" then some subject.name else lookupEntry name (ofDeclared placeholders)

def platform (placeholders : List (String × String)) : Platform where
  placeholder := resolve placeholders

/-- A delivery as the console takes it: a command loses the slashes it starts with. -/
def shown : Delivery → Delivery
  | .command subject text =>
    .command subject (String.ofList (text.toList.dropWhile (· == '/')))
  | other => other

/-- The line that the console prints for a delivery as it takes it. -/
def line? : Delivery → Option String
  | .message target text => some s!"[to {target.name}] {text}"
  | .command subject text => some s!"[{subject.name}] /{text}"
  | .record _ => none

end RuleEngine.Console
