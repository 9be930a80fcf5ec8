/-
  RuleEngine/Template/Error.lean
  ==============================
  **Why a template does not compile.**

  Text templates and formulas share one set of causes.  Offsets count bytes of the
  UTF-8 source from its start.
-/
import RuleEngine.Node.Basic

namespace RuleEngine

inductive TemplateError where
  | unexpectedChar (found : Char) (offset : Nat)
  /-- A property reference that is opened at `offset` and never closed. -/
  | unterminated (offset : Nat)
  | unexpectedEnd
  | unexpectedToken (token : String)
  | unknownFunction (name : String)
  | arity (function : String) (expected got : Nat)
  | empty
  | notScalar (found : Shape)
deriving DecidableEq, Repr

namespace TemplateError

def message : TemplateError → String
  | unexpectedChar found offset => s!"unexpected character '{found}' at offset {offset}"
  | unterminated offset => s!"unterminated property reference starting at offset {offset}"
  | unexpectedEnd => "unexpected end of expression"
  | unexpectedToken token => s!"unexpected token '{token}'"
  | unknownFunction name => s!"unknown function '{name}'"
  | arity function expected got =>
    s!"function '{function}' takes {expected} argument(s), got {got}"
  | empty => "empty expression"
  | notScalar found => s!"expected a scalar, found a {found.name}"

end TemplateError

end RuleEngine
