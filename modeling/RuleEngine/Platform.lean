/-
  RuleEngine/Platform.lean
  ========================
  **The platform that rules act on.**

  Rules are triggered for a subject and act on the platform that the subject lives
  on: they send it messages and run commands.  The platform also resolves
  placeholders.  Its callbacks may fail instead of returning; the text of such a
  failure is what a panic carries away.
-/
import RuleEngine.Notice

namespace RuleEngine

structure Subject where
  id : String
  name : String
deriving DecidableEq, Repr

/-- The subject whose id is its name. -/
def Subject.ofName (name : String) : Subject := ⟨name, name⟩

/-- What rules ask of the platform, in the order in which they ask. -/
inductive Delivery where
  | message (target : Subject) (text : String)
  | command (subject : Subject) (text : String)
  /-- What a rule of the application writes, which only the application reads. -/
  | record (fields : List Node)

inductive PlatformCall where
  | placeholder (subject : Subject) (name : String)
  | deliver (delivery : Delivery)

/-- A platform: what its placeholders stand for, and which of its callbacks fail. -/
structure Platform where
  placeholder : Subject → String → Option String
  fault : PlatformCall → Option String := fun _ => none

/-- The platform that resolves nothing. -/
def Platform.silent : Platform := { placeholder := fun _ _ => none }

end RuleEngine
