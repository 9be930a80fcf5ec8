/-
  RuleEngine/Registry.lean
  ========================
  **Types of rules.**

  A rule node names its type by a key.  The registry says which factory makes the
  rules of a key: one of the built-in types, a guest module, or a factory of the
  application.  A factory has an identity, so one that was put back can be told from
  one that looks the same.
-/
import RuleEngine.Rule.Procedure
import RuleEngine.Rule.Basic

namespace RuleEngine

/-! ### Built-in types -/

inductive ActionType where
  | chain
  | delay
  | timer
  | conditional
  | priority
  | message
  | command
  | set
deriving DecidableEq, Repr

inductive RequirementType where
  | all
  | any
  | not
  | equal (negated : Bool)
  | compare (relation : Relation)
  | cooldown
  | chance
deriving DecidableEq, Repr

/-! ### Factories -/

inductive Refusal where
  | error (cause : CompileError)
  /-- It failed itself; the text of the failure, if there is one. -/
  | panicked (message? : Option String)
deriving DecidableEq, Repr

def panicText (message? : Option String) : String := message?.getD "unknown panic"

inductive Maker where
  | action (type : ActionType)
  | requirement (type : RequirementType)
  | guestAction (id : GuestId)
  | guestRequirement (id : GuestId)
  | customAction (make : Node → Except Refusal (Procedure Unit))
  | customRequirement (make : Node → Bool → Except Refusal (Bool → Procedure Bool))

def Maker.kind : Maker → RuleKind
  | action _ | guestAction _ | customAction _ => .action
  | requirement _ | guestRequirement _ | customRequirement _ => .requirement

structure Factory where
  id : Nat
  maker : Maker

def Factory.kind (f : Factory) : RuleKind := f.maker.kind

def Factory.same (f g : Factory) : Bool := f.id == g.id

/-- The built-in types with their keys, in the order in which they are registered. -/
def builtins : List (String × Maker) :=
  [("chain", .action .chain), ("delay", .action .delay), ("timer", .action .timer),
   ("conditional", .action .conditional), ("priority", .action .priority),
   ("&&", .requirement .all), ("||", .requirement .any), ("!", .requirement .not),
   ("message", .action .message), ("command", .action .command), ("set", .action .set),
   ("==", .requirement (.equal false)), ("!=", .requirement (.equal true)),
   (">", .requirement (.compare .greater)), (">=", .requirement (.compare .greaterOrEqual)),
   ("<", .requirement (.compare .less)), ("<=", .requirement (.compare .lessOrEqual)),
   ("cooldown", .requirement .cooldown), ("chance", .requirement .chance)]

/-! ### The registry -/

structure Registry where
  factories : List (String × Factory) := []
  nextId : Nat := 0

namespace Registry

def lookup? (r : Registry) (key : String) : Option Factory := lookupEntry key r.factories

def contains (r : Registry) (key : String) : Bool := (r.lookup? key).isSome

def mint (r : Registry) (maker : Maker) : Factory × Registry :=
  (⟨r.nextId, maker⟩, { r with nextId := r.nextId + 1 })

/-- The registry with a factory under a key, whoever had it before. -/
def insert (r : Registry) (key : String) (f : Factory) : Registry :=
  { r with factories := insertEntry key f r.factories }

def erase (r : Registry) (key : String) : Registry :=
  { r with factories := eraseEntry key r.factories }

/-- The first key that is taken, or that comes a second time. -/
def conflict? (r : Registry) (seen : List String) : List String → Option String
  | [] => none
  | key :: rest =>
    if r.contains key || seen.contains key then some key else conflict? r (key :: seen) rest

/-- Register a factory under keys: all of them, or none if one is taken or comes
    twice.  The notice says which. -/
def register (r : Registry) (f : Factory) (keys : List String) : Bool × Notice × Registry :=
  match r.conflict? [] keys with
  | some key => (false, .keyTaken key, r)
  | none => (true, .registered f.kind keys, keys.foldl (fun r key => r.insert key f) r)

def unregister (r : Registry) (key : String) : Bool × Registry := (r.contains key, r.erase key)

/-- Put a factory under a key.  Tells which one it displaces. -/
def replace (r : Registry) (key : String) (f : Factory) : Option Factory × Registry :=
  (r.lookup? key, r.insert key f)

def keys (r : Registry) : List String :=
  (r.factories.map Prod.fst).mergeSort fun a b => a ≤ b

def registerEach (r : Registry) : List (String × Maker) → Nat × List Notice × Registry
  | [] => (0, [], r)
  | (key, maker) :: rest =>
    let (f, r) := r.mint maker
    let (done, notice, r) := r.register f [key]
    let (count, notices, r) := r.registerEach rest
    (count + done.toNat, notice :: notices, r)

def registerBuiltins (r : Registry) : Nat × List Notice × Registry := r.registerEach builtins

end Registry

end RuleEngine
