/-
  RuleEngine/Context.lean
  =======================
  **The context of a trigger.**

  Rules run for a subject, with a map of properties and the subjects that messages
  go to for the moment.  A context outlives its trigger: delayed actions run
  against the same one and see what was written to it since.
-/
import RuleEngine.Platform

namespace RuleEngine

structure Location where
  world : String
  x : Float
  y : Float
  z : Float
deriving DecidableEq

abbrev ContextId := Nat

structure Context where
  subject : Subject
  properties : List (String × Node) := []
  /-- Whom messages go to; the subject itself when there are none. -/
  targets : List Subject := []

namespace Context

/-! ### Properties -/

def get? (c : Context) (key : String) : Option Node := lookupEntry key c.properties

def set (c : Context) (key : String) (value : Node) : Context :=
  { c with properties := insertEntry key value c.properties }

def remove (c : Context) (key : String) : Context :=
  { c with properties := eraseEntry key c.properties }

def text? (c : Context) (key : String) : Option String := (c.get? key).bind Node.propertyText?

def number? (c : Context) (key : String) : Option Float := (c.get? key).bind Node.asNumber?

theorem get?_set_same (c : Context) (key : String) (value : Node) :
    (c.set key value).get? key = some value :=
  lookupEntry_insertEntry_same key value c.properties

theorem get?_set_other (c : Context) {key other : String} (value : Node) (h : other ≠ key) :
    (c.set key value).get? other = c.get? other :=
  lookupEntry_insertEntry_other value c.properties h

theorem get?_remove_same (c : Context) (key : String) : (c.remove key).get? key = none :=
  lookupEntry_eraseEntry_same key c.properties

theorem get?_remove_other (c : Context) {key other : String} (h : other ≠ key) :
    (c.remove key).get? other = c.get? other :=
  lookupEntry_eraseEntry_other c.properties h

/-! ### Location and slot -/

def locationKey : String := "location"

def slotKey : String := "slot"

def location? (c : Context) : Option Location := do
  let node ← c.get? locationKey
  let world ← (← node.get? "world").text?
  let x ← (← node.get? "x").asNumber?
  let y ← (← node.get? "y").asNumber?
  let z ← (← node.get? "z").asNumber?
  return ⟨world, x, y, z⟩

def locationNode (l : Location) : Node :=
  .map [("world", .ofText l.world), ("x", .scalar (.float l.x)), ("y", .scalar (.float l.y)),
    ("z", .scalar (.float l.z))]

def setLocation (c : Context) (l : Location) : Context := c.set locationKey (locationNode l)

def slot? (c : Context) : Option Int64 := (c.get? slotKey).bind Node.asInteger?

def setSlot (c : Context) (slot : Int64) : Context := c.set slotKey (.scalar (.int slot))

/-! ### Scope and recipients -/

/-- What references of templates read in the context on a platform. -/
def scope (c : Context) (platform : Platform) : Scope where
  property := c.get?
  placeholder := platform.placeholder c.subject

/-- Whom a message goes to. -/
def recipients (c : Context) : List Subject :=
  if c.targets.isEmpty then [c.subject] else c.targets

end Context

end RuleEngine
