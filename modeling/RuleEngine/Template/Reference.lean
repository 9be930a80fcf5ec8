/-
  RuleEngine/Template/Reference.lean
  ==================================
  **References inside templates.**

  A template mentions a property of the context as `{key}` and a placeholder of the
  platform as `%name%`.  A percent sign that starts no placeholder is an ordinary
  character, whereas an opening brace must start a property reference.  Both
  readers work on the characters after the opening one and return what follows the
  closing one, which is always shorter.
-/
import RuleEngine.Template.Error

namespace RuleEngine

/-! ### References and what they read -/

/-- A mention of something outside the template. -/
inductive Reference where
  | property (key : String)
  | placeholder (name : String)
deriving DecidableEq, Repr

def Reference.written : Reference → List Char
  | property key => '\x7b' :: key.toList ++ ['\x7d']
  | placeholder name => '%' :: name.toList ++ ['%']

/-- What the references of a template read: the properties of a context and the
    placeholders that the platform resolves for its subject. -/
structure Scope where
  property : String → Option Node
  placeholder : String → Option String

def Scope.text? (scope : Scope) : Reference → Option String
  | .property key => (scope.property key).bind Node.propertyText?
  | .placeholder name => scope.placeholder name

def Scope.number? (scope : Scope) : Reference → Option Float
  | .property key => (scope.property key).bind Node.asNumber?
  | .placeholder name => (scope.placeholder name).bind fun s => Decimal.readFloat? (Text.trim s)

/-! ### Scanning -/

/-- A character that a reference may be made of. -/
def isReferenceChar (c : Char) : Bool :=
  c.isAlphanum || c == '_' || c == '.' || c == ':' || c == '-'

/-- The characters before the first `stop` and those after it. -/
def splitAtChar (stop : Char) : List Char → Option (List Char × List Char)
  | [] => none
  | c :: cs =>
    if c = stop then some ([], cs)
    else (splitAtChar stop cs).map fun (before, after) => (c :: before, after)

theorem splitAtChar_eq_some {stop : Char} {cs before after : List Char}
    (h : splitAtChar stop cs = some (before, after)) :
    cs = before ++ stop :: after ∧ stop ∉ before := by
  induction cs generalizing before after with
  | nil => simp [splitAtChar] at h
  | cons c cs ih =>
    unfold splitAtChar at h
    split at h
    · simp only [Option.some.injEq, Prod.mk.injEq] at h
      obtain ⟨rfl, rfl⟩ := h
      simp_all
    · rename_i hc
      obtain ⟨⟨b, a⟩, hs, he⟩ := Option.map_eq_some_iff.1 h
      simp only [Prod.mk.injEq] at he
      obtain ⟨rfl, rfl⟩ := he
      obtain ⟨rfl, hb⟩ := ih hs
      exact ⟨rfl, by simp [hb, Ne.symm hc]⟩

theorem splitAtChar_length {stop : Char} {cs before after : List Char}
    (h : splitAtChar stop cs = some (before, after)) : after.length < cs.length := by
  rw [(splitAtChar_eq_some h).1]
  simp
  omega

/-- The placeholder name that the characters after a percent sign start with, and
    what follows its closing percent sign. -/
def placeholderAt (cs : List Char) : Option (List Char × List Char) :=
  match splitAtChar '%' cs with
  | some (name, rest) =>
    if !name.isEmpty && name.all isReferenceChar then some (name, rest) else none
  | none => none

theorem placeholderAt_length {cs name rest : List Char}
    (h : placeholderAt cs = some (name, rest)) : rest.length < cs.length := by
  unfold placeholderAt at h
  split at h
  · rename_i hs
    split at h
    · simp only [Option.some.injEq, Prod.mk.injEq] at h
      obtain ⟨rfl, rfl⟩ := h
      exact splitAtChar_length hs
    · simp at h
  · simp at h

/-- The property key that the characters after an opening brace start with, and
    what follows the closing brace.  `offset` is where the brace stands. -/
def propertyAt (offset : Nat) (cs : List Char) :
    Except TemplateError (List Char × List Char) :=
  match splitAtChar '\x7d' cs with
  | none => .error (.unterminated offset)
  | some (inside, rest) =>
    let key := Text.trimChars inside
    if key.isEmpty then .error .empty
    else
      match key.find? fun c => !isReferenceChar c with
      | some c => .error (.unexpectedChar c (offset + 1))
      | none => .ok (key, rest)

theorem propertyAt_length {offset : Nat} {cs key rest : List Char}
    (h : propertyAt offset cs = .ok (key, rest)) : rest.length < cs.length := by
  unfold propertyAt at h
  split at h
  · simp at h
  · rename_i hs
    dsimp only at h
    split at h
    · simp at h
    · split at h
      · simp at h
      · simp only [Except.ok.injEq, Prod.mk.injEq] at h
        obtain ⟨_, rfl⟩ := h
        exact splitAtChar_length hs

/-- The bytes between the start of a text and one of its ends. -/
def bytesBefore (cs rest : List Char) : Nat := Text.utf8Length cs - Text.utf8Length rest

end RuleEngine
