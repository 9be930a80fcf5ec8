/-
  RuleEngine/Template/TextTemplate.lean
  =====================================
  **Text templates.**

  A text template is literal text with references in it.  It is cut into segments
  once, when its rule is compiled, and rendered against a scope on every trigger.
  Two percent signs stand for one, and a reference that reads nothing stays as it
  is written.
-/
import RuleEngine.Template.Reference

namespace RuleEngine

/-! ### Segments -/

inductive Segment where
  | literal (text : List Char)
  | reference (target : Reference)
deriving DecidableEq, Repr

/-- Put a literal character in front of segments; neighbouring literals are one. -/
def Segment.push (c : Char) : List Segment → List Segment
  | .literal text :: rest => .literal (c :: text) :: rest
  | segments => .literal [c] :: segments

/-- Cut the characters of a template into segments, `offset` bytes into its source. -/
def Segment.scan (offset : Nat) (cs : List Char) : Except TemplateError (List Segment) :=
  match cs with
  | [] => .ok []
  | '%' :: '%' :: rest => (Segment.scan (offset + 2) rest).map (Segment.push '%')
  | '%' :: rest =>
    match h : placeholderAt rest with
    | some (name, after) =>
      (Segment.scan (offset + 1 + bytesBefore rest after) after).map
        (.reference (.placeholder (String.ofList name)) :: ·)
    | none => (Segment.scan (offset + 1) rest).map (Segment.push '%')
  | '\x7b' :: rest =>
    match h : propertyAt offset rest with
    | .ok (key, after) =>
      (Segment.scan (offset + 1 + bytesBefore rest after) after).map
        (.reference (.property (String.ofList key)) :: ·)
    | .error e => .error e
  | c :: rest => (Segment.scan (offset + c.utf8Size) rest).map (Segment.push c)
termination_by cs.length
decreasing_by
  · simp only [List.length_cons]
    omega
  · have := placeholderAt_length h
    simp
    omega
  · simp
  · have := propertyAt_length h
    simp
    omega
  · simp

/-- What a segment renders to: a reference that reads nothing stays as it is written. -/
def Segment.render (scope : Scope) : Segment → List Char
  | .literal text => text
  | .reference target => ((scope.text? target).map String.toList).getD target.written

/-! ### Templates -/

structure TextTemplate where
  source : String
  segments : List Segment
deriving DecidableEq, Repr

namespace TextTemplate

def compile (source : String) : Except TemplateError TextTemplate :=
  (Segment.scan 0 source.toList).map fun segments => ⟨source, segments⟩

def literal (text : String) : TextTemplate := ⟨text, [.literal text.toList]⟩

/-- The template in a scalar: a string is compiled, a number or a truth value is
    literal text. -/
def ofNode : Node → Except TemplateError TextTemplate
  | .scalar .null => .error .empty
  | .scalar (.str s) => compile s
  | .scalar s => .ok (literal ((Node.scalarText? s).getD ""))
  | other => .error (.notScalar other.shape)

def references (t : TextTemplate) : List Reference :=
  t.segments.filterMap fun
    | .literal _ => none
    | .reference target => some target

/-- Whether a template renders to the same text everywhere. -/
def isConstant (t : TextTemplate) : Bool :=
  t.segments.all fun
    | .literal _ => true
    | .reference _ => false

def render (t : TextTemplate) (scope : Scope) : String :=
  String.ofList (t.segments.flatMap (Segment.render scope))

end TextTemplate

end RuleEngine
