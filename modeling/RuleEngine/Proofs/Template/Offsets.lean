/-
  RuleEngine/Proofs/Template/Offsets.lean
  =======================================
  **Where a refused template is at fault.**

  A refusal for a character or for a brace that is never closed says at which byte of the
  source it stands.  Only the scan gives such refusals: the readers of a tree work on tokens
  and know no offsets (`Formula.treeOf_unplaced`).

  A brace that is never closed is where the offset says, and so is a character that starts
  no token of a formula.  For a character that may not be in a key, however, the offset is
  that of the first character between the braces, wherever in the key the character is
  (`Misplaced`).  Such an offset is a position of the source all the same, and it leads to
  the character that is named if the reference starts with it (`compile_error_offsets`).
-/
import RuleEngine.Proofs.Template.Slicing
import RuleEngine.Template.Formula

namespace RuleEngine

open Text

def TemplateError.offset? : TemplateError → Option Nat
  | unexpectedChar _ offset => some offset
  | unterminated offset => some offset
  | _ => none

namespace Formula

/-! ### The readers of a tree -/

/-- A reader tells no offset when it fails. -/
def Unplaced {α : Type} (x : Except TemplateError α) : Prop :=
  ∀ e, x = .error e → e.offset? = none

theorem unplaced_ok {α : Type} (a : α) : Unplaced (.ok a) := by
  intro e h
  cases h

theorem unplaced_error {α : Type} {e : TemplateError} (he : e.offset? = none) :
    Unplaced (.error e : Except TemplateError α) := by
  intro e' h
  cases h
  exact he

theorem Unplaced.bind {α β : Type} {x : Except TemplateError α} {f : α → Except TemplateError β}
    (hx : Unplaced x) (hf : ∀ a, Unplaced (f a)) : Unplaced (x >>= f) := by
  cases x with
  | error e => exact unplaced_error (hx e rfl)
  | ok a => exact hf a

theorem expect_unplaced (sign : Symbol) (ts : List Token) : Unplaced (expect sign ts) := by
  unfold expect
  split
  · exact unplaced_error rfl
  · split
    · exact unplaced_ok _
    · exact unplaced_error rfl

mutual

theorem takeSum_unplaced (ts : List Token) : Unplaced (takeSum ts) := by
  rw [takeSum]
  refine (takeProduct_unplaced ts).bind fun ⟨first, rest, shorter⟩ => ?_
  refine (growSum_unplaced first rest).bind fun ⟨tree, rest', _⟩ => ?_
  exact unplaced_ok _
termination_by (ts.length, 4)

theorem growSum_unplaced (left : Arithmetic.Tree) (ts : List Token) :
    Unplaced (growSum left ts) := by
  match ts with
  | [] =>
    rw [growSum]
    exact unplaced_ok _
  | t :: more =>
    rw [growSum]
    split
    · exact unplaced_ok _
    · rename_i op _
      refine (takeProduct_unplaced more).bind fun ⟨right, rest, shorter⟩ => ?_
      refine (growSum_unplaced (.binary op left right) rest).bind fun ⟨tree, rest', _⟩ => ?_
      exact unplaced_ok _
termination_by (ts.length, 3)

theorem takeProduct_unplaced (ts : List Token) : Unplaced (takeProduct ts) := by
  rw [takeProduct]
  refine (takeUnary_unplaced ts).bind fun ⟨first, rest, shorter⟩ => ?_
  refine (growProduct_unplaced first rest).bind fun ⟨tree, rest', _⟩ => ?_
  exact unplaced_ok _
termination_by (ts.length, 3)

theorem growProduct_unplaced (left : Arithmetic.Tree) (ts : List Token) :
    Unplaced (growProduct left ts) := by
  match ts with
  | [] =>
    rw [growProduct]
    exact unplaced_ok _
  | t :: more =>
    rw [growProduct]
    split
    · exact unplaced_ok _
    · rename_i op _
      refine (takeUnary_unplaced more).bind fun ⟨right, rest, shorter⟩ => ?_
      refine (growProduct_unplaced (.binary op left right) rest).bind fun ⟨tree, rest', _⟩ => ?_
      exact unplaced_ok _
termination_by (ts.length, 2)

theorem takeUnary_unplaced (ts : List Token) : Unplaced (takeUnary ts) := by
  rw [takeUnary.eq_def]
  split
  · rename_i more
    exact (takeUnary_unplaced more).bind fun _ => unplaced_ok _
  · rename_i more
    exact (takeUnary_unplaced more).bind fun _ => unplaced_ok _
  · exact takePower_unplaced _
termination_by (ts.length, 2)

theorem takePower_unplaced (ts : List Token) : Unplaced (takePower ts) := by
  rw [takePower]
  refine (takeAtom_unplaced ts).bind fun ⟨base, rest, shorter⟩ => ?_
  dsimp only
  split
  · rename_i more h
    have fewer : more.length < ts.length := by
      rw [List.length_cons] at h
      omega
    exact (takeUnary_unplaced more).bind fun _ => unplaced_ok _
  · exact unplaced_ok _
termination_by (ts.length, 1)

theorem takeAtom_unplaced (ts : List Token) : Unplaced (takeAtom ts) := by
  match ts with
  | [] =>
    rw [takeAtom]
    exact unplaced_error rfl
  | .number value :: more =>
    rw [takeAtom]
    exact unplaced_ok _
  | .reference target :: more =>
    rw [takeAtom]
    exact unplaced_ok _
  | .name word :: more =>
    rw [takeAtom]
    split
    · exact unplaced_error rfl
    · rename_i function _
      refine (expect_unplaced .openParen more).bind fun ⟨_, rest, shorter⟩ => ?_
      refine (takeArguments_unplaced rest).bind fun ⟨arguments, rest', _⟩ => ?_
      refine (expect_unplaced .closeParen rest').bind fun _ => ?_
      dsimp only
      split
      · exact unplaced_ok _
      · exact unplaced_error rfl
  | .symbol sign :: more =>
    cases sign with
    | openParen =>
      rw [takeAtom]
      refine (takeSum_unplaced more).bind fun ⟨inner, rest, _⟩ => ?_
      exact (expect_unplaced .closeParen rest).bind fun _ => unplaced_ok _
    | _ =>
      simp only [takeAtom]
      exact unplaced_error rfl
termination_by (ts.length, 0)

theorem takeArguments_unplaced (ts : List Token) : Unplaced (takeArguments ts) := by
  rw [takeArguments.eq_def]
  split
  · exact unplaced_ok _
  · refine (takeSum_unplaced _).bind fun ⟨first, rest, shorter⟩ => ?_
    exact (moreArguments_unplaced rest).bind fun _ => unplaced_ok _
termination_by (ts.length, 5)

theorem moreArguments_unplaced (ts : List Token) : Unplaced (moreArguments ts) := by
  by_cases hcomma : ∃ more, ts = .symbol .comma :: more
  · obtain ⟨more, hts⟩ := hcomma
    have fewer : more.length < ts.length := by
      rw [hts]
      exact Nat.lt_succ_self _
    rw [hts, moreArguments]
    refine (takeSum_unplaced more).bind fun ⟨next, rest, shorter⟩ => ?_
    have := Nat.lt_trans shorter fewer
    exact (moreArguments_unplaced rest).bind fun _ => unplaced_ok _
  · rw [moreArguments.eq_def]
    split
    · exact absurd ⟨_, rfl⟩ hcomma
    · exact unplaced_ok _
termination_by (ts.length, 0)

end

/-- What is wrong with a list of tokens has no offset. -/
theorem treeOf_unplaced (ts : List Token) : Unplaced (treeOf ts) := by
  unfold treeOf
  split
  · exact unplaced_error rfl
  · refine (takeSum_unplaced _).bind fun ⟨tree, rest, _⟩ => ?_
    dsimp only
    split
    · exact unplaced_ok _
    · exact unplaced_error rfl

end Formula

/-! ### The scans -/

/-- What a reference in a source is refused for: its brace is never closed, its key has a
    character that may not be in a key, or something that no offset is told of. -/
inductive Misread (source : List Char) : TemplateError → Prop
  | unclosed {start : Nat} {after : List Char}
      (here : sliceFrom? source start = some ('\x7b' :: after)) (unclosed : '\x7d' ∉ after) :
      Misread source (.unterminated start)
  | inKey {start : Nat} {inside after : List Char} {c : Char}
      (here : sliceFrom? source start = some ('\x7b' :: (inside ++ '\x7d' :: after)))
      (closed : '\x7d' ∉ inside)
      (first : (trimChars inside).find? (fun d => !isReferenceChar d) = some c) :
      Misread source (.unexpectedChar c (start + 1))
  | unplaced {e : TemplateError} (he : e.offset? = none) : Misread source e

theorem misread_of_propertyAt {source rest : List Char} {start : Nat} {e : TemplateError}
    (here : sliceFrom? source start = some ('\x7b' :: rest))
    (h : propertyAt start rest = .error e) : Misread source e := by
  unfold propertyAt at h
  split at h
  · rename_i hsplit
    cases h
    exact .unclosed here (not_mem_of_splitAtChar_eq_none hsplit)
  · rename_i inside after hsplit
    obtain ⟨rfl, closed⟩ := splitAtChar_eq_some hsplit
    dsimp only at h
    split at h
    · cases h
      exact .unplaced rfl
    · split at h
      · rename_i c first
        cases h
        exact .inKey here closed first
      · cases h

theorem exists_error_of_map {α β : Type} {f : α → β} {x : Except TemplateError α}
    {e : TemplateError} (h : x.map f = .error e) : x = .error e := by
  cases x with
  | error e' =>
    cases h
    rfl
  | ok a => cases h

theorem misread_of_propertyFrom {source rest : List Char} {start : Nat} {e : TemplateError}
    (here : sliceFrom? source start = some ('\x7b' :: rest))
    (h : propertyFrom source start = some (.error e)) : Misread source e := by
  rw [propertyFrom_eq here] at h
  exact misread_of_propertyAt here (exists_error_of_map (Option.some.inj h))

/-- A scan that fails does so in one of its turns. -/
theorem Loops.exists_refused {α : Type} {turn : Nat → Option (ScanTurn α)} {offset : Nat}
    {e : TemplateError} (h : Loops turn offset (.error e)) :
    ∃ start, turn start = some (.refused e) := by
  generalize hresult : (Except.error e : Except TemplateError (List α)) = result at h
  induction h with
  | done here => cases hresult
  | refused here =>
    cases hresult
    exact ⟨_, here⟩
  | onward here rest ih => exact ih (exists_error_of_map hresult.symm).symm

/-- A turn of the scan that refuses has misread the source. -/
theorem Segment.misread_of_turn {source : List Char} {start : Nat} {e : TemplateError}
    (h : turn source start = some (.refused e)) : Misread source e := by
  obtain ⟨cs, here, h⟩ := Option.bind_eq_some_iff.mp h
  split at h
  · cases h
  · obtain ⟨rest, hrest, h⟩ := Option.bind_eq_some_iff.mp h
    split at h
    · cases h
    · obtain ⟨taken, htaken, h⟩ := Option.bind_eq_some_iff.mp h
      split at h <;> cases h
  · obtain ⟨taken, htaken, h⟩ := Option.bind_eq_some_iff.mp h
    split at h
    · cases h
    · cases h
      exact misread_of_propertyFrom here htaken
  · cases h

/-- A formula is refused for a reference, or for a character that starts no token. -/
theorem Token.misread_of_turn {source : List Char} {start : Nat} {e : TemplateError}
    (h : turn source start = some (.refused e)) :
    Misread source e ∨ ∃ c after, e = .unexpectedChar c start ∧
      sliceFrom? source start = some (c :: after) := by
  obtain ⟨cs, here, h⟩ := Option.bind_eq_some_iff.mp h
  split at h
  · cases h
  · rename_i c rest
    split_ifs at h with hblank hnumber hstart hbrace hpercent
    · cases h
    · obtain ⟨digits, hdigits, h⟩ := Option.bind_eq_some_iff.mp h
      split at h
      · cases h
        exact .inl (.unplaced rfl)
      · cases h
    · obtain ⟨letters, hletters, h⟩ := Option.bind_eq_some_iff.mp h
      cases h
    · subst hbrace
      obtain ⟨taken, htaken, h⟩ := Option.bind_eq_some_iff.mp h
      split at h
      · cases h
        exact .inl (misread_of_propertyFrom here htaken)
      · cases h
    · obtain ⟨taken, htaken, h⟩ := Option.bind_eq_some_iff.mp h
      split at h <;> cases h
    · split at h
      · cases h
      · cases h
        exact .inr ⟨c, rest, rfl, here⟩

/-! ### Refused templates -/

/-- A brace that is never closed opens at an offset. -/
def Unclosed (source : String) (offset : Nat) : Prop :=
  ∃ after, sliceFrom? source.toList offset = some ('\x7b' :: after) ∧ '\x7d' ∉ after

/-- A reference has a character that may not be in a key, and the offset is that of the first
    character between its braces. -/
def Misplaced (source : String) (c : Char) (offset : Nat) : Prop :=
  ∃ start inside after,
    sliceFrom? source.toList start = some ('\x7b' :: (inside ++ '\x7d' :: after)) ∧
      '\x7d' ∉ inside ∧ (trimChars inside).find? (fun d => !isReferenceChar d) = some c ∧
      offset = start + 1 ∧ String.Pos.Raw.get? source ⟨offset⟩ = inside.head?

theorem misread_of_compile_text {source : String} {e : TemplateError}
    (h : TextTemplate.compile source = .error e) : Misread source.toList e := by
  have hloop := Segment.loops (sliceFrom?_zero source.toList)
  rw [exists_error_of_map h] at hloop
  obtain ⟨start, hturn⟩ := hloop.exists_refused
  exact Segment.misread_of_turn hturn

theorem misread_of_compile_formula {source : String} {e : TemplateError}
    (h : Formula.compile source = .error e) :
    Misread source.toList e ∨ ∃ c start after, e = .unexpectedChar c start ∧
      sliceFrom? source.toList start = some (c :: after) := by
  unfold Formula.compile at h
  cases hscan : Token.scan 0 source.toList with
  | error cause =>
    rw [hscan] at h
    cases h
    have hloop := Token.loops (sliceFrom?_zero source.toList)
    rw [hscan] at hloop
    obtain ⟨start, hturn⟩ := hloop.exists_refused
    obtain hmisread | ⟨c, after, he, here⟩ := Token.misread_of_turn hturn
    · exact .inl hmisread
    · exact .inr ⟨c, start, after, he, here⟩
  | ok tokens =>
    refine .inl (.unplaced ?_)
    rw [hscan] at h
    cases htree : Formula.treeOf tokens with
    | error cause =>
      simp only [htree, bind, Except.bind] at h
      cases h
      exact Formula.treeOf_unplaced tokens _ htree
    | ok tree =>
      simp only [htree, bind, Except.bind] at h
      cases h

section Misread

variable {source : String}

theorem Misread.isValid {e : TemplateError} (h : Misread source.toList e) {offset : Nat}
    (hoffset : e.offset? = some offset) : (⟨offset⟩ : String.Pos.Raw).IsValid source := by
  rw [isValid_iff]
  cases h with
  | unclosed here _ =>
    cases hoffset
    exact ⟨_, here⟩
  | inKey here _ _ =>
    cases hoffset
    exact ⟨_, sliceFrom?_next here⟩
  | unplaced he =>
    rw [he] at hoffset
    cases hoffset

/-- What is refused as unterminated opens a brace that is never closed. -/
theorem Misread.opens {offset : Nat} (h : Misread source.toList (.unterminated offset)) :
    Unclosed source offset := by
  cases h with
  | unclosed here unclosed => exact ⟨_, here, unclosed⟩
  | unplaced he => cases he

/-- A character that is refused stands in a property, and not where the refusal says. -/
theorem Misread.misplaced {c : Char} {offset : Nat}
    (h : Misread source.toList (.unexpectedChar c offset)) : Misplaced source c offset := by
  cases h with
  | @inKey start inside after _ here closed first =>
    refine ⟨start, inside, after, here, closed, first, rfl, ?_⟩
    have hinside := get?_of_sliceFrom? (sliceFrom?_next here)
    cases inside with
    | nil => cases first
    | cons d more => exact hinside
  | unplaced he => cases he

end Misread

/-- **Cuts are never within a character, and offsets lead to what is at fault but for one
    case.**  The loops over the bytes of a source come to what the scans give and to nothing
    else, so every cut that they make is where a character starts or at the end.  The offset of
    a refusal is a position of the source.  A brace that is never closed opens there, and a
    character that starts no token of a formula stands there.  A character that may not be in a
    key is told with the offset behind the opening brace, where it stands only if the reference
    starts with it. -/
theorem compile_error_offsets (source : String) :
    (∀ result, Loops (Segment.turn source.toList) 0 result ↔
      result = Segment.scan 0 source.toList) ∧
    (∀ result, Loops (Token.turn source.toList) 0 result ↔
      result = Token.scan 0 source.toList) ∧
    ∀ e, TextTemplate.compile source = .error e ∨ Formula.compile source = .error e →
      (∀ offset, e.offset? = some offset → (⟨offset⟩ : String.Pos.Raw).IsValid source) ∧
      (∀ offset, e = .unterminated offset → Unclosed source offset) ∧
      ∀ c offset, e = .unexpectedChar c offset → Misplaced source c offset ∨
        Formula.compile source = .error e ∧ String.Pos.Raw.get? source ⟨offset⟩ = some c := by
  have htext := Segment.loops (sliceFrom?_zero source.toList)
  have hformula := Token.loops (sliceFrom?_zero source.toList)
  refine ⟨fun result => ⟨fun h => h.unique htext, fun h => h ▸ htext⟩,
    fun result => ⟨fun h => h.unique hformula, fun h => h ▸ hformula⟩, fun e h => ?_⟩
  have hfault : Misread source.toList e ∨ Formula.compile source = .error e ∧
      ∃ c start after, e = .unexpectedChar c start ∧
        sliceFrom? source.toList start = some (c :: after) := by
    rcases h with h | h
    · exact .inl (misread_of_compile_text h)
    · exact (misread_of_compile_formula h).imp_right fun hstray => ⟨h, hstray⟩
  rcases hfault with hmisread | ⟨hcompile, c, start, after, rfl, here⟩
  · refine ⟨fun offset => hmisread.isValid, ?_, ?_⟩
    · rintro offset rfl
      exact hmisread.opens
    · rintro c offset rfl
      exact .inl hmisread.misplaced
  · refine ⟨?_, ?_, ?_⟩
    · rintro offset hoffset
      cases hoffset
      exact isValid_iff.mpr ⟨_, here⟩
    · rintro offset ⟨⟩
    · rintro d offset hd
      cases hd
      exact .inr ⟨hcompile, get?_of_sliceFrom? here⟩

/-- The space in a key stands at the byte 2, but the byte 1 is told, where the key starts.  The
    offset of a brace that is never closed and that of a letter in a formula count the bytes of
    what stands before. -/
theorem compile_error_offsets_key :
    (TextTemplate.compile "\x7ba b\x7d" = .error (.unexpectedChar ' ' 1) ∧
      Misplaced "\x7ba b\x7d" ' ' 1 ∧ String.Pos.Raw.get? "\x7ba b\x7d" ⟨1⟩ = some 'a' ∧
      String.Pos.Raw.get? "\x7ba b\x7d" ⟨2⟩ = some ' ') ∧
    (TextTemplate.compile "é \x7ba" = .error (.unterminated 3) ∧ Unclosed "é \x7ba" 3) ∧
    Formula.compile "2 × ü" = .error (.unexpectedChar '×' 2) ∧
      (⟨2⟩ : String.Pos.Raw).IsValid "2 × ü" := by
  obtain ⟨-, -, hkey⟩ := compile_error_offsets "\x7ba b\x7d"
  obtain ⟨-, -, hbrace⟩ := compile_error_offsets "é \x7ba"
  obtain ⟨-, -, hsign⟩ := compile_error_offsets "2 × ü"
  have key : TextTemplate.compile "\x7ba b\x7d" = .error (.unexpectedChar ' ' 1) := by
    decide +kernel
  have brace : TextTemplate.compile "é \x7ba" = .error (.unterminated 3) := by decide +kernel
  have sign : Formula.compile "2 × ü" = .error (.unexpectedChar '×' 2) := by decide +kernel
  have first : String.Pos.Raw.get? "\x7ba b\x7d" ⟨1⟩ = some 'a' := by decide +kernel
  refine ⟨⟨key, ?_, first, by decide +kernel⟩, ⟨brace, (hbrace _ (.inl brace)).2.1 3 rfl⟩, sign,
    (hsign _ (.inr sign)).1 2 rfl⟩
  obtain hmisplaced | ⟨-, hat⟩ := (hkey _ (.inl key)).2.2 ' ' 1 rfl
  · exact hmisplaced
  · rw [first] at hat
    cases hat

end RuleEngine
