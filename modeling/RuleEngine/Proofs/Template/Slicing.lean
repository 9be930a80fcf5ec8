/-
  RuleEngine/Proofs/Template/Slicing.lean
  =======================================
  **Scanning a source by byte offsets.**

  A scan can hold the whole source and the offset of the byte that it has come to, and cut
  out what it looks at.  One turn of its loop is then a function of the offset that has no
  outcome if a cut is within a character or beyond the end (`Segment.turn`, `Token.turn`).
  The loop comes to what the scan of the characters gives, and so every turn that it takes
  has an outcome: each offset that it computes is where a character starts.
-/
import RuleEngine.Proofs.Template.Rendering
import RuleEngine.Proofs.Text.Slice
import RuleEngine.Template.Token

namespace RuleEngine

open Text

/-! ### The loop of a scan -/

inductive ScanTurn (α : Type) where
  | done
  | refused (cause : TemplateError)
  /-- The scan goes on at an offset, and something is put in front of what it gives from there. -/
  | onward (put : List α → List α) (offset : Nat)

/-- The loop of a scan comes to a result from an offset on.  All turns on the way have an
    outcome. -/
inductive Loops {α : Type} (turn : Nat → Option (ScanTurn α)) :
    Nat → Except TemplateError (List α) → Prop
  | done {offset : Nat} (here : turn offset = some .done) : Loops turn offset (.ok [])
  | refused {offset : Nat} {cause : TemplateError} (here : turn offset = some (.refused cause)) :
      Loops turn offset (.error cause)
  | onward {offset next : Nat} {put : List α → List α} {result : Except TemplateError (List α)}
      (here : turn offset = some (.onward put next)) (rest : Loops turn next result) :
      Loops turn offset (result.map put)

/-- The loop comes to one result. -/
theorem Loops.unique {α : Type} {turn : Nat → Option (ScanTurn α)} {offset : Nat}
    {result other : Except TemplateError (List α)} (h : Loops turn offset result)
    (h' : Loops turn offset other) : result = other := by
  induction h generalizing other with
  | done here =>
    cases h' with
    | done => rfl
    | refused here' => rw [here] at here'; cases here'
    | onward here' => rw [here] at here'; cases here'
  | refused here =>
    cases h' with
    | done here' => rw [here] at here'; cases here'
    | refused here' => rw [here] at here'; cases here'; rfl
    | onward here' => rw [here] at here'; cases here'
  | onward here _ ih =>
    cases h' with
    | done here' => rw [here] at here'; cases here'
    | refused here' => rw [here] at here'; cases here'
    | onward here' rest' =>
      rw [here] at here'
      cases here'
      rw [ih rest']

/-! ### References -/

/-- The name of a placeholder that starts at an offset and the bytes that it takes, if there is
    one. -/
def placeholderFrom (source : List Char) (start : Nat) : Option (Option (List Char × Nat)) := do
  let rest ← sliceFrom? source (start + 1)
  match findByte? (· == '%') rest with
  | none => return none
  | some stop =>
    let name ← sliceTo? rest stop
    return if !name.isEmpty && name.all isReferenceChar then some (name, stop + 2) else none

/-- The key of a property that starts at an offset and the bytes that it takes. -/
def propertyFrom (source : List Char) (start : Nat) :
    Option (Except TemplateError (List Char × Nat)) := do
  let rest ← sliceFrom? source (start + 1)
  match findByte? (· == '\x7d') rest with
  | none => return .error (.unterminated start)
  | some stop =>
    let inside ← sliceTo? rest stop
    let key := trimChars inside
    if key.isEmpty then return .error .empty
    else
      match key.find? fun c => !isReferenceChar c with
      | some c => return .error (.unexpectedChar c (start + 1))
      | none => return .ok (key, stop + 2)

theorem findByte?_eq_splitAtChar (stop : Char) (cs : List Char) :
    findByte? (· == stop) cs = (splitAtChar stop cs).map fun split => utf8Length split.1 := by
  induction cs with
  | nil => rfl
  | cons c cs ih =>
    rw [findByte?, splitAtChar]
    by_cases hc : c = stop
    · rw [if_pos (beq_iff_eq.mpr hc), if_pos hc]
      rfl
    · rw [if_neg (by simpa using hc), if_neg hc, ih, Option.map_map, Option.map_map]
      rfl

/-- What is taken up to a closing character of one byte takes that byte, too. -/
theorem bytesBefore_close {stop : Char} (hstop : stop.utf8Size = 1) (inside rest : List Char) :
    bytesBefore (inside ++ stop :: rest) rest = utf8Length inside + 1 := by
  rw [bytesBefore, utf8Length_append, utf8Length_cons, hstop]
  omega

section Reading

variable {source rest : List Char} {start : Nat}

theorem placeholderFrom_eq (h : sliceFrom? source start = some ('%' :: rest)) :
    placeholderFrom source start =
      some ((placeholderAt rest).map fun taken => (taken.1, 1 + bytesBefore rest taken.2)) := by
  have hrest : sliceFrom? source (start + 1) = some rest := sliceFrom?_next h
  rw [placeholderFrom, hrest, placeholderAt]
  simp only [Option.bind_eq_bind, Option.bind_some, findByte?_eq_splitAtChar]
  cases hsplit : splitAtChar '%' rest with
  | none => rfl
  | some split =>
    obtain ⟨name, after⟩ := split
    obtain ⟨rfl, -⟩ := splitAtChar_eq_some hsplit
    have hlength : utf8Length name + 2 = 1 + bytesBefore (name ++ '%' :: after) after := by
      rw [bytesBefore_close (by decide)]
      omega
    simp only [Option.map_some, sliceTo?_append, Option.bind_some]
    rw [hlength]
    split <;> rfl

theorem propertyFrom_eq (h : sliceFrom? source start = some ('\x7b' :: rest)) :
    propertyFrom source start =
      some ((propertyAt start rest).map fun taken => (taken.1, 1 + bytesBefore rest taken.2)) := by
  have hrest : sliceFrom? source (start + 1) = some rest := sliceFrom?_next h
  rw [propertyFrom, hrest, propertyAt]
  simp only [Option.bind_eq_bind, Option.bind_some, findByte?_eq_splitAtChar]
  cases hsplit : splitAtChar '\x7d' rest with
  | none => rfl
  | some split =>
    obtain ⟨inside, after⟩ := split
    obtain ⟨rfl, -⟩ := splitAtChar_eq_some hsplit
    have hlength : utf8Length inside + 2 = 1 + bytesBefore (inside ++ '\x7d' :: after) after := by
      rw [bytesBefore_close (by decide)]
      omega
    simp only [Option.map_some, sliceTo?_append, Option.bind_some]
    rw [hlength]
    split
    · rfl
    · cases (trimChars inside).find? fun c => !isReferenceChar c <;> rfl

/-- Behind a reference a character starts, as its closing character has one byte. -/
theorem sliceFrom?_close {opening stop : Char} (hopening : opening.utf8Size = 1)
    (hstop : stop.utf8Size = 1) {inside after : List Char}
    (h : sliceFrom? source start = some (opening :: (inside ++ stop :: after))) :
    sliceFrom? source (start + 1 + bytesBefore (inside ++ stop :: after) after) = some after := by
  have hinside := sliceFrom?_skip (sliceFrom?_next h)
  have hafter := sliceFrom?_next hinside
  rwa [hopening, hstop, Nat.add_assoc _ _ 1, ← bytesBefore_close hstop inside after] at hafter

theorem sliceFrom?_placeholder {name after : List Char}
    (h : sliceFrom? source start = some ('%' :: rest))
    (hname : placeholderAt rest = some (name, after)) :
    sliceFrom? source (start + 1 + bytesBefore rest after) = some after := by
  obtain ⟨rfl, -⟩ := placeholderAt_eq_some_iff.mp hname
  exact sliceFrom?_close (by decide) (by decide) h

theorem sliceFrom?_property {offset : Nat} {key after : List Char}
    (h : sliceFrom? source start = some ('\x7b' :: rest))
    (hkey : propertyAt offset rest = .ok (key, after)) :
    sliceFrom? source (start + 1 + bytesBefore rest after) = some after := by
  obtain ⟨inside, rfl, -⟩ := propertyAt_eq_ok_iff.mp hkey
  exact sliceFrom?_close (by decide) (by decide) h

end Reading

/-! ### Text templates -/

namespace Segment

/-- One turn of the loop that cuts a text template into segments. -/
def turn (source : List Char) (offset : Nat) : Option (ScanTurn Segment) := do
  match ← sliceFrom? source offset with
  | [] => return .done
  | '%' :: _ =>
    let rest ← sliceFrom? source (offset + 1)
    if rest.head? = some '%' then return .onward (push '%') (offset + 2)
    else
      match ← placeholderFrom source offset with
      | some (name, length) =>
        return .onward (.reference (.placeholder (String.ofList name)) :: ·) (offset + length)
      | none => return .onward (push '%') (offset + 1)
  | '\x7b' :: _ =>
    match ← propertyFrom source offset with
    | .ok (key, length) =>
      return .onward (.reference (.property (String.ofList key)) :: ·) (offset + length)
    | .error cause => return .refused cause
  | c :: _ => return .onward (push c) (offset + c.utf8Size)

theorem head?_ne_of_pair {rest : List Char} (pair : ∀ more, rest = '%' :: more → False) :
    rest.head? ≠ some '%' := by
  intro h
  obtain ⟨more, hmore⟩ := List.head?_eq_some_iff.mp h
  exact pair more hmore

/-- The loop over the bytes of a source comes to what the scan of its characters gives. -/
theorem loops {source cs : List Char} {offset : Nat} (h : sliceFrom? source offset = some cs) :
    Loops (turn source) offset (scan offset cs) := by
  fun_induction scan offset cs with
  | case1 offset =>
    refine .done ?_
    rw [turn, h]
    rfl
  | case2 offset rest ih =>
    have hrest : sliceFrom? source (offset + 1) = some ('%' :: rest) := sliceFrom?_next h
    refine .onward ?_ (ih (sliceFrom?_next hrest))
    simp only [turn, h, hrest, Option.bind_eq_bind, Option.bind_some, List.head?_cons, if_true]
    rfl
  | case3 offset rest pair name after hname ih =>
    have hrest : sliceFrom? source (offset + 1) = some rest := sliceFrom?_next h
    refine .onward ?_ (ih (sliceFrom?_placeholder h hname))
    simp only [turn, h, hrest, Option.bind_eq_bind, Option.bind_some, placeholderFrom_eq h, hname,
      if_neg (head?_ne_of_pair pair), Option.map_some, ← Nat.add_assoc]
    rfl
  | case4 offset rest pair hname ih =>
    have hrest : sliceFrom? source (offset + 1) = some rest := sliceFrom?_next h
    refine .onward ?_ (ih hrest)
    simp only [turn, h, hrest, Option.bind_eq_bind, Option.bind_some, placeholderFrom_eq h, hname,
      if_neg (head?_ne_of_pair pair), Option.map_none]
    rfl
  | case5 offset rest key after hkey ih =>
    refine .onward ?_ (ih (sliceFrom?_property h hkey))
    simp only [turn, h, Option.bind_eq_bind, Option.bind_some, propertyFrom_eq h, hkey,
      Except.map, ← Nat.add_assoc]
    rfl
  | case6 offset rest cause hkey =>
    refine .refused ?_
    simp only [turn, h, Option.bind_eq_bind, Option.bind_some, propertyFrom_eq h, hkey,
      Except.map]
    rfl
  | case7 offset c rest pair percent brace ih =>
    refine .onward ?_ (ih (sliceFrom?_next h))
    simp only [turn, h, Option.bind_eq_bind, Option.bind_some]
    rfl

end Segment

namespace Token

def turn (source : List Char) (offset : Nat) : Option (ScanTurn Token) := do
  let here ← sliceFrom? source offset
  match here with
  | [] => return .done
  | c :: _ =>
    if isBlank c then return .onward id (offset + c.utf8Size)
    else if isNumberChar c then
      let length := (findByte? (fun d => !isNumberChar d) here).getD (utf8Length source - offset)
      let digits ← slice? source offset (offset + length)
      match Decimal.readFloat? (String.ofList digits) with
      | none => return .refused (.unexpectedToken (String.ofList digits))
      | some value => return .onward (.number value :: ·) (offset + length)
    else if isNameStart c then
      let length := (findByte? (fun d => !isNameChar d) here).getD (utf8Length source - offset)
      let letters ← slice? source offset (offset + length)
      return .onward (.name (String.ofList letters) :: ·) (offset + length)
    else if c = '\x7b' then
      match ← propertyFrom source offset with
      | .error cause => return .refused cause
      | .ok (key, length) =>
        return .onward (.reference (.property (String.ofList key)) :: ·) (offset + length)
    else if c = '%' then
      match ← placeholderFrom source offset with
      | some (word, length) =>
        return .onward (.reference (.placeholder (String.ofList word)) :: ·) (offset + length)
      | none => return .onward (.symbol .percent :: ·) (offset + 1)
    else
      match Symbol.ofChar? c with
      | some sign => return .onward (.symbol sign :: ·) (offset + 1)
      | none => return .refused (.unexpectedChar c offset)

/-- A run of characters is what the scan cuts out up to the first other character. -/
theorem slice?_run {p : Char → Bool} {source cs run : List Char} {offset : Nat}
    (h : sliceFrom? source offset = some cs) (hrun : cs.takeWhile p = run) :
    (findByte? (fun d => !p d) cs).getD (utf8Length source - offset) = utf8Length run ∧
      slice? source offset (offset + utf8Length run) = some run ∧
      sliceFrom? source (offset + utf8Length run) = some (cs.dropWhile p) := by
  subst hrun
  have hsplit : sliceFrom? source offset = some (cs.takeWhile p ++ cs.dropWhile p) := by
    rwa [List.takeWhile_append_dropWhile]
  refine ⟨?_, slice?_of_sliceFrom? hsplit, sliceFrom?_skip hsplit⟩
  rw [utf8Length_of_sliceFrom? h, Nat.add_sub_cancel_left, getD_findByte?]

theorem isNameChar_of_isNameStart {c : Char} (h : isNameStart c = true) : isNameChar c = true := by
  simp only [isNameStart, Bool.or_eq_true] at h
  simp only [isNameChar, Char.isAlphanum, Bool.or_eq_true]
  tauto

theorem utf8Size_of_ofChar? {c : Char} {sign : Symbol} (h : Symbol.ofChar? c = some sign) :
    c.utf8Size = 1 := by
  unfold Symbol.ofChar? at h
  split at h <;> first | decide | cases h

/-- The loop over the bytes of a source comes to what the scan of its characters gives. -/
theorem loops {source cs : List Char} {offset : Nat} (h : sliceFrom? source offset = some cs) :
    Loops (turn source) offset (scan offset cs) := by
  fun_induction scan offset cs with
  | case1 offset =>
    refine .done ?_
    rw [turn, h]
    rfl
  | case2 offset c rest hblank ih =>
    have here : turn source offset = some (.onward id (offset + c.utf8Size)) := by
      rw [turn, h]
      exact if_pos hblank
    have hloop := Loops.onward here (ih (sliceFrom?_next h))
    rw [Except.map_id] at hloop
    exact hloop
  | case3 offset c rest hblank hnumber digits hvalue =>
    have hdigits : (c :: rest).takeWhile isNumberChar = digits :=
      List.takeWhile_cons_of_pos hnumber
    obtain ⟨hlength, hslice, -⟩ := slice?_run h hdigits
    refine .refused ?_
    simp only [turn, h, Option.bind_eq_bind, Option.bind_some, if_neg hblank, if_pos hnumber,
      hlength, hslice, hvalue]
    rfl
  | case4 offset c rest hblank hnumber digits value hvalue =>
    rename_i ih
    have hdigits : (c :: rest).takeWhile isNumberChar = digits :=
      List.takeWhile_cons_of_pos hnumber
    obtain ⟨hlength, hslice, hrest⟩ := slice?_run h hdigits
    rw [List.dropWhile_cons_of_pos hnumber] at hrest
    refine .onward ?_ (ih hrest)
    simp only [turn, h, Option.bind_eq_bind, Option.bind_some, if_neg hblank, if_pos hnumber,
      hlength, hslice, hvalue]
    rfl
  | case5 offset c rest hblank hnumber hstart letters =>
    rename_i ih
    have hname := isNameChar_of_isNameStart hstart
    have hletters : (c :: rest).takeWhile isNameChar = letters :=
      List.takeWhile_cons_of_pos hname
    obtain ⟨hlength, hslice, hrest⟩ := slice?_run h hletters
    rw [List.dropWhile_cons_of_pos hname] at hrest
    refine .onward ?_ (ih hrest)
    simp only [turn, h, Option.bind_eq_bind, Option.bind_some, if_neg hblank, if_neg hnumber,
      if_pos hstart, hlength, hslice]
    rfl
  | case6 offset rest cause hkey hblank hnumber hstart =>
    refine .refused ?_
    simp only [turn, h, Option.bind_eq_bind, Option.bind_some, if_neg hblank, if_neg hnumber,
      if_neg hstart, if_true, propertyFrom_eq h, hkey, Except.map]
    rfl
  | case7 offset rest key after hkey hblank hnumber hstart ih =>
    refine .onward ?_ (ih (sliceFrom?_property h hkey))
    simp only [turn, h, Option.bind_eq_bind, Option.bind_some, if_neg hblank, if_neg hnumber,
      if_neg hstart, if_true, propertyFrom_eq h, hkey, Except.map, ← Nat.add_assoc]
    rfl
  | case8 offset rest word after hword hblank hnumber hstart hbrace ih =>
    refine .onward ?_ (ih (sliceFrom?_placeholder h hword))
    simp only [turn, h, Option.bind_eq_bind, Option.bind_some, if_neg hblank, if_neg hnumber,
      if_neg hstart, if_neg hbrace, if_true, placeholderFrom_eq h, hword, Option.map_some,
      ← Nat.add_assoc]
    rfl
  | case9 offset rest hword hblank hnumber hstart hbrace ih =>
    refine .onward ?_ (ih (sliceFrom?_next h))
    simp only [turn, h, Option.bind_eq_bind, Option.bind_some, if_neg hblank, if_neg hnumber,
      if_neg hstart, if_neg hbrace, if_true, placeholderFrom_eq h, hword, Option.map_none]
    rfl
  | case10 offset c rest hblank hnumber hstart hbrace hpercent sign hsign ih =>
    have hrest := sliceFrom?_next h
    rw [utf8Size_of_ofChar? hsign] at hrest
    refine .onward ?_ (ih hrest)
    simp only [turn, h, Option.bind_eq_bind, Option.bind_some, if_neg hblank, if_neg hnumber,
      if_neg hstart, if_neg hbrace, if_neg hpercent, hsign]
    rfl
  | case11 offset c rest hblank hnumber hstart hbrace hpercent hsign =>
    refine .refused ?_
    simp only [turn, h, Option.bind_eq_bind, Option.bind_some, if_neg hblank, if_neg hnumber,
      if_neg hstart, if_neg hbrace, if_neg hpercent, hsign]
    rfl

end Token

end RuleEngine
