/-
  RuleEngine/Proofs/Template/Rendering.lean
  =========================================
  **What a text template renders to.**

  Two questions are answered here from the source of a template alone, for every source.

  Which texts can be quoted?  Doubling each percent sign gives a template that has no
  references and renders to the text in every scope, exactly if the text has no opening
  brace (`quoted_is_literal`): a brace cannot be quoted.

  What becomes of references that read nothing?  The scan goes through a source from left
  to right and meets pieces of it (`Reads`), in exactly one way (`Reads.unique`).  Where no
  reference reads anything, a pair of percent signs is shown as one of them and every other
  piece as it is written, but for one thing: a property is shown without the blanks around
  its key (`Piece.shown`).  So the rendering is the source, up to the pairs, exactly if no
  key is written with blanks around it (`unresolved_renders`).
-/
import RuleEngine.Context
import RuleEngine.Proofs.Template.References
import RuleEngine.Template.TextTemplate

namespace RuleEngine

/-! ### Literal characters in front of segments -/

namespace Segment

theorem flatMap_render_push (scope : Scope) (c : Char) (segments : List Segment) :
    (push c segments).flatMap (render scope) = c :: segments.flatMap (render scope) := by
  rcases segments with _ | ⟨_ | _, _⟩ <;> rfl

theorem reference_mem_push {target : Reference} {c : Char} {segments : List Segment} :
    .reference target ∈ push c segments ↔ .reference target ∈ segments := by
  rcases segments with _ | ⟨_ | _, _⟩ <;> simp [push]

end Segment

namespace TextTemplate

theorem isConstant_iff {t : TextTemplate} :
    t.isConstant ↔ ∀ target, .reference target ∉ t.segments := by
  rw [isConstant, List.all_eq_true]
  constructor
  · intro hall target hmem
    exact Bool.false_ne_true (hall _ hmem)
  · intro hnone segment hmem
    cases segment with
    | literal text => rfl
    | reference target => exact absurd hmem (hnone target)

/-! ### Quoting a text -/

/-- Characters with every percent sign written twice. -/
def doubled (cs : List Char) : List Char :=
  cs.flatMap fun c => if c = '%' then ['%', '%'] else [c]

def quoted (text : String) : String := String.ofList (doubled text.toList)

theorem doubled_percent (cs : List Char) : doubled ('%' :: cs) = '%' :: '%' :: doubled cs := rfl

theorem doubled_cons {c : Char} (hc : c ≠ '%') (cs : List Char) :
    doubled (c :: cs) = c :: doubled cs := by
  simp [doubled, hc]

theorem scan_char {c : Char} (hpercent : c ≠ '%') (hbrace : c ≠ '\x7b') (offset : Nat)
    (cs : List Char) :
    Segment.scan offset (c :: cs) =
      (Segment.scan (offset + c.utf8Size) cs).map (Segment.push c) := by
  rw [Segment.scan]
  · intro _ hc
    exact absurd hc hpercent
  · exact hpercent
  · exact hbrace

theorem scan_doubled {cs : List Char} (hcs : '\x7b' ∉ cs) (offset : Nat) :
    Segment.scan offset (doubled cs) = .ok (cs.foldr Segment.push []) := by
  induction cs generalizing offset with
  | nil => rw [doubled, List.flatMap_nil, Segment.scan]; rfl
  | cons c cs ih =>
    rw [List.mem_cons, not_or] at hcs
    obtain ⟨hbrace, hrest⟩ := hcs
    by_cases hc : c = '%'
    · subst hc
      rw [doubled_percent, Segment.scan, ih hrest]
      rfl
    · rw [doubled_cons hc, scan_char hc (Ne.symm hbrace), ih hrest]
      rfl

/-- A brace is never quoted: the scan reads a property there, or fails. -/
theorem exists_reference_of_brace {cs : List Char} (hcs : '\x7b' ∈ cs) {offset : Nat}
    {segments : List Segment} (h : Segment.scan offset (doubled cs) = .ok segments) :
    ∃ target, .reference target ∈ segments := by
  induction cs generalizing offset segments with
  | nil => cases hcs
  | cons c cs ih =>
    by_cases hpercent : c = '%'
    · subst hpercent
      rw [doubled_percent, Segment.scan] at h
      obtain ⟨rest, hrest, rfl⟩ := exists_ok_of_map h
      obtain ⟨target, htarget⟩ := ih (by simpa using hcs) hrest
      exact ⟨target, Segment.reference_mem_push.mpr htarget⟩
    · rw [doubled_cons hpercent] at h
      by_cases hbrace : c = '\x7b'
      · subst hbrace
        rw [Segment.scan] at h
        split at h
        · obtain ⟨rest, -, rfl⟩ := exists_ok_of_map h
          exact ⟨_, List.mem_cons_self⟩
        · cases h
      · rw [scan_char hpercent hbrace] at h
        obtain ⟨rest, hrest, rfl⟩ := exists_ok_of_map h
        obtain ⟨target, htarget⟩ := ih (by simpa [Ne.symm hbrace] using hcs) hrest
        exact ⟨target, Segment.reference_mem_push.mpr htarget⟩

theorem reference_not_mem_literals (cs : List Char) (target : Reference) :
    .reference target ∉ cs.foldr Segment.push [] := by
  induction cs with
  | nil => exact List.not_mem_nil
  | cons c cs ih => rwa [List.foldr_cons, Segment.reference_mem_push]

theorem flatMap_render_literals (scope : Scope) (cs : List Char) :
    (cs.foldr Segment.push []).flatMap (Segment.render scope) = cs := by
  induction cs with
  | nil => rfl
  | cons c cs ih => rw [List.foldr_cons, Segment.flatMap_render_push, ih]

/-- **A text is quoted by doubling its percent signs**, if and only if it has no opening brace:
    the template compiles, has no references and renders to the text in every scope. -/
theorem quoted_is_literal (text : String) :
    (∃ t, compile (quoted text) = .ok t ∧ t.isConstant ∧ ∀ scope, t.render scope = text) ↔
      '\x7b' ∉ text.toList := by
  have hcompile : compile (quoted text) =
      (Segment.scan 0 (doubled text.toList)).map (TextTemplate.mk (quoted text)) := by
    rw [compile, quoted, String.toList_ofList]
  constructor
  · rintro ⟨t, ht, hconstant, -⟩ hbrace
    rw [hcompile] at ht
    obtain ⟨segments, hscan, rfl⟩ := exists_ok_of_map ht
    obtain ⟨target, htarget⟩ := exists_reference_of_brace hbrace hscan
    exact isConstant_iff.mp hconstant target htarget
  · intro hbrace
    refine ⟨⟨quoted text, text.toList.foldr Segment.push []⟩, ?_, ?_, ?_⟩
    · rw [hcompile, scan_doubled hbrace]
      rfl
    · exact isConstant_iff.mpr (reference_not_mem_literals text.toList)
    · intro scope
      rw [render, flatMap_render_literals, String.ofList_toList]

/-! ### The pieces of a source -/

/-- A piece of a source, as the scan from left to right meets it. -/
inductive Piece where
  | char (c : Char)
  /-- Two percent signs. -/
  | pair
  | placeholder (name : List Char)
  /-- A property, with all that stands between its braces. -/
  | property (inside : List Char)
deriving DecidableEq

namespace Piece

def written : Piece → List Char
  | char c => [c]
  | pair => ['%', '%']
  | placeholder name => '%' :: name ++ ['%']
  | property inside => '\x7b' :: inside ++ ['\x7d']

/-- A piece as it is written, but for a pair, which becomes one percent sign. -/
def verbatim : Piece → List Char
  | pair => ['%']
  | piece => piece.written

/-- What a piece is shown as where no reference reads anything. -/
def shown : Piece → List Char
  | property inside => '\x7b' :: Text.trimChars inside ++ ['\x7d']
  | piece => piece.verbatim

/-- No blanks stand around the key. -/
def IsTight : Piece → Prop
  | property inside => Text.trimChars inside = inside
  | _ => True

instance : DecidablePred IsTight
  | property inside => inferInstanceAs (Decidable (Text.trimChars inside = inside))
  | char _ | pair | placeholder _ => inferInstanceAs (Decidable True)

theorem length_shown_le (piece : Piece) : piece.shown.length ≤ piece.verbatim.length := by
  cases piece with
  | property inside =>
    have hle := (Text.trimChars_sublist inside).length_le
    simpa [shown, verbatim, written] using hle
  | _ => exact Nat.le_refl _

theorem shown_eq_verbatim_iff (piece : Piece) : piece.shown = piece.verbatim ↔ piece.IsTight := by
  cases piece with
  | property inside => simp [shown, verbatim, written, IsTight]
  | _ => exact iff_of_true rfl trivial

theorem length_flatMap_shown_le (pieces : List Piece) :
    (pieces.flatMap shown).length ≤ (pieces.flatMap verbatim).length := by
  induction pieces with
  | nil => exact Nat.le_refl _
  | cons piece rest ih =>
    have hpiece := piece.length_shown_le
    simp only [List.flatMap_cons, List.length_append]
    omega

/-- Pieces are all shown verbatim if they are shown verbatim one by one: none can make up for
    what another one lost. -/
theorem flatMap_shown_eq_iff (pieces : List Piece) :
    pieces.flatMap shown = pieces.flatMap verbatim ↔ ∀ piece ∈ pieces, piece.IsTight := by
  induction pieces with
  | nil => exact iff_of_true rfl nofun
  | cons piece rest ih =>
    rw [List.flatMap_cons, List.flatMap_cons, List.forall_mem_cons, ← shown_eq_verbatim_iff]
    refine Iff.trans ?_ (and_congr_right' ih)
    constructor
    · intro h
      have hlength := congrArg List.length h
      rw [List.length_append, List.length_append] at hlength
      have hpiece := piece.length_shown_le
      have hrest := length_flatMap_shown_le rest
      exact List.append_inj h (by omega)
    · rintro ⟨hpiece, hrest⟩
      rw [hpiece, hrest]

end Piece

/-- The pieces that the scan from left to right meets in a source: a percent sign is read with
    the next one if that follows, else as the start of a placeholder if one is there, else for
    itself; an opening brace starts a property. -/
inductive Reads : List Char → List Piece → Prop
  | done : Reads [] []
  | char {c : Char} {cs : List Char} {pieces : List Piece} (percent : c ≠ '%')
      (brace : c ≠ '\x7b') (next : Reads cs pieces) : Reads (c :: cs) (.char c :: pieces)
  | pair {cs : List Char} {pieces : List Piece} (next : Reads cs pieces) :
      Reads ('%' :: '%' :: cs) (.pair :: pieces)
  | placeholder {name cs : List Char} {pieces : List Piece} (named : name ≠ [])
      (chars : ∀ c ∈ name, isReferenceChar c = true) (next : Reads cs pieces) :
      Reads ('%' :: (name ++ '%' :: cs)) (.placeholder name :: pieces)
  | percent {cs : List Char} {pieces : List Piece}
      (alone : ∀ name after, cs = name ++ '%' :: after → ∃ c ∈ name, isReferenceChar c = false)
      (next : Reads cs pieces) : Reads ('%' :: cs) (.char '%' :: pieces)
  | property {inside cs : List Char} {pieces : List Piece} (closed : '\x7d' ∉ inside)
      (keyed : Text.trimChars inside ≠ [])
      (chars : ∀ c ∈ Text.trimChars inside, isReferenceChar c = true) (next : Reads cs pieces) :
      Reads ('\x7b' :: (inside ++ '\x7d' :: cs)) (.property inside :: pieces)

namespace Reads

variable {cs : List Char} {pieces others : List Piece}

theorem flatMap_written (h : Reads cs pieces) : pieces.flatMap Piece.written = cs := by
  induction h with
  | done => rfl
  | _ => simp_all [Piece.written]

/-- What a source that starts with a percent sign is read as. -/
theorem of_percent (h : Reads ('%' :: cs) pieces) :
    (∃ rest more, cs = '%' :: rest ∧ pieces = .pair :: more ∧ Reads rest more) ∨
    (∃ name rest more, cs = name ++ '%' :: rest ∧ name ≠ [] ∧
      (∀ c ∈ name, isReferenceChar c = true) ∧ pieces = .placeholder name :: more ∧
      Reads rest more) ∨
    (∃ more, (∀ name after, cs = name ++ '%' :: after → ∃ c ∈ name, isReferenceChar c = false) ∧
      pieces = .char '%' :: more ∧ Reads cs more) := by
  generalize hsource : '%' :: cs = source at h
  cases h with
  | done => cases hsource
  | char percent =>
    cases hsource
    exact absurd rfl percent
  | pair next =>
    cases hsource
    exact .inl ⟨_, _, rfl, rfl, next⟩
  | placeholder named chars next =>
    cases hsource
    exact .inr (.inl ⟨_, _, _, rfl, named, chars, rfl, next⟩)
  | percent alone next =>
    cases hsource
    exact .inr (.inr ⟨_, alone, rfl, next⟩)
  | property => cases hsource

/-- What a source that starts with an opening brace is read as. -/
theorem of_brace (h : Reads ('\x7b' :: cs) pieces) :
    ∃ inside rest more, cs = inside ++ '\x7d' :: rest ∧ '\x7d' ∉ inside ∧
      pieces = .property inside :: more ∧ Reads rest more := by
  generalize hsource : '\x7b' :: cs = source at h
  cases h with
  | char _ brace =>
    cases hsource
    exact absurd rfl brace
  | property closed _ _ next =>
    cases hsource
    exact ⟨_, _, _, rfl, closed, rfl, next⟩
  | _ => cases hsource

/-- A source is read in one way only. -/
theorem unique (h : Reads cs pieces) (h' : Reads cs others) : pieces = others := by
  induction h generalizing others with
  | done =>
    cases h'
    rfl
  | char percent brace next ih =>
    cases h' with
    | char _ _ next' => rw [ih next']
    | pair => exact absurd rfl percent
    | placeholder => exact absurd rfl percent
    | percent => exact absurd rfl percent
    | property => exact absurd rfl brace
  | pair next ih =>
    rcases h'.of_percent with ⟨rest, more, hcs, rfl, next'⟩ |
      ⟨name, rest, more, hcs, named, chars, -, -⟩ | ⟨more, alone, -, -⟩
    · cases hcs
      rw [ih next']
    · obtain ⟨c, word, rfl⟩ := List.exists_cons_of_ne_nil named
      cases hcs
      exact absurd (chars '%' List.mem_cons_self) (by decide)
    · obtain ⟨c, hc, -⟩ := alone [] _ rfl
      cases hc
  | placeholder named chars next ih =>
    have hname := not_mem_of_isReferenceChar isReferenceChar_percent chars
    rcases h'.of_percent with ⟨rest, more, hcs, -, -⟩ |
      ⟨name, rest, more, hcs, -, chars', rfl, next'⟩ | ⟨more, alone, -, -⟩
    · obtain ⟨c, word, rfl⟩ := List.exists_cons_of_ne_nil named
      cases hcs
      exact absurd List.mem_cons_self hname
    · have hname' := not_mem_of_isReferenceChar isReferenceChar_percent chars'
      obtain ⟨rfl, rfl⟩ := eq_of_append_stop hname hname' hcs
      rw [ih next']
    · obtain ⟨c, hc, hother⟩ := alone _ _ rfl
      rw [chars c hc] at hother
      cases hother
  | percent alone next ih =>
    rcases h'.of_percent with ⟨rest, more, rfl, -, -⟩ |
      ⟨name, rest, more, rfl, -, chars, -, -⟩ | ⟨more, -, rfl, next'⟩
    · obtain ⟨c, hc, -⟩ := alone [] rest rfl
      cases hc
    · obtain ⟨c, hc, hother⟩ := alone name rest rfl
      rw [chars c hc] at hother
      cases hother
    · rw [ih next']
  | property closed keyed chars next ih =>
    obtain ⟨inside, rest, more, hcs, closed', rfl, next'⟩ := h'.of_brace
    obtain ⟨rfl, rfl⟩ := eq_of_append_stop closed closed' hcs
    rw [ih next']

end Reads

/-! ### References that read nothing -/

theorem render_reference {scope : Scope} (hnothing : ∀ target, scope.text? target = none)
    (target : Reference) : (Segment.reference target).render scope = target.written := by
  rw [Segment.render, hnothing]
  rfl

/-- A source that is scanned has pieces, and where no reference reads anything its segments
    render to what the pieces are shown as. -/
theorem exists_reads {offset : Nat} {cs : List Char} {segments : List Segment}
    (h : Segment.scan offset cs = .ok segments) :
    ∃ pieces, Reads cs pieces ∧ ∀ scope : Scope, (∀ target, scope.text? target = none) →
      segments.flatMap (Segment.render scope) = pieces.flatMap Piece.shown := by
  fun_induction Segment.scan offset cs generalizing segments with
  | case1 =>
    cases h
    exact ⟨[], .done, fun _ _ => rfl⟩
  | case2 offset rest ih =>
    obtain ⟨more, hmore, rfl⟩ := exists_ok_of_map h
    obtain ⟨pieces, hpieces, hshown⟩ := ih hmore
    refine ⟨_, .pair hpieces, fun scope hnothing => ?_⟩
    rw [Segment.flatMap_render_push, hshown scope hnothing]
    rfl
  | case3 offset rest _ name after hname ih =>
    obtain ⟨more, hmore, rfl⟩ := exists_ok_of_map h
    obtain ⟨rfl, named, chars⟩ := placeholderAt_eq_some_iff.mp hname
    obtain ⟨pieces, hpieces, hshown⟩ := ih hmore
    refine ⟨_, .placeholder named chars hpieces, fun scope hnothing => ?_⟩
    rw [List.flatMap_cons, render_reference hnothing, hshown scope hnothing, Reference.written,
      String.toList_ofList]
    rfl
  | case4 offset rest hpair hname ih =>
    obtain ⟨more, hmore, rfl⟩ := exists_ok_of_map h
    obtain ⟨pieces, hpieces, hshown⟩ := ih hmore
    refine ⟨_, .percent ?_ hpieces, fun scope hnothing => ?_⟩
    · intro name after hrest
      by_contra hchars
      push Not at hchars
      simp only [ne_eq, Bool.not_eq_false] at hchars
      cases name with
      | nil => exact hpair after hrest
      | cons c word =>
        have hsome := placeholderAt_eq_some_iff.mpr ⟨hrest, List.cons_ne_nil c word, hchars⟩
        rw [hname] at hsome
        cases hsome
    · rw [Segment.flatMap_render_push, hshown scope hnothing]
      rfl
  | case5 offset rest key after hkey ih =>
    obtain ⟨more, hmore, rfl⟩ := exists_ok_of_map h
    obtain ⟨inside, rfl, closed, rfl, keyed, chars⟩ := propertyAt_eq_ok_iff.mp hkey
    obtain ⟨pieces, hpieces, hshown⟩ := ih hmore
    refine ⟨_, .property closed keyed chars hpieces, fun scope hnothing => ?_⟩
    rw [List.flatMap_cons, render_reference hnothing, hshown scope hnothing, Reference.written,
      String.toList_ofList]
    rfl
  | case6 => cases h
  | case7 offset c rest _ percent brace ih =>
    obtain ⟨more, hmore, rfl⟩ := exists_ok_of_map h
    obtain ⟨pieces, hpieces, hshown⟩ := ih hmore
    refine ⟨_, .char percent brace hpieces, fun scope hnothing => ?_⟩
    rw [Segment.flatMap_render_push, hshown scope hnothing]
    rfl

theorem text?_of_bare {c : Context} {platform : Platform} (hproperties : c.properties = [])
    (hplatform : ∀ name, platform.placeholder c.subject name = none) (target : Reference) :
    (c.scope platform).text? target = none := by
  cases target with
  | property key => simp [Scope.text?, Context.scope, Context.get?, hproperties, lookupEntry]
  | placeholder name => exact hplatform name

/-- **In a context without properties, on a platform that resolves nothing, a template renders to
    its pieces as they are written**, but for pairs of percent signs, which become one, and for
    the blanks around the keys of properties, which are lost.  So exactly the templates without
    such blanks render verbatim. -/
theorem unresolved_renders {source : String} {t : TextTemplate} {c : Context}
    {platform : Platform} (hcompile : compile source = .ok t) (hproperties : c.properties = [])
    (hplatform : ∀ name, platform.placeholder c.subject name = none) :
    ∃ pieces, (∀ others, Reads source.toList others ↔ others = pieces) ∧
      pieces.flatMap Piece.written = source.toList ∧
      t.render (c.scope platform) = String.ofList (pieces.flatMap Piece.shown) ∧
      (t.render (c.scope platform) = String.ofList (pieces.flatMap Piece.verbatim) ↔
        ∀ piece ∈ pieces, piece.IsTight) := by
  unfold compile at hcompile
  obtain ⟨segments, hscan, rfl⟩ := exists_ok_of_map hcompile
  obtain ⟨pieces, hreads, hshown⟩ := exists_reads hscan
  have hrender : render ⟨source, segments⟩ (c.scope platform) =
      String.ofList (pieces.flatMap Piece.shown) := by
    rw [render, hshown _ (text?_of_bare hproperties hplatform)]
  refine ⟨pieces, ?_, hreads.flatMap_written, hrender, ?_⟩
  · intro others
    constructor
    · exact fun hothers => hothers.unique hreads
    · rintro rfl
      exact hreads
  · rw [hrender, String.ofList_inj, Piece.flatMap_shown_eq_iff]

/-- A missing property that is written with blanks around its key loses them. -/
theorem unresolved_renders_padded :
    ∃ t, compile "%% \x7b a \x7d" = .ok t ∧
      t.render (Context.scope ⟨.ofName "alice", [], []⟩ .silent) = "% \x7ba\x7d" ∧
      Reads "%% \x7b a \x7d".toList [.pair, .char ' ', .property [' ', 'a', ' ']] ∧
      t.render (Context.scope ⟨.ofName "alice", [], []⟩ .silent) ≠ "% \x7b a \x7d" := by
  have hkey : Text.trimChars [' ', 'a', ' '] = ['a'] := by decide
  have hchars : ∀ c ∈ Text.trimChars [' ', 'a', ' '], isReferenceChar c = true := by
    rw [hkey]
    intro c hc
    obtain rfl := List.mem_singleton.mp hc
    decide
  have hreads : Reads "%% \x7b a \x7d".toList [.pair, .char ' ', .property [' ', 'a', ' ']] :=
    .pair (.char (by decide) (by decide)
      (@Reads.property [' ', 'a', ' '] [] [] (by decide) (by rw [hkey]; decide) hchars .done))
  have hcompile : compile "%% \x7b a \x7d" = .ok
      ⟨"%% \x7b a \x7d", [.literal ['%', ' '], .reference (.property "a")]⟩ := by cbv
  have hproperties : Context.properties ⟨.ofName "alice", [], []⟩ = [] := rfl
  have hplatform : ∀ name, Platform.silent.placeholder (.ofName "alice") name = none :=
    fun _ => rfl
  obtain ⟨pieces, hpieces, -, hrender, hverbatim⟩ :=
    unresolved_renders hcompile hproperties hplatform
  obtain rfl := (hpieces _).mp hreads
  refine ⟨_, hcompile, hrender, hreads, ?_⟩
  intro h
  have htight := hverbatim.mp h (.property [' ', 'a', ' ']) (by decide)
  exact absurd htight (by decide)

end TextTemplate

end RuleEngine
