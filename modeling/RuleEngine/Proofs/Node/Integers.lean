/-
  RuleEngine/Proofs/Node/Integers.lean
  ====================================
  **Integers, as a tree writes them and as they are read.**

  A scalar denotes an integer by being it, by being a float of exactly this value, or by being
  a text that spells it between blanks (`Scalar.Denotes`).  An integer of 64 bits is read off
  a scalar that denotes it, and off no other scalar but a float that is an integer beyond the
  range, which is cut to the end that it lies beyond (`Scalar.CutTo`); a text of the same
  number is refused.  So a scalar is never read as a number other than its own exactly if it
  is no such float, and the slot of a context, the tick counts of a map and what delays and
  timers are compiled with are read in this way (`Node.asInteger?_exact_iff`).
-/
import RuleEngine.Proofs.Decimal.Integral
import RuleEngine.Proofs.Template.References
import RuleEngine.Proofs.Rule.Deferring

namespace RuleEngine

open Decimal (exactValue? Spells)

/-! ### Blanks around a number -/

theorem Text.trimChars_append {front middle back : List Char}
    (hfront : ∀ c ∈ front, Text.isBlank c = true) (hback : ∀ c ∈ back, Text.isBlank c = true)
    (hmiddle : ∀ c ∈ middle, Text.isBlank c = false) (nonempty : middle ≠ []) :
    Text.trimChars (front ++ middle ++ back) = middle := by
  have hbegin : ∀ c, (middle ++ back).head? = some c → Text.isBlank c = false := by
    intro c hc
    rw [List.head?_append_of_ne_nil _ nonempty] at hc
    exact hmiddle c (List.mem_of_mem_head? hc)
  have hend : ∀ c, middle.reverse.head? = some c → Text.isBlank c = false := fun c hc =>
    hmiddle c (List.mem_reverse.mp (List.mem_of_mem_head? hc))
  have hreverse : ∀ c ∈ back.reverse, Text.isBlank c = true := fun c hc =>
    hback c (List.mem_reverse.mp hc)
  rw [Text.trimChars, Text.dropBlankEnd, List.append_assoc, (Decimal.span_append hfront hbegin).2,
    List.reverse_append, (Decimal.span_append hreverse hend).2, List.reverse_reverse]

/-- What trimming takes away are blanks at the ends. -/
theorem Text.eq_append_trimChars (cs : List Char) :
    ∃ front back, (∀ c ∈ front, Text.isBlank c = true) ∧ (∀ c ∈ back, Text.isBlank c = true) ∧
      cs = front ++ Text.trimChars cs ++ back := by
  let rest := cs.dropWhile Text.isBlank
  have hrest : rest.reverse.takeWhile Text.isBlank ++ rest.reverse.dropWhile Text.isBlank =
      rest.reverse := List.takeWhile_append_dropWhile
  refine ⟨cs.takeWhile Text.isBlank, (rest.reverse.takeWhile Text.isBlank).reverse,
    fun c hc => List.mem_takeWhile_imp hc,
    fun c hc => List.mem_takeWhile_imp (List.mem_reverse.mp hc), ?_⟩
  rw [Text.trimChars, Text.dropBlankEnd, List.append_assoc, ← List.reverse_append, hrest,
    List.reverse_reverse]
  exact List.takeWhile_append_dropWhile.symm

theorem Text.isBlank_of_isDigit {c : Char} (h : c.isDigit = true) : Text.isBlank c = false := by
  simp only [Char.isDigit, Bool.and_eq_true, decide_eq_true_eq, ge_iff_le,
    UInt32.le_iff_toNat_le] at h
  exact Text.isBlank_of_range (Nat.le_trans (by decide) h.1) (Nat.le_trans h.2 (by decide))

/-- A number is written without blanks. -/
theorem Decimal.Spells.not_blank {cs : List Char} {i : ℤ} (h : Spells cs i) :
    cs ≠ [] ∧ ∀ c ∈ cs, Text.isBlank c = false := by
  obtain ⟨isSign, nonempty, digit⟩ := h
  refine ⟨List.append_ne_nil_of_right_ne_nil _ nonempty, fun c hc => ?_⟩
  rcases List.mem_append.mp hc with hsign | hdigit
  · cases isSign with
    | none => cases hsign
    | plus =>
      obtain rfl := List.mem_singleton.mp hsign
      decide
    | minus =>
      obtain rfl := List.mem_singleton.mp hsign
      decide
  · exact Text.isBlank_of_isDigit (digit c hdigit)

/-! ### What a scalar is worth -/

/-- The integer that a scalar denotes: the integer itself, the exact value of a float, or the
    number that a text spells between blanks. -/
def Scalar.Denotes : Scalar → ℤ → Prop
  | .int j, n => n = j.toInt
  | .float x, n => exactValue? x = some (n : ℚ)
  | .str s, n => ∃ front number back, (∀ c ∈ front, Text.isBlank c = true) ∧
      (∀ c ∈ back, Text.isBlank c = true) ∧ s.toList = front ++ number ++ back ∧ Spells number n
  | .null, _ | .bool _, _ => False

/-- The scalar is a float whose value is an integer beyond 64 bits, and this is the end of
    their range that it lies beyond. -/
def Scalar.CutTo (s : Scalar) (i : Int64) : Prop :=
  ∃ (x : Float) (n : ℤ), s = .float x ∧ exactValue? x = some (n : ℚ) ∧
    (Int64.maxValue.toInt < n ∧ i = Int64.maxValue ∨ n < Int64.minValue.toInt ∧ i = Int64.minValue)

/-- An integer of 64 bits that a scalar denotes or is cut to. -/
def Scalar.ReadsAs (s : Scalar) (i : Int64) : Prop := s.Denotes i.toInt ∨ s.CutTo i

/-- An integer is cut to the ends of the range of 64 bits, and stays as it is inside. -/
theorem Node.clampInt64_eq_iff {n : ℤ} {i : Int64} :
    Node.clampInt64 n = i ↔ n = i.toInt ∨
      (Int64.maxValue.toInt < n ∧ i = Int64.maxValue ∨
        n < Int64.minValue.toInt ∧ i = Int64.minValue) := by
  have hleast : Int64.minValue.toInt = -2 ^ 63 := Int64.toInt_minValue
  have hmost : Int64.maxValue.toInt = 2 ^ 63 - 1 := Int64.toInt_maxValue
  have hge := i.le_toInt
  have hlt := i.toInt_lt
  -- no integer of 64 bits is beyond the range, so that the three cases exclude each other
  unfold Node.clampInt64
  split
  · rename_i hbelow
    have hnot : n ≠ i.toInt := by omega
    have hnotAbove : ¬ Int64.maxValue.toInt < n := by omega
    simp only [hbelow, hnot, hnotAbove, false_and, true_and, false_or]
    exact eq_comm
  · split
    · rename_i hnotBelow habove
      have hnot : n ≠ i.toInt := by omega
      simp only [hnotBelow, habove, hnot, false_and, true_and, false_or, or_false]
      exact eq_comm
    · rename_i hnotBelow hnotAbove
      have hfits : (Int64.ofInt n).toInt = n := Int64.toInt_ofInt_of_le (by omega) (by omega)
      rw [← Int64.toInt_inj, hfits]
      simp only [hnotBelow, hnotAbove, false_and, or_false]

theorem Scalar.not_cutTo_of_denotes {s : Scalar} {i j : Int64} (h : s.Denotes j.toInt) :
    ¬ s.CutTo i := by
  rintro ⟨x, n, rfl, hexact, hend⟩
  have hvalue : (n : ℚ) = (j.toInt : ℚ) := Option.some_inj.mp (hexact.symm.trans h)
  obtain rfl : n = j.toInt := by exact_mod_cast hvalue
  have hleast : Int64.minValue.toInt = -2 ^ 63 := Int64.toInt_minValue
  have hmost : Int64.maxValue.toInt = 2 ^ 63 - 1 := Int64.toInt_maxValue
  have hge := j.le_toInt
  have hlt := j.toInt_lt
  omega

section Reading

variable {i : Int64}

theorem Node.asInteger?_float {x : Float} :
    (Node.scalar (.float x)).asInteger? = some i ↔ (Scalar.float x).ReadsAs i := by
  rw [Node.asInteger?, Option.map_eq_some_iff]
  constructor
  · rintro ⟨n, hn, hclamp⟩
    have hexact := Decimal.toInt?_eq_some_iff.mp hn
    rcases Node.clampInt64_eq_iff.mp hclamp with rfl | hend
    · exact .inl hexact
    · exact .inr ⟨x, n, rfl, hexact, hend⟩
  · rintro (hexact | ⟨_, n, hx, hexact, hend⟩)
    · exact ⟨i.toInt, Decimal.toInt?_eq_some_iff.mpr hexact, Node.clampInt64_eq_iff.mpr (.inl rfl)⟩
    · cases hx
      exact ⟨n, Decimal.toInt?_eq_some_iff.mpr hexact, Node.clampInt64_eq_iff.mpr (.inr hend)⟩

theorem Node.asInteger?_str {s : String} :
    (Node.scalar (.str s)).asInteger? = some i ↔ (Scalar.str s).ReadsAs i := by
  rw [Node.asInteger?, Decimal.readInt64?_eq_some_iff, Text.trim, String.toList_ofList]
  constructor
  · intro hspells
    obtain ⟨front, back, hfront, hback, htext⟩ := Text.eq_append_trimChars s.toList
    exact .inl ⟨front, _, back, hfront, hback, htext, hspells⟩
  · rintro (⟨front, number, back, hfront, hback, htext, hspells⟩ | ⟨x, n, hx, -⟩)
    · obtain ⟨nonempty, hnumber⟩ := hspells.not_blank
      rwa [htext, Text.trimChars_append hfront hback hnumber nonempty]
    · cases hx

/-- **An integer is read off a scalar that denotes it or is cut to it.** -/
theorem Node.asInteger?_eq_some_iff {s : Scalar} :
    (Node.scalar s).asInteger? = some i ↔ s.ReadsAs i := by
  cases s with
  | float x => exact Node.asInteger?_float
  | str s => exact Node.asInteger?_str
  | int j =>
    have hdenotes : j = i ↔ i.toInt = j.toInt := by rw [Int64.toInt_inj, eq_comm]
    simp [Node.asInteger?, Scalar.ReadsAs, Scalar.Denotes, Scalar.CutTo, hdenotes]
  | null => simp [Node.asInteger?, Scalar.ReadsAs, Scalar.Denotes, Scalar.CutTo]
  | bool b => simp [Node.asInteger?, Scalar.ReadsAs, Scalar.Denotes, Scalar.CutTo]

theorem Node.exists_scalar_of_asInteger? {node : Node} (h : node.asInteger? = some i) :
    ∃ s, node = .scalar s ∧ s.ReadsAs i := by
  cases node with
  | scalar s => exact ⟨s, rfl, Node.asInteger?_eq_some_iff.mp h⟩
  | list items => cases h
  | map entries => cases h

end Reading

/-! ### What reads integers -/

theorem Context.slot?_eq_some_iff {c : Context} {i : Int64} :
    c.slot? = some i ↔ ∃ s, c.get? Context.slotKey = some (.scalar s) ∧ s.ReadsAs i := by
  rw [Context.slot?, Option.bind_eq_some_iff]
  constructor
  · rintro ⟨node, hnode, hread⟩
    obtain ⟨s, rfl, hs⟩ := Node.exists_scalar_of_asInteger? hread
    exact ⟨s, hnode, hs⟩
  · rintro ⟨s, hnode, hs⟩
    exact ⟨_, hnode, Node.asInteger?_eq_some_iff.mpr hs⟩

/-- The count that stands under a key of a map; where nothing does, the default is the
    count. -/
def Node.Counts (value : Node) (key : String) (default? : Option ℕ) (count : ℕ) : Prop :=
  (∃ s i, value.getPresent? key = some (.scalar s) ∧ s.ReadsAs i ∧ i.toInt = count) ∨
    (value.getPresent? key = none ∧ default? = some count)

theorem CompileError.ticks_eq_ok_iff {value : Node} {key : String} {default? : Option ℕ}
    {count : ℕ} :
    CompileError.ticks value key default? = .ok count ↔ value.Counts key default? count := by
  unfold CompileError.ticks Node.Counts
  cases hvalue : value.getPresent? key with
  | none => cases default? <;> simp
  | some node =>
    simp only [reduceCtorEq, false_and, or_false, Option.some_inj]
    constructor
    · intro h
      split at h
      · rename_i i hread
        obtain ⟨s, rfl, hs⟩ := Node.exists_scalar_of_asInteger? hread
        split at h
        · rename_i hpos
          have hpos' : 0 ≤ i.toInt := Int64.le_iff_toInt_le.mp hpos
          refine ⟨s, i, rfl, hs, ?_⟩
          rw [← Except.ok.inj h, Int.toNat_of_nonneg hpos']
        · cases h
      · cases h
    · rintro ⟨s, i, rfl, hs, hcount⟩
      have hpos : 0 ≤ i := Int64.le_iff_toInt_le.mpr (hcount ▸ Int.natCast_nonneg count)
      rw [Node.asInteger?_eq_some_iff.mpr hs]
      dsimp only
      rw [if_pos hpos, hcount, Int.toNat_natCast]

/-- The tick counts of a delay or a timer are those of the value that it is made from. -/
def ActionBody.CountsFrom (value : Node) : ActionBody → Prop
  | .delay lead _ _ => value.Counts "delay" (some 0) lead
  | .timer lead period duration _ _ =>
    value.Counts "delay" (some 0) lead ∧ value.Counts "period" none period ∧
      value.Counts "duration" none duration
  | _ => True

open Compile Make

theorem makeAction_countsFrom (r : Registry) (maker : Maker) (value : Node) :
    Make.Returns (fun body => body.CountsFrom value) (makeAction r maker value) := by
  have hticks : ∀ key default?, Make.Returns (fun count => value.Counts key default? count)
      (Make.ofExcept (CompileError.ticks value key default?)) := fun key default? =>
    returns_ofExcept fun _ h => CompileError.ticks_eq_ok_iff.mp h
  cases maker with
  | action type =>
    cases type with
    | delay =>
      rw [makeAction]
      refine Make.returns_bind fun _ => (hticks _ _).bind fun lead hlead => ?_
      exact Make.returns_bind fun _ => Make.returns_bind fun _ => Make.returns_pure hlead
    | timer =>
      rw [makeAction]
      refine Make.returns_bind fun _ => (hticks _ _).bind fun period hperiod => ?_
      dsimp only
      split
      -- a period of zero is refused
      · exact (returns_throw _ : Make.Returns (fun _ : Unit => False) _).bind fun _ => False.elim
      refine (hticks _ _).bind fun lead hlead => (hticks _ _).bind fun duration hduration => ?_
      exact Make.returns_bind fun _ => Make.returns_bind fun _ =>
        Make.returns_pure ⟨hlead, hperiod, hduration⟩
    | chain =>
      rw [makeAction]
      exact Make.returns_bind fun _ => Make.returns_pure trivial
    | message =>
      rw [makeAction]
      exact Make.returns_bind fun _ => Make.returns_pure trivial
    | command =>
      rw [makeAction]
      exact Make.returns_bind fun _ => Make.returns_pure trivial
    | conditional =>
      rw [makeAction]
      exact Make.returns_bind fun _ => Make.returns_bind fun _ => Make.returns_bind fun _ =>
        Make.returns_pure trivial
    | priority =>
      by_cases hshape : value.shape = .map
      · obtain ⟨entries, rfl⟩ := Node.exists_eq_map hshape
        rw [makeAction]
        exact Make.returns_bind fun _ => Make.returns_pure trivial
      · rw [makeAction_priority_of_not_map hshape]
        exact returns_throw _
    | set =>
      rw [makeAction]
      refine returns_ofExcept fun body hset => ?_
      obtain ⟨key, text, rfl⟩ := CompileError.eq_set_of_setProperty hset
      trivial
  | guestAction id =>
    rw [makeAction]
    exact Make.returns_bind fun _ => Make.returns_pure trivial
  | customAction make =>
    rw [makeAction]
    cases make value with
    | ok procedure => exact Make.returns_pure trivial
    | error refusal => exact returns_throw refusal
  | _ =>
    rw [makeAction]
    exact Make.returns_pure trivial

/-- What an action is compiled with are the counts of its node. -/
theorem compileAction_countsFrom (r : Registry) (node : Node) :
    Compile.Returns (fun a => a.body.CountsFrom (node.valueOf "value")) (compileAction r node) :=
  compileAction_returns trivial fun _ _ maker => makeAction_countsFrom r maker _

/-- **No scalar is read as an integer other than its own, but a float that is cut.**  The same
    goes for the slot of a context and for a tick count, also in a delay or a timer that is
    compiled. -/
theorem Node.asInteger?_exact_iff (s : Scalar) (c : Context) (value : Node) (r : Registry)
    (node : Node) (w : World) :
    ((∀ i, (Node.scalar s).asInteger? = some i → s.Denotes i.toInt) ↔ ¬ ∃ i, s.CutTo i) ∧
      (∀ i, (Node.scalar s).asInteger? = some i ↔ s.Denotes i.toInt ∨ s.CutTo i) ∧
      (∀ i, c.slot? = some i ↔ ∃ s, c.get? Context.slotKey = some (.scalar s) ∧ s.ReadsAs i) ∧
      (∀ key default? count, CompileError.ticks value key default? = .ok count ↔
        value.Counts key default? count) ∧
      (compileAction r node w).1.body.CountsFrom (node.valueOf "value") := by
  refine ⟨⟨?_, ?_⟩, fun _ => Node.asInteger?_eq_some_iff, fun _ => Context.slot?_eq_some_iff,
    fun _ _ _ => CompileError.ticks_eq_ok_iff, compileAction_countsFrom r node w⟩
  · rintro hexact ⟨i, hcut⟩
    have hread := Node.asInteger?_eq_some_iff.mpr (.inr hcut)
    exact Scalar.not_cutTo_of_denotes (hexact i hread) hcut
  · intro huncut i hread
    exact (Node.asInteger?_eq_some_iff.mp hread).resolve_right fun hcut => huncut ⟨i, hcut⟩

/-- Two to the power of 63, which is one more than the greatest integer of 64 bits. -/
def tooMany : Scalar := .float 9223372036854775808.0

/-- The greatest integer stands in for the number, which is not it; the text of the same number
    is refused. -/
theorem Node.asInteger?_exact_iff_tooMany :
    ((Node.scalar tooMany).asInteger? = some Int64.maxValue ∧
        ¬ tooMany.Denotes Int64.maxValue.toInt) ∧
      Context.slot? ⟨⟨"7", "Ada"⟩, [("slot", .scalar tooMany)], []⟩ = some Int64.maxValue ∧
      CompileError.ticks (.map [("delay", .scalar tooMany)]) "delay" (some 0) =
        .ok (2 ^ 63 - 1) ∧
      Node.asInteger? (.ofText "9223372036854775808") = none := by
  have hcut : tooMany.CutTo Int64.maxValue :=
    ⟨9223372036854775808.0, 2 ^ 63, rfl, Decimal.toInt?_eq_some_iff.mp (by decide),
      .inl ⟨by decide, rfl⟩⟩
  obtain ⟨-, hreads, hslot, hticks, -⟩ :=
    Node.asInteger?_exact_iff tooMany ⟨⟨"7", "Ada"⟩, [("slot", .scalar tooMany)], []⟩
      (.map [("delay", .scalar tooMany)]) {} .null {}
  have hread := (hreads Int64.maxValue).mpr (.inr hcut)
  refine ⟨⟨hread, fun hdenotes => Scalar.not_cutTo_of_denotes hdenotes hcut⟩, ?_, ?_, by decide⟩
  · exact (hslot _).mpr ⟨tooMany, rfl, .inr hcut⟩
  · exact (hticks _ _ _).mpr (.inl ⟨tooMany, _, rfl, .inr hcut, by decide⟩)

end RuleEngine
