/-
  RuleEngine/Proofs/Rule/Telling.lean
  ===================================
  **What steps of compilation report.**

  A step of compilation without guests returns the same in every world, and reports some
  disabled rules and nothing else (`Compile.Tells`).  A factory either makes something or
  refuses, and where it refuses on its own account it says what is wrong, not that a
  rule inside it was rejected (`Make.Ends`).

  Guests are left out, since they may report as they like, and factories of the
  application may not claim that a rule inside them was rejected (`Registry.Plain`).
-/
import RuleEngine.Proofs.Rule.Compiling

namespace RuleEngine

/-! ### What steps of compilation tell -/

def Notice.DisablesRule (n : Notice) : Prop := ∃ typeKey reason, n = .ruleDisabled typeKey reason

section Tells

variable {α β : Type}

/-- A step of compilation returns the same in every world, and reports so many disabled
    rules and nothing else. -/
def Compile.Tells (x : Compile α) (a : α) (count : Nat) : Prop :=
  ∃ ns : List Notice, ns.length = count ∧ (∀ n ∈ ns, n.DisablesRule) ∧
    ∀ w, x w = (a, ns.foldl World.report w)

/-- A step of a factory comes to the same in every world, and reports so many disabled
    rules and nothing else. -/
def Make.Tells (x : Make α) (result : Except Refusal α) (count : Nat) : Prop :=
  Compile.Tells x.run result count

namespace Compile

variable {x : Compile α} {f : α → Compile β} {a : α} {b : β} {k m : Nat}

theorem Tells.value (h : Tells x a k) (w : World) : (x w).1 = a := by
  obtain ⟨ns, -, -, hx⟩ := h
  rw [hx]

theorem Tells.congr (h : Tells x a k) (hk : k = m) : Tells x a m := hk ▸ h

theorem tells_pure (a : α) : Tells (pure a) a 0 := ⟨[], rfl, by simp, fun _ => rfl⟩

theorem tells_reject (typeKey : String) (reason : RejectReason) :
    Tells (reject typeKey reason) () 1 :=
  ⟨[.ruleDisabled typeKey reason], rfl, by simp [Notice.DisablesRule], fun _ => rfl⟩

theorem Tells.bind (hx : Tells x a k) (hf : Tells (f a) b m) : Tells (x >>= f) b (k + m) := by
  obtain ⟨ns, rfl, hns, hx⟩ := hx
  obtain ⟨more, rfl, hmore, hf⟩ := hf
  refine ⟨ns ++ more, List.length_append, fun n hn => ?_, fun w => ?_⟩
  · exact (List.mem_append.mp hn).elim (hns n) (hmore n)
  · rw [bind_apply, hx, hf, List.foldl_append]

/-- A rule is disabled and reported. -/
theorem tells_reject_bind (typeKey : String) (reason : RejectReason) (b : β) :
    Tells (do reject typeKey reason; return b) b 1 := by
  exact (tells_reject typeKey reason).bind (f := fun _ => pure b) (tells_pure b)

end Compile

namespace Make

variable {x : Make α} {f : α → Make β} {a : α} {k m : Nat} {refusal : Refusal}

theorem tells_pure (a : α) : Tells (pure a) (.ok a) 0 := Compile.tells_pure _

theorem tells_throw (refusal : Refusal) : Tells (throw refusal : Make α) (.error refusal) 0 :=
  Compile.tells_pure _

theorem Tells.run {result : Except Refusal α} (hx : Tells x result k) :
    Compile.Tells x.run result k := hx

theorem tells_lift {x : Compile α} (hx : Compile.Tells x a k) :
    Tells (liftM x : Make α) (.ok a) k := by
  obtain ⟨ns, hlength, hns, hx⟩ := hx
  refine ⟨ns, hlength, hns, fun w => ?_⟩
  rw [run_apply, lift_apply, hx]

/-- The warnings of a sequence are those of its steps. -/
theorem Tells.bind {result : Except Refusal β} (hx : Tells x (.ok a) k)
    (hf : Tells (f a) result m) : Tells (x >>= f) result (k + m) := by
  obtain ⟨ns, rfl, hns, hx⟩ := hx
  obtain ⟨more, rfl, hmore, hf⟩ := hf
  refine ⟨ns ++ more, List.length_append, fun n hn => ?_, fun w => ?_⟩
  · exact (List.mem_append.mp hn).elim (hns n) (hmore n)
  · have hfirst : x w = (.ok a, ns.foldl World.report w) := hx w
    rw [run_apply, bind_apply, hfirst, List.foldl_append]
    exact hf _

theorem Tells.bind_error (hx : Tells x (.error refusal) k) :
    Tells (x >>= f) (.error refusal) k := by
  obtain ⟨ns, hlength, hns, hx⟩ := hx
  refine ⟨ns, hlength, hns, fun w => ?_⟩
  have hfirst : x w = (.error refusal, ns.foldl World.report w) := hx w
  rw [run_apply, bind_apply, hfirst]

end Make

end Tells

/-! ### Refusing for a reason of one's own -/

namespace CompileError

variable {α β : Type}

/-- A reading does not fail with the claim that a rule inside failed. -/
def Own (x : Except CompileError α) : Prop := x ≠ .error .nestedRejected

theorem own_ok (a : α) : Own (.ok a) := by simp [Own]

theorem Own.bind {x : Except CompileError α} {f : α → Except CompileError β} (hx : Own x)
    (hf : ∀ a, Own (f a)) : Own (x >>= f) := by
  cases x with
  | ok a => exact hf a
  | error cause => simpa [Own, Bind.bind, Except.bind] using hx

theorem own_liftTemplate (x : Except TemplateError α) : Own (liftTemplate x) := by
  cases x <;> simp [Own, liftTemplate, Except.mapError]

theorem own_expectMap (value : Node) : Own (expectMap value) := by
  cases value <;> simp [Own, expectMap]

theorem own_ticks (value : Node) (key : String) (default? : Option Nat) :
    Own (ticks value key default?) := by
  unfold Own ticks
  (repeat' split) <;> simp

theorem own_execMode (value : Node) : Own (execMode value) := by
  unfold Own execMode
  (repeat' split) <;> simp

theorem own_setProperty (value : Node) : Own (setProperty value) := by
  unfold setProperty
  split
  · simp [Own]
  · split
    · simp [Own]
    · exact (own_liftTemplate _).bind fun _ => own_ok _

theorem own_operand (side : String) (node : Node) : Own (operand side node) := by
  unfold operand
  split
  · simp [Own]
  · exact (own_liftTemplate _).bind fun _ => own_ok _
  · exact own_ok _
  · refine (own_liftTemplate _).bind fun _ => ?_
    exact (own_liftTemplate _).bind fun _ => own_ok _
  · simp [Own]

theorem own_operands (value : Node) : Own (operands value) := by
  unfold operands
  split
  · exact (own_operand _ _).bind fun _ => (own_operand _ _).bind fun _ => own_ok _
  · exact (own_operand _ _).bind fun _ => (own_operand _ _).bind fun _ => own_ok _
  · simp [Own]
  · simp [Own]

theorem own_numericSide (side : String) (o : Operand) : Own (numericSide side o) := by
  unfold Own numericSide
  split <;> simp

theorem own_cooldown (value : Node) : Own (cooldown value) := by
  refine (own_expectMap value).bind fun _ => ?_
  split
  · simp [Own]
  · refine (own_liftTemplate _).bind fun _ => ?_
    split
    · exact (own_liftTemplate _).bind fun _ => own_ok _
    · exact (own_liftTemplate _).bind fun _ => own_ok _
    · simp [Own]
    · simp [Own]

end CompileError

/-- A factory ends with something good, or refuses for a reason of its own; in either case
    it has reported so many disabled rules. -/
def Make.Ends {α : Type} (good : α → Prop) (made refused : Nat) (x : Make α) : Prop :=
  (∃ a, good a ∧ Make.Tells x (.ok a) made) ∨
    ∃ refusal, refusal ≠ .error .nestedRejected ∧ Make.Tells x (.error refusal) refused

namespace Make

variable {α β : Type} {good : α → Prop} {good' : β → Prop} {k m k' m' : Nat} {x : Make α}
  {f : α → Make β}

theorem ends_pure {a : α} (h : good a) : Ends good 0 m (pure a) := Or.inl ⟨a, h, tells_pure a⟩

theorem ends_throw {refusal : Refusal} (h : refusal ≠ .error .nestedRejected) :
    Ends good k 0 (throw refusal) :=
  Or.inr ⟨refusal, h, tells_throw refusal⟩

theorem Tells.bind_ends {a : α} (hx : Tells x (.ok a) k) (hf : Ends good' k' m' (f a)) :
    Ends good' (k + k') (k + m') (x >>= f) := by
  rcases hf with ⟨b, hb, hf⟩ | ⟨refusal, hrefusal, hf⟩
  · exact Or.inl ⟨b, hb, hx.bind hf⟩
  · exact Or.inr ⟨refusal, hrefusal, hx.bind hf⟩

theorem ends_ofExcept {v : Except CompileError α} (hv : CompileError.Own v)
    (hgood : ∀ a, v = .ok a → good a) : Ends good 0 0 (ofExcept v) := by
  cases v with
  | ok a => exact ends_pure (hgood a rfl)
  | error cause =>
    exact ends_throw fun h => hv (congrArg Except.error (Refusal.error.inj h))

theorem ends_fail_bind {refusal : Refusal} (h : refusal ≠ .error .nestedRejected) :
    Ends good' k 0 ((throw refusal : Make α) >>= f) :=
  Or.inr ⟨refusal, h, (tells_throw refusal).bind_error⟩

/-- Nothing is reported for a value that is read, nor for one that is refused. -/
theorem ends_ofExcept_bind {v : Except CompileError α} (hv : CompileError.Own v)
    (hf : ∀ a, v = .ok a → Ends good' k 0 (f a)) : Ends good' k 0 (ofExcept v >>= f) := by
  cases v with
  | ok a =>
    have h := (tells_pure a).bind_ends (hf a rfl)
    rwa [Nat.zero_add] at h
  | error cause =>
    have hcause : Refusal.error cause ≠ .error .nestedRejected := fun h =>
      hv (congrArg Except.error (Refusal.error.inj h))
    exact ends_fail_bind hcause

theorem Ends.bind_pure {g : α → β} (hx : Ends good k m x) (hg : ∀ a, good a → good' (g a)) :
    Ends good' k m (do return g (← x)) := by
  rcases hx with ⟨a, ha, hx⟩ | ⟨refusal, hrefusal, hx⟩
  · exact Or.inl ⟨g a, hg a ha, hx.bind (f := fun a => pure (g a)) (tells_pure (g a))⟩
  · exact Or.inr ⟨refusal, hrefusal, hx.bind_error⟩

end Make

/-! ### Registries without guests -/

/-- A maker reports nothing itself, and says of no rule inside that it was rejected. -/
def Maker.Plain : Maker → Prop
  | .action _ | .requirement _ => True
  | .guestAction _ | .guestRequirement _ => False
  | .customAction make => ∀ value, make value ≠ .error (.error .nestedRejected)
  | .customRequirement make =>
    ∀ value sideEffects, make value sideEffects ≠ .error (.error .nestedRejected)

/-- All types of rules are built in, or are types of the application that report nothing
    and have reasons of their own to refuse. -/
def Registry.Plain (r : Registry) : Prop :=
  ∀ typeKey factory, r.lookup? typeKey = some factory → factory.maker.Plain

theorem Registry.plain_empty : ({} : Registry).Plain := by
  intro typeKey factory h
  cases h

/-! ### The built-in types -/

/-- A registry stays plain when a plain factory is put into it. -/
theorem Registry.Plain.insert {r : Registry} (plain : r.Plain) (key : String) {factory : Factory}
    (h : factory.maker.Plain) : (r.insert key factory).Plain := by
  intro typeKey found hfound
  change lookupEntry typeKey (insertEntry key factory r.factories) = some found at hfound
  by_cases hkey : typeKey = key
  · rw [hkey, lookupEntry_insertEntry_same] at hfound
    exact Option.some.inj hfound ▸ h
  · rw [lookupEntry_insertEntry_other factory r.factories hkey] at hfound
    exact plain typeKey found hfound

theorem Registry.Plain.register {r : Registry} (plain : r.Plain) {factory : Factory}
    (h : factory.maker.Plain) (keys : List String) : (r.register factory keys).2.2.Plain := by
  unfold Registry.register
  split
  · exact plain
  · change (keys.foldl (fun r key => r.insert key factory) r).Plain
    clear * - plain h
    induction keys generalizing r with
    | nil => exact plain
    | cons key rest ih => exact ih (plain.insert key h)

theorem Registry.Plain.registerEach {r : Registry} (plain : r.Plain)
    {makers : List (String × Maker)} (h : ∀ entry ∈ makers, entry.2.Plain) :
    (r.registerEach makers).2.2.Plain := by
  induction makers generalizing r with
  | nil => exact plain
  | cons entry rest ih =>
    obtain ⟨key, maker⟩ := entry
    have hminted : (r.mint maker).2.Plain := plain
    have hmaker : (r.mint maker).1.maker.Plain := h _ List.mem_cons_self
    exact ih (hminted.register hmaker [key]) fun entry hentry =>
      h entry (List.mem_cons_of_mem _ hentry)

/-- A registry stays plain when the built-in types are registered. -/
theorem Registry.Plain.registerBuiltins {r : Registry} (plain : r.Plain) :
    r.registerBuiltins.2.2.Plain := by
  have hplain : ∀ entry ∈ builtins, entry.2.Plain := by simp [builtins, Maker.Plain]
  rw [Registry.registerBuiltins]
  exact plain.registerEach hplain

end RuleEngine
