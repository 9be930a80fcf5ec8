/-
  RuleEngine/Proofs/Ledger/Forward.lean
  =====================================
  **Whether the recorded time of a pair moves forward.**

  Only an admitted check writes a time, and it writes the one that the clock shows.  While the
  clock is behind the time that is recorded, no time counts as passed, so a check whose window
  has a millisecond or more is refused, and the record stays as it is.  A window that counts no
  millisecond is the exception: less than nothing never passed, the check is admitted, and the
  earlier time is written (`Chronicle.SetsBack`).  Over a stretch of calls in which the session
  does not end, the recorded times go forward exactly if no such check is made
  (`recorded_times_advance_iff`).
-/
import RuleEngine.Proofs.Ledger.History

namespace RuleEngine.Ledger.Chronicle

variable {c : Chronicle} {call : Call} {subject key : String}

/-- A check of the pair with a window that counts no millisecond, made while the clock is behind
    the recorded time. -/
def SetsBack (c : Chronicle) (subject key : String) (call : Call) : Prop :=
  (∃ window, call = .check subject key window ∧ window.millis = 0) ∧
    ∃ last ∈ c.ledger.lastUse? subject key, c.clock < last

/-- The times that are recorded for a pair before each of some calls and after the last. -/
def recordedTimes (c : Chronicle) (subject key : String) : List Call → List Nat
  | [] => (c.ledger.lastUse? subject key).toList
  | call :: rest =>
    (c.ledger.lastUse? subject key).toList ++ (c.call call).recordedTimes subject key rest

/-- Every call satisfies a condition at the moment at which it is made. -/
def Throughout (p : Chronicle → Call → Prop) (c : Chronicle) : List Call → Prop
  | [] => True
  | call :: rest => p c call ∧ (c.call call).Throughout p rest

/-! ### One call -/

/-- A call within the session leaves the recorded time of a pair, or is a check of the pair that
    lies its window after that time, and records the clock. -/
theorem lastUse?_call (c : Chronicle) (key : String) (within : call ≠ .endSession subject) :
    (c.call call).ledger.lastUse? subject key = c.ledger.lastUse? subject key ∨
      ∃ window, call = .check subject key window ∧
        (c.call call).ledger.lastUse? subject key = some c.clock ∧
        ∀ last ∈ c.ledger.lastUse? subject key, window.millis ≤ c.clock - last := by
  cases call with
  | check s k window =>
    obtain ⟨hcooling, hledger⟩ := c.ledger.use_spec c.clock s k window.millis
    simp only [Chronicle.call, Ledger.check, hledger]
    cases hleft : (c.ledger.use c.clock s k window.millis).1.isSome with
    | true => exact .inl rfl
    | false =>
      rw [if_neg Bool.false_ne_true]
      by_cases hs : subject = s
      · by_cases hk : key = k
        · subst hs hk
          refine .inr ⟨window, rfl, lastUse?_record_same .., fun last hlast => ?_⟩
          by_contra hlt
          rw [hcooling.mpr ⟨last, hlast, Nat.lt_of_not_le hlt⟩] at hleft
          cases hleft
        · subst hs
          exact .inl (lastUse?_record_other_key _ _ _ hk)
      · exact .inl (lastUse?_record_other_subject _ _ _ _ hs)
  | endSession s =>
    have hs : subject ≠ s := fun heq => within (heq ▸ rfl)
    left
    change (c.ledger.endSession s).2.lastUse? subject key = _
    rw [lastUse?_erased, if_neg hs]
  | _ => exact .inl rfl

/-- A call within the session takes the recorded time back exactly if it is a check whose window
    counts no millisecond, made while the clock is behind. -/
theorem exists_lastUse?_call (within : call ≠ .endSession subject) {last : Nat}
    (hlast : c.ledger.lastUse? subject key = some last) :
    ∃ last', (c.call call).ledger.lastUse? subject key = some last' ∧
      (last ≤ last' ↔ ¬ c.SetsBack subject key call) := by
  rcases lastUse?_call c key within with hsame | ⟨window, rfl, hnow, hover⟩
  · refine ⟨last, hsame.trans hlast, iff_of_true (Nat.le_refl last) ?_⟩
    -- a check that sets the time back is admitted, so the time would be that of the clock
    rintro ⟨⟨window, rfl, hzero⟩, early, hearly, hbehind⟩
    obtain rfl := Option.some.inj (hlast.symm.trans hearly)
    have hadmitted : (c.call (.check subject key window)).ledger.lastUse? subject key =
        some c.clock := by
      simp [Chronicle.call, Ledger.check, use, hlast, hzero, lastUse?_record_same]
    rw [hsame, hlast] at hadmitted
    exact Nat.lt_irrefl _ (Option.some.inj hadmitted ▸ hbehind)
  · refine ⟨c.clock, hnow, ?_⟩
    have hwindow := hover last hlast
    constructor
    · rintro hle ⟨-, early, hearly, hbehind⟩
      obtain rfl := Option.some.inj (hlast.symm.trans hearly)
      exact Nat.not_lt.mpr hle hbehind
    · intro hforward
      by_contra hlt
      have hbehind : c.clock < last := Nat.lt_of_not_le hlt
      -- no time has passed, so that only a window of zero is over
      have hzero : window.millis = 0 :=
        Nat.le_zero.mp (hwindow.trans (Nat.sub_eq_zero_of_le hbehind.le).le)
      exact hforward ⟨⟨window, rfl, hzero⟩, last, hlast, hbehind⟩

/-! ### Stretches of calls -/

theorem exists_recordedTimes {last : Nat} (hlast : c.ledger.lastUse? subject key = some last)
    (calls : List Call) : ∃ later, c.recordedTimes subject key calls = last :: later := by
  cases calls with
  | nil => exact ⟨[], by simp [recordedTimes, hlast]⟩
  | cons call rest => exact ⟨_, by rw [recordedTimes, hlast]; rfl⟩

/-- **The recorded time of a pair moves forward as long as its session goes on**, whatever is
    called and however the clock is moved, if and only if no check whose window counts no
    millisecond is made while the clock is behind it. -/
theorem recorded_times_advance_iff (c : Chronicle) (subject key : String) {calls : List Call}
    (within : .endSession subject ∉ calls) :
    (c.recordedTimes subject key calls).Pairwise (· ≤ ·) ↔
      c.Throughout (fun c call => ¬ c.SetsBack subject key call) calls := by
  induction calls generalizing c with
  | nil =>
    refine iff_of_true ?_ trivial
    unfold recordedTimes
    cases c.ledger.lastUse? subject key <;> simp
  | cons call rest ih =>
    rw [List.mem_cons, not_or] at within
    obtain ⟨hcall, hrest⟩ := within
    have hlater := ih (c.call call) hrest
    rw [recordedTimes, Throughout, ← hlater]
    cases hlast : c.ledger.lastUse? subject key with
    | none =>
      -- nothing is recorded yet, so nothing can be taken back
      have hfirst : ¬ c.SetsBack subject key call := by
        rintro ⟨-, last, hmem, -⟩
        rw [hlast] at hmem
        cases hmem
      simp [hfirst]
    | some last =>
      obtain ⟨last', hlast', hle⟩ := exists_lastUse?_call (Ne.symm hcall) hlast
      obtain ⟨later, htimes⟩ := exists_recordedTimes hlast' rest
      rw [htimes, ← hle, Option.toList_some, List.singleton_append, List.pairwise_cons]
      refine and_congr_left fun hpairwise => ?_
      constructor
      · exact fun hall => hall last' List.mem_cons_self
      · intro hstep t ht
        rcases List.mem_cons.mp ht with rfl | ht
        · exact hstep
        · exact hstep.trans (List.rel_of_pairwise_cons hpairwise ht)

/-- The clock is set back by five seconds.  A check without a window takes the recorded time back
    as well; one with a window of a millisecond does not. -/
theorem recorded_times_advance_iff_setback :
    let start : Chronicle := { clock := 10000 }
    let checking (window : Duration) : List Call :=
      [.check "alice" "k" window, .setClock 5000, .check "alice" "k" window]
    ¬ (start.recordedTimes "alice" "k" (checking (.ofMillis 0))).Pairwise (· ≤ ·) ∧
      (start.recordedTimes "alice" "k" (checking (.ofMillis 1))).Pairwise (· ≤ ·) := by
  intro start checking
  constructor
  · intro hforward
    have hnone := (recorded_times_advance_iff start "alice" "k" (by simp [checking])).mp hforward
    exact hnone.2.2.1 ⟨⟨_, rfl, by decide⟩, 10000, by decide, by decide⟩
  · have hforward : ∀ c : Chronicle,
        ¬ c.SetsBack "alice" "k" (.check "alice" "k" (.ofMillis 1)) := by
      rintro c ⟨⟨window, hcheck, hzero⟩, -⟩
      cases hcheck
      exact absurd hzero (by decide)
    refine (recorded_times_advance_iff start "alice" "k" (by simp [checking])).mpr
      ⟨hforward _, ?_, hforward _, trivial⟩
    rintro ⟨⟨window, hcheck, -⟩, -⟩
    cases hcheck

end RuleEngine.Ledger.Chronicle
