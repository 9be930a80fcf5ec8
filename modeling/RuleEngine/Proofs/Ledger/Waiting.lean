/-
  RuleEngine/Proofs/Ledger/Waiting.lean
  =====================================
  **How long a cooldown still lasts.**

  The ledger works out the time that is left of a cooldown in two places: when it is asked
  for it, and when it refuses a check.  Both come to the same time, and a check is refused
  exactly if some time is left (`use_left`).  As long as the clock is not behind the last
  use, the time that is left shrinks by the time that passes (`remaining_add`), so the
  answer to one question foretells the answers to all later checks (`remaining_foretells`).

  A window need not be a whole number of milliseconds.  A check is refused as long as at
  least a whole millisecond of its window is still to come (`refuses_iff_nanos`).
-/
import RuleEngine.Proofs.Ledger.History

namespace RuleEngine.Ledger

/-! ### The time that is left -/

/-- A check is refused with the time that is left, and admitted if none is. -/
theorem use_left (l : Ledger) (now : Nat) (subject key : String) (window : Nat) :
    (l.use now subject key window).1 =
      if 0 < l.remaining now subject key window then some (l.remaining now subject key window)
      else none := by
  unfold use remaining
  cases l.lastUse? subject key with
  | none => rfl
  | some last =>
    dsimp only
    by_cases hcooling : now - last < window
    · rw [if_pos hcooling, if_pos (Nat.sub_pos_of_lt hcooling)]
    · have hover : ¬ 0 < window - (now - last) := by omega
      rw [if_neg hcooling, if_neg hover]

/-- Unless the clock is behind the last use, the time that is left shrinks with the time. -/
theorem remaining_add {l : Ledger} {now : Nat} {subject key : String}
    (hpast : ∀ last, l.lastUse? subject key = some last → last ≤ now) (window d : Nat) :
    l.remaining (now + d) subject key window = l.remaining now subject key window - d := by
  unfold remaining
  cases hlast : l.lastUse? subject key with
  | none => exact (Nat.zero_sub d).symm
  | some last =>
    have hle := hpast last hlast
    dsimp only
    omega

/-! ### Waiting -/

namespace Chronicle

def Refuses (c : Chronicle) (subject key : String) (window : Duration) : Prop :=
  (c.call (.check subject key window)).history.head? =
    some (.checked subject key window.millis c.clock true)

section Refuses

variable {c : Chronicle} {subject key : String} {window : Duration}

theorem refuses_iff_isSome :
    c.Refuses subject key window ↔
      (c.ledger.check c.clock subject key window).1.isSome = true := by
  simp only [Refuses, call, List.head?_cons, Option.some.injEq, Event.checked.injEq, true_and]

theorem refuses_iff :
    c.Refuses subject key window ↔
      0 < (c.ledger.timeLeft c.clock subject key window).millis := by
  rw [refuses_iff_isSome, check, use_left, millis_timeLeft]
  split <;> simp_all

/-- A check is refused as long as a millisecond more than has passed since the last use fits
    into its window. -/
theorem refuses_iff_nanos (fits : window.inNanos < UInt64.size * 1000000) :
    c.Refuses subject key window ↔ ∃ last, c.ledger.lastUse? subject key = some last ∧
      (c.clock - last + 1) * 1000000 ≤ window.inNanos := by
  rw [refuses_iff_isSome, check, (use_spec ..).1]
  simp only [Duration.lt_millis_iff fits]

/-- With a window of a millisecond and a half, the next millisecond admits a use again. -/
example :
    let window : Duration := { seconds := 0, nanos := 1500000 }
    let check : Call := .check "alice" "k" window
    (run 0 [check, check, .passTime (.ofMillis 1), check]).history =
      [.checked "alice" "k" 1 1 false, .checked "alice" "k" 1 0 true,
        .checked "alice" "k" 1 0 false] := by
  decide

end Refuses

/-- Calls that only ask something and let the clock go on, by a time in all. -/
inductive Idle : List Call → Nat → Prop
  | done : Idle [] 0
  | asked {calls : List Call} {d : Nat} (subject key : String) (window : Duration)
      (next : Idle calls d) : Idle (.remaining subject key window :: calls) d
  | counted {calls : List Call} {d : Nat} (next : Idle calls d) : Idle (.subjectCount :: calls) d
  | passed {calls : List Call} {d : Nat} (span : Duration) (next : Idle calls d) :
      Idle (.passTime span :: calls) (span.millis + d)

/-- Idle calls leave the ledger as it is and move the clock on. -/
theorem Idle.foldl_call {calls : List Call} {d : Nat} (h : Idle calls d) (c : Chronicle)
    (hspan : c.clock + d < clockSpan) :
    (calls.foldl call c).ledger = c.ledger ∧ (calls.foldl call c).clock = c.clock + d := by
  induction h generalizing c with
  | done => exact ⟨rfl, rfl⟩
  | asked subject key window next ih =>
    exact ih (c.call (.remaining subject key window)) hspan
  | counted next ih => exact ih (c.call .subjectCount) hspan
  | passed span next ih =>
    have hclock : (c.call (.passTime span)).clock = c.clock + span.millis := by
      apply Nat.mod_eq_of_lt
      omega
    obtain ⟨hledger, hend⟩ := ih (c.call (.passTime span)) (by omega)
    refine ⟨hledger, ?_⟩
    rw [List.foldl_cons, hend, hclock, Nat.add_assoc]

/-- **The time that is left foretells later checks.**  Asking for it changes nothing; some time
    is left exactly if a check is refused now; and as long as nothing else is called, and the
    clock neither starts again from zero nor is behind the last use, a check is refused exactly
    until that time has passed. -/
theorem remaining_foretells (c : Chronicle) (subject key : String) (window : Duration) :
    let left := (c.ledger.timeLeft c.clock subject key window).millis
    c.call (.remaining subject key window) =
        { c with history := .asked subject key window.millis c.clock left :: c.history } ∧
      (c.Refuses subject key window ↔ 0 < left) ∧
      ∀ calls d, Idle calls d → c.clock + d < clockSpan →
        (∀ last, c.ledger.lastUse? subject key = some last → last ≤ c.clock) →
        ((calls.foldl call c).Refuses subject key window ↔ d < left) := by
  intro left
  refine ⟨rfl, refuses_iff, ?_⟩
  intro calls d hidle hspan hpast
  obtain ⟨hledger, hclock⟩ := hidle.foldl_call c hspan
  rw [refuses_iff, hledger, hclock, millis_timeLeft, remaining_add hpast, ← millis_timeLeft]
  exact Nat.sub_pos_iff_lt

/-- A quarter into a cooldown three quarters are left: a check one millisecond before they are
    over is refused, and one at their end is admitted. -/
theorem remaining_foretells_quarter :
    let second : Duration := { seconds := 1 }
    let c := run 10000 [.check "alice" "k" second, .passTime (.ofMillis 250)]
    c.ledger.timeLeft c.clock "alice" "k" second = .ofMillis 750 ∧
      (List.foldl call c [.passTime (.ofMillis 749)]).Refuses "alice" "k" second ∧
      ¬ (List.foldl call c [.passTime (.ofMillis 400), .remaining "alice" "k" (.ofMillis 7),
        .passTime (.ofMillis 350)]).Refuses "alice" "k" second := by
  intro second c
  obtain ⟨-, -, hlater⟩ := remaining_foretells c "alice" "k" second
  have hpast : ∀ last, c.ledger.lastUse? "alice" "k" = some last → last ≤ c.clock := by
    intro last hlast
    have hten : c.ledger.lastUse? "alice" "k" = some 10000 := by decide
    rw [hten] at hlast
    cases hlast
    decide
  refine ⟨by decide, ?_, ?_⟩
  · exact (hlater _ _ (.passed (.ofMillis 749) .done) (by decide) hpast).mpr (by decide)
  · have hidle : Idle [.passTime (.ofMillis 400), .remaining "alice" "k" (.ofMillis 7),
        .passTime (.ofMillis 350)] 750 :=
      .passed (.ofMillis 400) (.asked "alice" "k" _ (.passed (.ofMillis 350) .done))
    exact fun h => absurd ((hlater _ _ hidle (by decide) hpast).mp h) (by decide)

end Chronicle

end RuleEngine.Ledger
