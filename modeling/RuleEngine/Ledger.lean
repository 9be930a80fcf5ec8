/-
  RuleEngine/Ledger.lean
  ======================
  **Cooldowns.**

  The ledger remembers, for a subject and a key, when the pair was used last.  A
  use is admitted when the last one lies at least the window back, and only an
  admitted use is remembered, so asking again does not extend a cooldown.  Time is
  a clock in milliseconds that may be set back; the time that passed since a later
  moment counts as none.

  A window is a span of time (`check`, `timeLeft`), of which the ledger counts the whole
  milliseconds (`use`, `remaining`).
-/
import RuleEngine.Duration
import RuleEngine.Node.Basic

namespace RuleEngine

structure Ledger where
  subjects : List (String × List (String × Nat)) := []
deriving DecidableEq, Repr

namespace Ledger

def keysOf (l : Ledger) (subject : String) : List (String × Nat) :=
  (lookupEntry subject l.subjects).getD []

def lastUse? (l : Ledger) (subject key : String) : Option Nat :=
  lookupEntry key (l.keysOf subject)

def record (l : Ledger) (subject key : String) (now : Nat) : Ledger :=
  ⟨insertEntry subject (insertEntry key now (l.keysOf subject)) l.subjects⟩

/-- The milliseconds that are left of a cooldown.  Asking changes nothing. -/
def remaining (l : Ledger) (now : Nat) (subject key : String) (window : Nat) : Nat :=
  match l.lastUse? subject key with
  | some last => window - (now - last)
  | none => 0

/-- Use a pair: the time that is left if it is cooling down, and otherwise the
    ledger with the use written. -/
def use (l : Ledger) (now : Nat) (subject key : String) (window : Nat) : Option Nat × Ledger :=
  match l.lastUse? subject key with
  | some last =>
    if now - last < window then (some (window - (now - last)), l)
    else (none, l.record subject key now)
  | none => (none, l.record subject key now)

def check (l : Ledger) (now : Nat) (subject key : String) (window : Duration) :
    Option Nat × Ledger :=
  l.use now subject key window.millis

def timeLeft (l : Ledger) (now : Nat) (subject key : String) (window : Duration) : Duration :=
  .ofMillis (.ofNat (l.remaining now subject key window.millis))

def endSession (l : Ledger) (subject : String) : Nat × Ledger :=
  ((l.keysOf subject).length, ⟨eraseEntry subject l.subjects⟩)

def subjectCount (l : Ledger) : Nat := l.subjects.length

theorem remaining_le (l : Ledger) (now : Nat) (subject key : String) (window : Nat) :
    l.remaining now subject key window ≤ window := by
  unfold remaining
  split
  · exact Nat.sub_le ..
  · exact Nat.zero_le _

@[simp] theorem millis_timeLeft (l : Ledger) (now : Nat) (subject key : String)
    (window : Duration) :
    (l.timeLeft now subject key window).millis = l.remaining now subject key window.millis := by
  have hle := Nat.lt_of_le_of_lt (l.remaining_le now subject key window.millis) window.millis_lt
  rw [timeLeft, Duration.millis_ofMillis, UInt64.toNat_ofNat_of_lt' hle]

theorem lastUse?_record_same (l : Ledger) (subject key : String) (now : Nat) :
    (l.record subject key now).lastUse? subject key = some now := by
  simp [record, lastUse?, keysOf, lookupEntry_insertEntry_same]

theorem lastUse?_record_other_subject (l : Ledger) {subject other : String} (key key' : String)
    (now : Nat) (h : other ≠ subject) :
    (l.record subject key now).lastUse? other key' = l.lastUse? other key' := by
  simp [record, lastUse?, keysOf, lookupEntry_insertEntry_other _ _ h]

theorem lastUse?_record_other_key (l : Ledger) (subject : String) {key other : String}
    (now : Nat) (h : other ≠ key) :
    (l.record subject key now).lastUse? subject other = l.lastUse? subject other := by
  simp [record, lastUse?, keysOf, lookupEntry_insertEntry_same,
    lookupEntry_insertEntry_other _ _ h]

end Ledger

/-! ### The clock -/

/-- The span after which the clock starts again from zero. -/
def clockSpan : Nat := UInt64.size

def advanceClock (now millis : Nat) : Nat := (now + millis) % clockSpan

/-- The clock moved on by a span, of which it counts the whole milliseconds. -/
def passTime (now : Nat) (span : Duration) : Nat := advanceClock now span.millis

end RuleEngine
