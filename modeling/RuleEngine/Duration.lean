/-
  RuleEngine/Duration.lean
  ========================
  **Spans of time.**

  A span is counted in seconds of 64 bits and in nanoseconds within a second.  Clocks and
  cooldowns count milliseconds of 64 bits instead, so a span that reaches them loses what is
  less than a millisecond, and what goes beyond 64 bits (`Duration.millis`).  A count of
  milliseconds is a span that loses nothing (`millis_ofMillis`).
-/

namespace RuleEngine

structure Duration where
  seconds : Nat
  nanos : Nat := 0
  seconds_lt : seconds < UInt64.size := by decide
  nanos_lt : nanos < 1000000000 := by decide
deriving DecidableEq, Repr

namespace Duration

def ofMillis (n : UInt64) : Duration where
  seconds := n.toNat / 1000
  nanos := n.toNat % 1000 * 1000000
  seconds_lt := Nat.lt_of_le_of_lt (Nat.div_le_self ..) n.toNat_lt
  nanos_lt := by omega

def inNanos (d : Duration) : Nat := d.seconds * 1000000000 + d.nanos

/-- The whole milliseconds of a span, in 64 bits. -/
def millis (d : Duration) : Nat := (d.seconds * 1000 + d.nanos / 1000000) % UInt64.size

theorem millis_lt (d : Duration) : d.millis < UInt64.size := Nat.mod_lt _ (by decide)

@[simp] theorem millis_ofMillis (n : UInt64) : (ofMillis n).millis = n.toNat := by
  have hn := n.toNat_lt
  simp only [millis, ofMillis, UInt64.size]
  omega

/-- A span that fits is longer than some milliseconds exactly if one more fits into it. -/
theorem lt_millis_iff {d : Duration} (fits : d.inNanos < UInt64.size * 1000000) (n : Nat) :
    n < d.millis ↔ (n + 1) * 1000000 ≤ d.inNanos := by
  have hnanos := d.nanos_lt
  simp only [inNanos, UInt64.size] at fits ⊢
  simp only [millis, UInt64.size]
  omega

/-- Half a millisecond counts as none, one and a half as one, and a span of `2 ^ 61` seconds,
    whose milliseconds are a multiple of `2 ^ 64`, as none. -/
example : millis ⟨0, 500000, by decide, by decide⟩ = 0 ∧
    millis ⟨0, 1500000, by decide, by decide⟩ = 1 ∧
    millis { seconds := 2305843009213693952 } = 0 := by
  decide

end Duration

end RuleEngine
