/-
  RuleEngine/Proofs/Scheduler/Plan.lean
  =====================================
  **The ticks at which a task is to fire.**

  A task that is scheduled with a delay has a plan: the tick of its first firing and,
  if it repeats, the ticks between two firings.  A delay counts from the current
  tick; a task that is scheduled between two ticks waits for the next one at least,
  since the current one is over, while a task that is scheduled by another one's
  firing can still fire within the same tick.  So the first turn of a task can be
  later than the tick that its entry is due at.

  The second half of the file reads off a history what is seen of one task.
-/
import RuleEngine.Proofs.Scheduler.Moment

namespace RuleEngine

variable {τ ω : Type}

/-! ### Plans -/

/-- The ticks at which a task is to fire. -/
structure Plan where
  /-- The tick at which the first entry is due. -/
  due : Nat
  first : Nat
  /-- The ticks between two firings of a repeating task. -/
  period? : Option Nat

namespace Plan

def of (now : Nat) (caller? : Option TaskId) (delay : Nat) (period? : Option Nat) : Plan where
  due := now + delay
  first := if caller?.isSome then now + delay else now + max delay 1
  period? := period?.map fun period => max period 1

def Has (p : Plan) (tick : Nat) : Prop :=
  match p.period? with
  | none => tick = p.first
  | some period => ∃ k, tick = p.first + k * period

def nth (p : Plan) (k : Nat) : Nat := p.first + k * p.period?.getD 0

def dueAt (p : Plan) : Nat → Nat
  | 0 => p.due
  | k + 1 => p.nth (k + 1)

@[simp] theorem nth_zero (p : Plan) : p.nth 0 = p.first := by simp [nth]

theorem nth_succ {p : Plan} {period : Nat} (hp : p.period? = some period) (k : Nat) :
    p.nth (k + 1) = p.nth k + period := by
  simp only [nth, hp, Option.getD_some, Nat.succ_mul]
  omega

theorem has_nth {p : Plan} {k : Nat} (h : p.period? = none → k = 0) : p.Has (p.nth k) := by
  unfold Has
  cases hp : p.period? with
  | none => simp [h hp]
  | some period => exact ⟨k, by simp [nth, hp]⟩

theorem exists_nth_of_has {p : Plan} {tick k : Nat} (h : p.Has tick) (hlt : tick < p.nth k) :
    ∃ j < k, p.nth j = tick := by
  unfold Has at h
  cases hp : p.period? with
  | none =>
    simp only [hp] at h
    simp [nth, hp, h] at hlt
  | some period =>
    simp only [hp] at h
    obtain ⟨j, rfl⟩ := h
    simp only [nth, hp, Option.getD_some] at hlt ⊢
    exact ⟨j, Nat.lt_of_mul_lt_mul_right (Nat.lt_of_add_lt_add_left hlt), rfl⟩

/-- The ticks of a plan that repeats increase. -/
theorem nth_lt_nth {p : Plan} {period : Nat} (hp : p.period? = some period) (hpos : 0 < period)
    {j k : Nat} (h : j < k) : p.nth j < p.nth k := by
  simp only [nth, hp, Option.getD_some]
  exact Nat.add_lt_add_left (Nat.mul_lt_mul_of_pos_right h hpos) _

theorem nth_injective {p : Plan} {period : Nat} (hp : p.period? = some period) (hpos : 0 < period)
    {j k : Nat} (h : p.nth j = p.nth k) : j = k := by
  rcases Nat.lt_trichotomy j k with hlt | heq | hgt
  · exact absurd h (Nat.ne_of_lt (nth_lt_nth hp hpos hlt))
  · exact heq
  · exact absurd h.symm (Nat.ne_of_lt (nth_lt_nth hp hpos hgt))

theorem first_of_le (now delay : Nat) (caller? : Option TaskId) (period? : Option Nat) :
    (Plan.of now caller? delay period?).first ≤ now + max delay 1 := by
  simp only [Plan.of]
  split <;> omega

theorem period_pos_of {now delay period : Nat} {caller? : Option TaskId}
    {period? : Option Nat} (h : (Plan.of now caller? delay period?).period? = some period) :
    0 < period := by
  obtain ⟨p, -, rfl⟩ := Option.map_eq_some_iff.mp h
  exact Nat.lt_of_lt_of_le Nat.zero_lt_one (Nat.le_max_right p 1)

theorem pairwise_nth {now delay : Nat} {caller? : Option TaskId} {period? : Option Nat}
    {k : Nat} (honce : (Plan.of now caller? delay period?).period? = none → k ≤ 1) :
    ((List.range k).map (Plan.of now caller? delay period?).nth).Pairwise (· < ·) := by
  rw [List.pairwise_map]
  cases hp : (Plan.of now caller? delay period?).period? with
  | none =>
    rcases Nat.le_one_iff_eq_zero_or_eq_one.mp (honce hp) with rfl | rfl
    · exact List.Pairwise.nil
    · exact List.pairwise_singleton _ _
  | some period =>
    refine List.pairwise_lt_range.imp fun {i j} hij => ?_
    exact nth_lt_nth hp (period_pos_of hp) hij

end Plan

/-! ### Views of a history -/

def firedTicks (id : TaskId) (h : List (Event τ)) : List Nat :=
  h.filterMap fun
    | .fired now e => if e.id = id then some now else none
    | _ => none

/-- Some call of `cancel` found the task and said so. -/
def WasCancelled (id : TaskId) (h : List (Event τ)) : Prop :=
  ∃ now caller?, Event.cancelled now caller? id true ∈ h

theorem firedTicks_append (id : TaskId) (h k : List (Event τ)) :
    firedTicks id (h ++ k) = firedTicks id h ++ firedTicks id k :=
  List.filterMap_append

theorem mem_firedTicks {id : TaskId} {h : List (Event τ)} {tick : Nat} :
    tick ∈ firedTicks id h ↔ ∃ e, Event.fired tick e ∈ h ∧ e.id = id := by
  simp only [firedTicks, List.mem_filterMap]
  constructor
  · rintro ⟨ev, hev, hsome⟩
    cases ev with
    | fired now e =>
      by_cases hid : e.id = id
      · simp only [hid, if_true, Option.some.injEq] at hsome
        exact ⟨e, hsome ▸ hev, hid⟩
      · simp [hid] at hsome
    | _ => simp at hsome
  · rintro ⟨e, hev, hid⟩
    exact ⟨_, hev, by simp [hid]⟩

theorem firedTicks_eq_nil {id : TaskId} {h : List (Event τ)}
    (hquiet : ∀ now e, Event.fired now e ∈ h → e.id ≠ id) : firedTicks id h = [] := by
  refine List.eq_nil_iff_forall_not_mem.mpr fun tick hmem => ?_
  obtain ⟨e, hev, hid⟩ := mem_firedTicks.mp hmem
  exact hquiet tick e hev hid

theorem ne_of_firedTicks_eq_nil {id now : Nat} {h : List (Event τ)} {e : QueueEntry τ}
    (hnone : firedTicks id h = []) (hev : .fired now e ∈ h) : e.id ≠ id := by
  intro hid
  have hmem : now ∈ firedTicks id h := mem_firedTicks.mpr ⟨e, hev, hid⟩
  rw [hnone] at hmem
  cases hmem

theorem WasCancelled.append {id : TaskId} {h : List (Event τ)} (hc : WasCancelled id h)
    (k : List (Event τ)) : WasCancelled id (h ++ k) := by
  obtain ⟨now, caller?, hev⟩ := hc
  exact ⟨now, caller?, List.mem_append_left k hev⟩

end RuleEngine
