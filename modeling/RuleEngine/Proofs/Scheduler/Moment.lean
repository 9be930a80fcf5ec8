/-
  RuleEngine/Proofs/Scheduler/Moment.lean
  =======================================
  **Runs of a scheduler, moment by moment.**

  `Scheduled.tick` takes a scheduler from one moment between two ticks to the next.
  What a user of the scheduler sees in between, and what tasks do to the queue while
  they fire, happens at moments inside of a tick.  This file makes these moments
  visible: a `Moment` is the state together with what is going on, a `Step` leads
  from one to the next, and a `Course` is a run over any number of them.  Both tell
  by a list of events what is seen on the way.

  The steps say no more than the definitions do.  A tick ends with the very state
  that `Scheduled.tick` returns, a firing with the one that `Scheduled.fire` returns.
  The theorems at the end of the file say that the steps lose nothing either: as
  long as tasks use the scheduler by its calls alone, every tick call that returns
  is a run (`Course.tick`).

  How many firings a tick may make is bounded by the weights of a workshop.  As a
  workshop may give any weights, every loop that comes to its end is that of a tick
  that returns (`Scheduled.exists_weight`).
-/
import RuleEngine.Proofs.Scheduler.Queue

namespace RuleEngine

variable {τ ω : Type}

/-! ### Calls -/

/-- What a user of a scheduler, be it a task that fires, may ask of it. -/
inductive Call (τ : Type) where
  | schedule (delay : Nat) (task : τ)
  | scheduleRepeating (initial period : Nat) (task : τ)
  | cancel (id : TaskId)

def Scheduler.perform (s : Scheduler τ) : Call τ → Scheduler τ
  | .schedule delay task => (s.schedule delay task).2
  | .scheduleRepeating initial period task => (s.scheduleRepeating initial period task).2
  | .cancel id => (s.cancel id).2

def Scheduler.performAll (s : Scheduler τ) (calls : List (Call τ)) : Scheduler τ :=
  calls.foldl Scheduler.perform s

/-! ### Events -/

/-- What is seen of a run.  The first number of an event is the current tick; a caller
    is the task whose firing makes the call, if it is not made between two ticks. -/
inductive Event (τ : Type) where
  /-- A tick began, and the counter moved on to a number. -/
  | ticked (now : Nat)
  /-- A task got its number and was queued; a period makes it a repeating one. -/
  | scheduled (now : Nat) (caller? : Option TaskId) (id : TaskId) (delay : Nat)
      (period? : Option Nat) (task : τ)
  /-- A task was asked to be cancelled; `found` is the answer of the call. -/
  | cancelled (now : Nat) (caller? : Option TaskId) (id : TaskId) (found : Bool)
  /-- An entry left the queue to fire. -/
  | fired (now : Nat) (entry : QueueEntry τ)
  /-- A repeating task was queued again after a firing. -/
  | requeued (now : Nat) (id : TaskId) (period : Nat)

/-- The greatest tick number that an event computes, before it is wrapped. -/
def Event.reach : Event τ → Nat
  | ticked now => now
  | scheduled now _ _ delay _ _ => now + delay
  | cancelled now _ _ _ => now
  | fired now _ => now
  | requeued now _ period => now + period

/-- No tick number that is computed in a history passes the end of the counter. -/
def Fits (h : List (Event τ)) : Prop := ∀ event ∈ h, event.reach < tickSpan

theorem fits_append {h k : List (Event τ)} : Fits (h ++ k) ↔ Fits h ∧ Fits k := by
  simp only [Fits, List.mem_append]
  constructor
  · exact fun hall => ⟨fun ev hev => hall ev (Or.inl hev), fun ev hev => hall ev (Or.inr hev)⟩
  · rintro ⟨hh, hk⟩ ev (hev | hev)
    · exact hh ev hev
    · exact hk ev hev

/-! ### Moments -/

inductive Phase (τ ω : Type) where
  /-- Nothing, so that the user of the scheduler may act. -/
  | between
  /-- A tick, which was called in the state `origin`, is about to look at the queue. -/
  | ticking (origin : Scheduled τ ω)
  /-- A task acts, whose entry was taken from the queue of the state `before`. -/
  | firing (origin before : Scheduled τ ω) (entry : QueueEntry τ)

def Phase.caller? : Phase τ ω → Option TaskId
  | firing _ _ entry => some entry.id
  | _ => none

/-- Somebody acts, be it a task or the user of the scheduler. -/
def Phase.Acting : Phase τ ω → Prop
  | ticking _ => False
  | _ => True

/-- A state and what is going on. -/
structure Moment (τ ω : Type) where
  state : Scheduled τ ω
  phase : Phase τ ω := .between

namespace Moment

def start (world : ω) : Moment τ ω := { state := { world } }

def scheduler (m : Moment τ ω) : Scheduler τ := m.state.scheduler

def now (m : Moment τ ω) : Nat := m.scheduler.current

/-- The first tick that is not over. -/
def horizon (m : Moment τ ω) : Nat :=
  match m.phase with
  | .between => m.now + 1
  | _ => m.now

/-- The moment after a call of whoever acts. -/
def perform (m : Moment τ ω) (c : Call τ) : Moment τ ω :=
  { m with state := { m.state with scheduler := m.scheduler.perform c } }

def event (m : Moment τ ω) : Call τ → Event τ
  | .schedule delay task =>
    .scheduled m.now m.phase.caller? (m.scheduler.schedule delay task).1 delay none task
  | .scheduleRepeating initial period task =>
    .scheduled m.now m.phase.caller? (m.scheduler.scheduleRepeating initial period task).1 initial
      (some period) task
  | .cancel id => .cancelled m.now m.phase.caller? id (m.scheduler.cancel id).1

def events (m : Moment τ ω) : List (Call τ) → List (Event τ)
  | [] => []
  | c :: calls => m.event c :: (m.perform c).events calls

end Moment

namespace Scheduled

/-- The state when a tick begins. -/
def begun (st : Scheduled τ ω) : Scheduled τ ω :=
  { st with scheduler :=
      { st.scheduler with current := (st.scheduler.current + 1) % tickSpan } }

/-- The state when the task of an entry starts to act. -/
def started (st : Scheduled τ ω) (e : QueueEntry τ) : Scheduled τ ω :=
  { st with scheduler := st.scheduler.start e }

def Drained (st : Scheduled τ ω) : Prop := st.scheduler.nextDue? = none

/-- A tick fires what is due, with the load of the queue as its bound. -/
theorem tick_eq_fireDue (w : Workshop τ ω) (st : Scheduled τ ω) :
    tick w st = fireDue w (load w st.begun.scheduler) st.begun := rfl

theorem fire_eq (w : Workshop τ ω) (st : Scheduled τ ω) (e : QueueEntry τ) :
    (st.fire w e).scheduler = (w.run e.id e.task (st.started e)).scheduler.finish e := rfl

/-- A firing that came to its end leaves what finishing its entry leaves. -/
theorem fire_of_done {w : Workshop τ ω} {st before : Scheduled τ ω} {e : QueueEntry τ}
    (done : st = w.run e.id e.task (before.started e)) :
    (before.fire w e).scheduler = st.scheduler.finish e := by
  rw [fire_eq, ← done]

end Scheduled

/-- The event of the end of a firing, if it queues the task again. -/
def Scheduler.requeueEvents (s : Scheduler τ) (e : QueueEntry τ) : List (Event τ) :=
  match e.period? with
  | some period => if s.cancelled.contains e.id then [] else [.requeued s.current e.id period]
  | none => []

theorem Scheduler.eq_of_mem_requeueEvents {s : Scheduler τ} {e : QueueEntry τ} {event : Event τ}
    (h : event ∈ s.requeueEvents e) : ∃ period, event = .requeued s.current e.id period := by
  unfold requeueEvents at h
  cases hp : e.period? with
  | none => simp [hp] at h
  | some period =>
    by_cases hc : e.id ∈ s.cancelled
    · simp [hp, hc] at h
    · exact ⟨period, by simpa [hp, hc] using h⟩

/-! ### Steps and runs -/

/-- A step from one moment to the next, with the events that it is seen by. -/
inductive Step (w : Workshop τ ω) : Moment τ ω → List (Event τ) → Moment τ ω → Prop where
  /-- Whoever acts makes a call. -/
  | call {m : Moment τ ω} (c : Call τ) (acting : m.phase.Acting) :
      Step w m [m.event c] (m.perform c)
  /-- Whoever acts changes the world. -/
  | change {m : Moment τ ω} (f : ω → ω) (acting : m.phase.Acting) :
      Step w m [] { m with state := { m.state with world := f m.state.world } }
  /-- A tick is called. -/
  | tick (st : Scheduled τ ω) :
      Step w ⟨st, .between⟩ [.ticked (st.scheduler.current + 1)] ⟨st.begun, .ticking st⟩
  /-- The first entry of the queue is due, and leaves it to fire. -/
  | fire {st origin : Scheduled τ ω} {e : QueueEntry τ} (due : st.scheduler.nextDue? = some e) :
      Step w ⟨st, .ticking origin⟩ [.fired st.scheduler.current e]
        ⟨st.started e, .firing origin st e⟩
  /-- A task has done what it does. -/
  | finish {st origin before : Scheduled τ ω} {e : QueueEntry τ}
      (done : st = w.run e.id e.task (before.started e)) :
      Step w ⟨st, .firing origin before e⟩ (st.scheduler.requeueEvents e)
        ⟨before.fire w e, .ticking origin⟩
  /-- The tick call returns, as nothing is due any more. -/
  | rest {st origin : Scheduled τ ω} (drained : st.Drained)
      (returned : (origin.tick w).2.Drained) :
      Step w ⟨st, .ticking origin⟩ [] ⟨(origin.tick w).2, .between⟩

/-- Some steps on end, with all events in order. -/
inductive Course (w : Workshop τ ω) (m : Moment τ ω) : List (Event τ) → Moment τ ω → Prop where
  | refl : Course w m [] m
  | snoc {h events : List (Event τ)} {m' m'' : Moment τ ω} (run : Course w m h m')
      (step : Step w m' events m'') : Course w m (h ++ events) m''

/-- One step is a run. -/
theorem Step.run {w : Workshop τ ω} {m m' : Moment τ ω} {events : List (Event τ)}
    (step : Step w m events m') : Course w m events m' :=
  Course.refl.snoc step

theorem Course.trans {w : Workshop τ ω} {m m' m'' : Moment τ ω} {h k : List (Event τ)}
    (first : Course w m h m') (second : Course w m' k m'') : Course w m (h ++ k) m'' := by
  induction second with
  | refl => rw [List.append_nil]; exact first
  | snoc _ step ih => rw [← List.append_assoc]; exact ih.snoc step

/-! ### The loop of a tick -/

namespace Scheduled

variable (w : Workshop τ ω)

theorem fireDue_of_drained {st : Scheduled τ ω} (h : st.Drained) (fuel : Nat) :
    fireDue w fuel st = (0, st) := by
  cases fuel with
  | zero => rfl
  | succ fuel =>
    have h' : st.scheduler.nextDue? = none := h
    simp only [fireDue, h']

/-- Firing what is due takes the first entry, and goes on. -/
theorem fireDue_of_nextDue? {st : Scheduled τ ω} {e : QueueEntry τ}
    (h : st.scheduler.nextDue? = some e) (fuel : Nat) :
    fireDue w (fuel + 1) st =
      ((fireDue w fuel (st.fire w e)).1 + 1, (fireDue w fuel (st.fire w e)).2) := by
  simp only [fireDue, h]

/-- A loop that came to its end does not change with more fuel. -/
theorem fireDue_add_of_drained (fuel more : Nat) (st : Scheduled τ ω)
    (h : (fireDue w fuel st).2.Drained) : fireDue w (fuel + more) st = fireDue w fuel st := by
  induction fuel generalizing st with
  | zero => exact fireDue_of_drained w h _
  | succ fuel ih =>
    rw [Nat.add_right_comm]
    cases hnext : st.scheduler.nextDue? with
    | none => rw [fireDue_of_drained w hnext, fireDue_of_drained w hnext]
    | some e =>
      rw [fireDue_of_nextDue? w hnext] at h
      rw [fireDue_of_nextDue? w hnext, fireDue_of_nextDue? w hnext, ih _ h]

/-- A state that the loop of a tick comes through: from there on it does what it would
    do if it started there. -/
def Trail (origin st : Scheduled τ ω) : Prop :=
  ∃ n, ∀ fuel, fireDue w (n + fuel) origin.begun =
    ((fireDue w fuel st).1 + n, (fireDue w fuel st).2)

variable {w}

theorem trail_begun (origin : Scheduled τ ω) : Trail w origin origin.begun :=
  ⟨0, fun fuel => by rw [Nat.zero_add]; rfl⟩

/-- A trail goes on with the next firing. -/
theorem Trail.fire {origin st : Scheduled τ ω} {e : QueueEntry τ} (ht : Trail w origin st)
    (hnext : st.scheduler.nextDue? = some e) : Trail w origin (st.fire w e) := by
  obtain ⟨n, hn⟩ := ht
  refine ⟨n + 1, fun fuel => ?_⟩
  rw [Nat.add_assoc, Nat.add_comm 1 fuel, hn (fuel + 1), fireDue_of_nextDue? w hnext,
    Nat.add_assoc, Nat.add_comm 1 n]

/-- A tick that returns does so in the state in which its loop finds nothing due. -/
theorem Trail.tick_eq {origin st : Scheduled τ ω} (ht : Trail w origin st) (hst : st.Drained)
    (hret : (origin.tick w).2.Drained) : (origin.tick w).2 = st := by
  obtain ⟨n, hn⟩ := ht
  have hloop := hn (load w origin.begun.scheduler)
  rw [fireDue_of_drained w hst, Nat.add_comm n] at hloop
  rw [tick_eq_fireDue] at hret ⊢
  rw [← fireDue_add_of_drained w _ n _ hret, hloop]

/-! ### Weights -/

/-- What firings do does not depend on the weights. -/
theorem fireDue_weight (n : Nat) (fuel : Nat) (st : Scheduled τ ω) :
    fireDue { w with weight := fun _ => n } fuel st = fireDue w fuel st := by
  induction fuel generalizing st with
  | zero => rfl
  | succ fuel ih =>
    simp only [fireDue]
    cases st.scheduler.nextDue? with
    | none => rfl
    | some e => simp only [ih]; rfl

/-- Anything due is enough for the load to reach a weight that all tasks have. -/
theorem le_load_of_nextDue? {s : Scheduler τ} {e : QueueEntry τ} (h : s.nextDue? = some e)
    (n : Nat) : n ≤ load { w with weight := fun _ => n } s := by
  obtain ⟨hq, hdue⟩ := Scheduler.nextDue?_eq_some.mp h
  unfold load
  rw [hq, List.filter_cons_of_pos (by simpa using hdue), List.foldr_cons]
  exact Nat.le_add_right _ _

/-- **A loop that comes to its end is that of a tick that returns**, given weights that
    allow for as many firings. -/
theorem exists_weight {st : Scheduled τ ω} {fuel : Nat}
    (h : (fireDue w fuel st.begun).2.Drained) :
    ∃ n, tick { w with weight := fun _ => n } st = fireDue w fuel st.begun := by
  refine ⟨fuel, ?_⟩
  rw [tick_eq_fireDue, fireDue_weight]
  cases hnext : st.begun.scheduler.nextDue? with
  | none => rw [fireDue_of_drained w hnext, fireDue_of_drained w hnext]
  | some e =>
    obtain ⟨more, hmore⟩ := Nat.exists_eq_add_of_le (le_load_of_nextDue? (w := w) hnext fuel)
    rw [hmore, fireDue_add_of_drained w fuel more _ h]

end Scheduled

/-! ### Every tick that returns is a run -/

/-- Tasks use the scheduler by its calls alone. -/
def Workshop.Calling (w : Workshop τ ω) : Prop :=
  ∀ id task st, ∃ calls, (w.run id task st).scheduler = st.scheduler.performAll calls

def Event.isFired : Event τ → Bool
  | fired _ _ => true
  | _ => false

section Adequacy

variable {w : Workshop τ ω}

/-- Calls and a change of the world lead to every state that is reached by calls. -/
theorem Course.performAll {m : Moment τ ω} (acting : m.phase.Acting) (calls : List (Call τ))
    {st : Scheduled τ ω} (hst : st.scheduler = m.scheduler.performAll calls) :
    Course w m (m.events calls) { m with state := st } := by
  induction calls generalizing m with
  | nil =>
    have hstate : st = { m.state with world := st.world } := by
      cases st
      exact congrArg₂ Scheduled.mk hst rfl
    rw [hstate]
    exact (Step.change (fun _ => st.world) acting).run
  | cons c calls ih => exact (Step.call c acting).run.trans (ih (m := m.perform c) acting hst)

/-- Calls of whoever acts are a run without a firing. -/
theorem Course.calls {m : Moment τ ω} (acting : m.phase.Acting) (calls : List (Call τ))
    {st : Scheduled τ ω} (hst : st.scheduler = m.scheduler.performAll calls) :
    ∃ h, Course w m h { m with state := st } ∧ h.countP Event.isFired = 0 := by
  refine ⟨m.events calls, .performAll acting calls hst, ?_⟩
  clear hst acting
  induction calls generalizing m with
  | nil => rfl
  | cons c calls ih =>
    rw [Moment.events, List.countP_cons, ih]
    cases c <;> rfl

/-- A firing is a run. -/
theorem Course.fire (hw : w.Calling) (origin : Scheduled τ ω) {st : Scheduled τ ω}
    {e : QueueEntry τ} (hnext : st.scheduler.nextDue? = some e) :
    ∃ h, Course w ⟨st, .ticking origin⟩ h ⟨st.fire w e, .ticking origin⟩ ∧
      h.countP Event.isFired = 1 := by
  obtain ⟨calls, hcalls⟩ := hw e.id e.task (st.started e)
  obtain ⟨h, run, hcount⟩ :=
    Course.calls (w := w) (m := ⟨st.started e, .firing origin st e⟩) trivial calls hcalls
  refine ⟨_, (((Step.fire hnext).run.trans run).snoc (.finish rfl)), ?_⟩
  have hrequeue : ∀ s : Scheduler τ, (s.requeueEvents e).countP Event.isFired = 0 := by
    intro s
    unfold Scheduler.requeueEvents
    (repeat' split) <;> rfl
  rw [List.countP_append, List.countP_append, hcount, hrequeue]
  rfl

/-- The loop of a tick is a run. -/
theorem Course.fireDue (hw : w.Calling) (origin : Scheduled τ ω) (fuel : Nat) (st : Scheduled τ ω) :
    ∃ h, Course w ⟨st, .ticking origin⟩ h ⟨(st.fireDue w fuel).2, .ticking origin⟩ ∧
      h.countP Event.isFired = (st.fireDue w fuel).1 := by
  induction fuel generalizing st with
  | zero => exact ⟨[], .refl, rfl⟩
  | succ fuel ih =>
    cases hnext : st.scheduler.nextDue? with
    | none =>
      rw [Scheduled.fireDue_of_drained w hnext]
      exact ⟨[], .refl, rfl⟩
    | some e =>
      obtain ⟨h, first, hfirst⟩ := Course.fire hw origin hnext
      obtain ⟨k, rest, hrest⟩ := ih (st.fire w e)
      refine ⟨h ++ k, ?_, ?_⟩
      · rw [Scheduled.fireDue_of_nextDue? w hnext]
        exact first.trans rest
      · rw [Scheduled.fireDue_of_nextDue? w hnext, List.countP_append, hfirst, hrest,
          Nat.add_comm]

/-- **Every tick that returns is a run**, and the number that it returns is the number
    of firings that are seen. -/
theorem Course.tick (hw : w.Calling) (st : Scheduled τ ω) (returned : (st.tick w).2.Drained) :
    ∃ h, Course w ⟨st, .between⟩ h ⟨(st.tick w).2, .between⟩ ∧
      h.countP Event.isFired = (st.tick w).1 := by
  obtain ⟨h, run, hcount⟩ := Course.fireDue hw st (Scheduled.load w st.begun.scheduler) st.begun
  rw [← Scheduled.tick_eq_fireDue] at run hcount
  have last : Course w _ (h ++ []) _ := run.snoc (.rest returned returned)
  rw [List.append_nil] at last
  exact ⟨_, (Step.tick st).run.trans last, by simpa [Event.isFired] using hcount⟩

end Adequacy

end RuleEngine
