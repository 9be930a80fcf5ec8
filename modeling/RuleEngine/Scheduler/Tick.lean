/-
  RuleEngine/Scheduler/Tick.lean
  ==============================
  **Running the tasks of a tick.**

  A tick fires the due tasks one after another, first the one that is due earliest.
  A firing may schedule and cancel tasks, so the queue is looked at again after
  each.  What tasks do is given by a `Workshop`: it runs a task on the scheduler and
  on a world of its own, and it bounds how many firings of one tick a task can lead
  to, itself included.  These bounds add up to the fuel of a tick.  Whether running a
  task means to carry it out or to hand it to somebody else is up to the workshop.
-/
import RuleEngine.Scheduler.Basic

namespace RuleEngine

structure Scheduled (τ ω : Type) where
  scheduler : Scheduler τ := {}
  world : ω

structure Workshop (τ ω : Type) where
  /-- Run a firing of a task.  A failure is contained and reported in the world. -/
  run : TaskId → τ → Scheduled τ ω → Scheduled τ ω
  /-- Report that a task was cancelled during its own firing. -/
  dropped : TaskId → ω → ω
  /-- How many firings of one tick a task can lead to, its own included. -/
  weight : τ → Nat

namespace Scheduled

variable {τ ω : Type}

def fire (w : Workshop τ ω) (st : Scheduled τ ω) (e : QueueEntry τ) : Scheduled τ ω :=
  let st := w.run e.id e.task { st with scheduler := st.scheduler.start e }
  { scheduler := st.scheduler.finish e
    world := if st.scheduler.drops e then w.dropped e.id st.world else st.world }

/-- Fire due tasks until none is left, at most `fuel` of them.  Tells how many fired. -/
def fireDue (w : Workshop τ ω) : Nat → Scheduled τ ω → Nat × Scheduled τ ω
  | 0, st => (0, st)
  | fuel + 1, st =>
    match st.scheduler.nextDue? with
    | none => (0, st)
    | some e =>
      let (fired, st) := fireDue w fuel (st.fire w e)
      (fired + 1, st)

/-- How many firings the due tasks of a queue can lead to. -/
def load (w : Workshop τ ω) (s : Scheduler τ) : Nat :=
  (s.queue.filter fun e => e.due ≤ s.current).foldr (fun e n => w.weight e.task + n) 0

/-- One tick: the counter moves on and everything due fires.  Tells how many fired. -/
def tick (w : Workshop τ ω) (st : Scheduled τ ω) : Nat × Scheduled τ ω :=
  let scheduler := { st.scheduler with current := (st.scheduler.current + 1) % tickSpan }
  fireDue w (load w scheduler) { st with scheduler }

def advance (w : Workshop τ ω) : Nat → Scheduled τ ω → Nat × Scheduled τ ω
  | 0, st => (0, st)
  | ticks + 1, st =>
    let (fired, st) := tick w st
    let (more, st) := advance w ticks st
    (fired + more, st)

end Scheduled

end RuleEngine
