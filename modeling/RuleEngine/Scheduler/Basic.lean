/-
  RuleEngine/Scheduler/Basic.lean
  ===============================
  **A queue of tasks by tick.**

  A task is due at a tick, once or again and again.  The queue keeps its entries by
  due tick and, within one tick, by the order in which the tasks were first
  scheduled, which their numbers record.  Beside the queue the scheduler keeps the due
  tick of every queued task, and which repeating tasks have left the queue to fire and
  were cancelled meanwhile.  What a task is, and what it does, is left to the user of
  the queue; this file only says which task comes next, and what scheduling and
  cancelling do.
-/

namespace RuleEngine

abbrev TaskId := Nat

/-- The number of ticks after which the tick counter starts again from zero. -/
def tickSpan : Nat := UInt64.size

/-- Where a task runs when it is due: on the thread that moves the ticks on, or off it. -/
inductive ExecMode where
  | sync
  | async
deriving DecidableEq, Repr

def ExecMode.ofAsync : Bool → ExecMode
  | true => .async
  | false => .sync

structure QueueEntry (τ : Type) where
  due : Nat
  id : TaskId
  /-- The ticks between two firings of a repeating task. -/
  period? : Option Nat
  task : τ
deriving Repr

/-- Whether an entry comes before another: it is due earlier, or at the same tick
    and scheduled earlier. -/
def QueueEntry.before {τ : Type} (a b : QueueEntry τ) : Bool :=
  a.due < b.due || (a.due == b.due && a.id < b.id)

/-- The tick, the number of the next task, the queue, and what is known of tasks by
    their numbers. -/
structure Scheduler (τ : Type) where
  current : Nat := 0
  nextId : TaskId := 0
  queue : List (QueueEntry τ) := []
  /-- The tick that each queued task is due at. -/
  dueOf : List (TaskId × Nat) := []
  /-- The repeating tasks that have left the queue and are firing. -/
  running : List TaskId := []
  /-- The tasks that were cancelled while they were firing. -/
  cancelled : List TaskId := []
deriving Repr

namespace Scheduler

variable {τ : Type}

/-! ### The queue -/

def insertByDue (e : QueueEntry τ) : List (QueueEntry τ) → List (QueueEntry τ)
  | [] => [e]
  | f :: rest => if e.before f then e :: f :: rest else f :: insertByDue e rest

def withoutDue (id : TaskId) (dueOf : List (TaskId × Nat)) : List (TaskId × Nat) :=
  dueOf.filter fun d => d.1 != id

def withoutTask (id : TaskId) (ids : List TaskId) : List TaskId := ids.filter (· != id)

def push (s : Scheduler τ) (e : QueueEntry τ) : Scheduler τ :=
  { s with queue := insertByDue e s.queue, dueOf := (e.id, e.due) :: withoutDue e.id s.dueOf }

def pending (s : Scheduler τ) : Nat := s.queue.length

def dueOf? (s : Scheduler τ) (id : TaskId) : Option Nat := s.dueOf.lookup id

def isScheduled (s : Scheduler τ) (id : TaskId) : Bool := (s.dueOf? id).isSome

/-! ### Scheduling and cancelling -/

/-- Queue a task, due `delay` ticks from now; a period makes it a repeating one. -/
def add (s : Scheduler τ) (delay : Nat) (period? : Option Nat) (task : τ) :
    TaskId × Scheduler τ :=
  let entry := ⟨(s.current + delay) % tickSpan, s.nextId, period?, task⟩
  (s.nextId, { s with nextId := s.nextId + 1 }.push entry)

def schedule (s : Scheduler τ) (delay : Nat) (task : τ) : TaskId × Scheduler τ :=
  s.add delay none task

/-- Schedule a task to fire again and again, at least a tick apart. -/
def scheduleRepeating (s : Scheduler τ) (initial period : Nat) (task : τ) :
    TaskId × Scheduler τ :=
  s.add initial (some (max period 1)) task

/-- Cancel a task: a queued one leaves the queue, a repeating one that is firing is
    not queued again.  Tells whether there was something to cancel. -/
def cancel (s : Scheduler τ) (id : TaskId) : Bool × Scheduler τ :=
  match s.dueOf? id with
  | some due =>
    (true, { s with
      queue := s.queue.filter fun e => !(e.due == due && e.id == id)
      dueOf := withoutDue id s.dueOf })
  | none =>
    if s.running.contains id then (true, { s with cancelled := s.cancelled.insert id })
    else (false, s)

/-! ### Taking the next task -/

/-- The first entry of the queue, when it is due. -/
def nextDue? (s : Scheduler τ) : Option (QueueEntry τ) :=
  match s.queue with
  | [] => none
  | e :: _ => if e.due ≤ s.current then some e else none

/-- The scheduler while an entry taken from the head of the queue fires. -/
def start (s : Scheduler τ) (e : QueueEntry τ) : Scheduler τ :=
  { s with
    queue := s.queue.tail
    dueOf := withoutDue e.id s.dueOf
    running := if e.period?.isSome then s.running.insert e.id else s.running }

/-- Whether a repeating task that fired is dropped, as it was cancelled meanwhile. -/
def drops (s : Scheduler τ) (e : QueueEntry τ) : Bool :=
  e.period?.isSome && s.cancelled.contains e.id

/-- The scheduler after a firing: a repeating task is queued again unless it was
    cancelled meanwhile. -/
def finish (s : Scheduler τ) (e : QueueEntry τ) : Scheduler τ :=
  match e.period? with
  | none => s
  | some period =>
    let idle := { s with running := withoutTask e.id s.running }
    if s.cancelled.contains e.id then { idle with cancelled := withoutTask e.id s.cancelled }
    else idle.push { e with due := (s.current + period) % tickSpan }

end Scheduler

end RuleEngine
