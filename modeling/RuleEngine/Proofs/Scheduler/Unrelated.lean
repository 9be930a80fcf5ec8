/-
  RuleEngine/Proofs/Scheduler/Unrelated.lean
  ==========================================
  **Unrelated tasks do not disturb each other.**

  Two runs of a scheduler are compared.  In the second one extra tasks are scheduled,
  and maybe cancelled, between two ticks or by tasks that fire; the extra tasks make no
  calls themselves.  Otherwise both runs are the same, that is, whoever acts does the
  same in both as long as it sees the same.  This is told by a `Conduct`, which says what
  the user of the scheduler and its tasks do next, given all that was seen before: a task
  may remember what it likes, and look at the answers of its calls and at the tick.

  A `Play` is a run that follows a conduct, and its trace is a list of marks.  In a run
  with extra tasks the conduct gets to see the trace without them (`omitMarks`), in which
  the other tasks have the numbers that they would have had.  Without extra tasks every
  run follows some conduct (`Course.exists_play`).

  The main statement is `Play.unrelated_tasks_undisturbed`.  It comes from a simulation,
  `Play.agree`: as soon as both traces are of one length they are the same, and the first
  scheduler is the second without its extra tasks.
-/
import RuleEngine.Proofs.Scheduler.Invariant
import RuleEngine.Proofs.Scheduler.Omission
import RuleEngine.Proofs.Scheduler.Timetable

namespace RuleEngine

variable {τ ω ω' : Type}

/-! ### What is seen of a run -/

/-- What is seen of a run, with the ends of firings and of ticks. -/
inductive Mark (τ : Type) where
  | seen (event : Event τ)
  /-- The task of a number has done what it does. -/
  | ended (id : TaskId)
  /-- A tick call returned. -/
  | returned

def Event.about? : Event τ → Option TaskId
  | ticked _ => none
  | scheduled _ _ id _ _ _ => some id
  | cancelled _ _ id _ => some id
  | fired _ entry => some entry.id
  | requeued _ id _ => some id

/-- An event with every task under its rank. -/
def Event.ranked (extra : TaskId → Bool) : Event τ → Event τ
  | ticked now => ticked now
  | scheduled now caller? id delay period? task =>
    scheduled now (caller?.map (rank extra)) (rank extra id) delay period? task
  | cancelled now caller? id found =>
    cancelled now (caller?.map (rank extra)) (rank extra id) found
  | fired now entry => fired now (entry.ranked extra)
  | requeued now id period => requeued now (rank extra id) period

namespace Mark

def about? : Mark τ → Option TaskId
  | seen event => event.about?
  | ended id => some id
  | returned => none

def ranked (extra : TaskId → Bool) : Mark τ → Mark τ
  | seen event => seen (event.ranked extra)
  | ended id => ended (rank extra id)
  | returned => returned

def isExtra (extra : TaskId → Bool) (mark : Mark τ) : Bool := mark.about?.any extra

def byUser : Mark τ → Bool
  | seen (.ticked _) => true
  | seen (.scheduled _ caller? _ _ _ _) => caller?.isNone
  | seen (.cancelled _ caller? _ _) => caller?.isNone
  | _ => false

end Mark

/-- A trace without the extra tasks. -/
def omitMarks (extra : TaskId → Bool) (h : List (Mark τ)) : List (Mark τ) :=
  (h.filter fun mark => !mark.isExtra extra).map (Mark.ranked extra)

section Traces

variable {extra : TaskId → Bool}

theorem omitMarks_append (h k : List (Mark τ)) :
    omitMarks extra (h ++ k) = omitMarks extra h ++ omitMarks extra k := by
  simp [omitMarks]

theorem omitMarks_snoc_extra {mark : Mark τ} (hmark : mark.isExtra extra = true)
    (h : List (Mark τ)) : omitMarks extra (h ++ [mark]) = omitMarks extra h := by
  simp [omitMarks, hmark]

theorem omitMarks_snoc {mark : Mark τ} (hmark : mark.isExtra extra = false)
    (h : List (Mark τ)) :
    omitMarks extra (h ++ [mark]) = omitMarks extra h ++ [mark.ranked extra] := by
  simp [omitMarks, hmark]

@[simp] theorem Event.ranked_of_none (event : Event τ) :
    event.ranked (fun _ => false) = event := by
  have hcaller : ∀ caller? : Option TaskId, caller?.map (rank fun _ => false) = caller? := by
    intro caller?
    cases caller? <;> simp
  cases event <;> simp [ranked, QueueEntry.ranked, hcaller]

/-- Where no task is extra the trace is as it is. -/
@[simp] theorem omitMarks_of_none (h : List (Mark τ)) : omitMarks (fun _ => false) h = h := by
  have hmark : (Mark.ranked fun _ => false : Mark τ → Mark τ) = id := by
    funext mark
    cases mark <;> simp [Mark.ranked]
  have hall : ∀ mark : Mark τ, mark.isExtra (fun _ => false) = false := by
    intro mark
    simp [Mark.isExtra]
  simp [omitMarks, hmark, hall]

end Traces

/-! ### Runs that follow a conduct -/

/-- What somebody who acts does next. -/
inductive Deed (τ : Type) where
  | call (c : Call τ)
  /-- The user calls a tick; a task is done with what it does. -/
  | leave

/-- What the user of a scheduler and its tasks do next, given all that was seen before. -/
abbrev Conduct (τ : Type) := List (Mark τ) → Deed τ

def Call.about (c : Call τ) (s : Scheduler τ) : TaskId :=
  match c with
  | cancel id => id
  | _ => s.nextId

def Call.ranked (extra : TaskId → Bool) : Call τ → Call τ
  | schedule delay task => schedule delay task
  | scheduleRepeating initial period task => scheduleRepeating initial period task
  | cancel id => cancel (rank extra id)

/-- A step that is seen, in a run with a trace so far.  What is done about the tasks that are
    not extra follows the conduct.  Calls about extra tasks are made at will, but not by
    extra tasks, which make no calls. -/
inductive Turn (w : Workshop τ ω) (conduct : Conduct τ) (extra : TaskId → Bool)
    (h : List (Mark τ)) : Moment τ ω → Mark τ → Moment τ ω → Prop where
  | call {m : Moment τ ω} (c : Call τ) (acting : m.phase.Acting)
      (idle : ∀ id, m.phase.caller? = some id → extra id = false)
      (follows : extra (c.about m.scheduler) = false →
        conduct (omitMarks extra h) = .call (c.ranked extra)) :
      Turn w conduct extra h m (.seen (m.event c)) (m.perform c)
  | tick (st : Scheduled τ ω) (follows : conduct (omitMarks extra h) = .leave) :
      Turn w conduct extra h ⟨st, .between⟩ (.seen (.ticked (st.scheduler.current + 1)))
        ⟨st.begun, .ticking st⟩
  | fire {st origin : Scheduled τ ω} {e : QueueEntry τ} (due : st.scheduler.nextDue? = some e) :
      Turn w conduct extra h ⟨st, .ticking origin⟩ (.seen (.fired st.scheduler.current e))
        ⟨st.started e, .firing origin st e⟩
  | finish {st origin before : Scheduled τ ω} {e : QueueEntry τ}
      (done : st = w.run e.id e.task (before.started e))
      (follows : extra e.id = false → conduct (omitMarks extra h) = .leave) :
      Turn w conduct extra h ⟨st, .firing origin before e⟩ (.ended e.id)
        ⟨before.fire w e, .ticking origin⟩
  | rest {st origin : Scheduled τ ω} (drained : st.Drained)
      (returned : (origin.tick w).2.Drained) :
      Turn w conduct extra h ⟨st, .ticking origin⟩ .returned ⟨(origin.tick w).2, .between⟩

/-- A run of a new scheduler that follows a conduct, with its trace. -/
inductive Play (w : Workshop τ ω) (conduct : Conduct τ) (extra : TaskId → Bool) (world : ω) :
    List (Mark τ) → Moment τ ω → Prop where
  | start : Play w conduct extra world [] (.start world)
  /-- Whoever acts changes the world. -/
  | change {h : List (Mark τ)} {m : Moment τ ω} (run : Play w conduct extra world h m)
      (f : ω → ω) (acting : m.phase.Acting) :
      Play w conduct extra world h { m with state := { m.state with world := f m.state.world } }
  | turn {h : List (Mark τ)} {m m' : Moment τ ω} {mark : Mark τ}
      (run : Play w conduct extra world h m) (turn : Turn w conduct extra h m mark m') :
      Play w conduct extra world (h ++ [mark]) m'

section Plays

variable {w : Workshop τ ω} {conduct : Conduct τ} {extra : TaskId → Bool} {world : ω}
  {h : List (Mark τ)} {m m' : Moment τ ω} {mark : Mark τ}

theorem Turn.step (turn : Turn w conduct extra h m mark m') : ∃ events, Step w m events m' := by
  cases turn with
  | call c acting idle follows => exact ⟨_, .call c acting⟩
  | tick st follows => exact ⟨_, .tick st⟩
  | fire due => exact ⟨_, .fire due⟩
  | finish done follows => exact ⟨_, .finish done⟩
  | rest drained returned => exact ⟨_, .rest drained returned⟩

theorem Play.course (run : Play w conduct extra world h m) :
    ∃ events, Course w (.start world) events m := by
  induction run with
  | start => exact ⟨[], .refl⟩
  | change _ f acting ih =>
    obtain ⟨events, course⟩ := ih
    exact ⟨_, course.snoc (.change f acting)⟩
  | turn _ turn ih =>
    obtain ⟨events, course⟩ := ih
    obtain ⟨more, step⟩ := turn.step
    exact ⟨_, course.snoc step⟩

theorem Play.sound (run : Play w conduct extra world h m) : m.Sound w [] := by
  obtain ⟨events, course⟩ := run.course
  exact (course.sound (Moment.sound_start w world)).forget

/-- A run with a trace was at one moment where the last mark of it was made; since then
    only the world changed. -/
theorem Play.last_turn (run : Play w conduct extra world (h ++ [mark]) m) :
    ∃ m₁ m₂, Play w conduct extra world h m₁ ∧ Turn w conduct extra h m₁ mark m₂ ∧
      m.scheduler = m₂.scheduler ∧ m.phase = m₂.phase := by
  generalize hk : h ++ [mark] = k at run
  induction run with
  | start => simp at hk
  | change _ f acting ih =>
    obtain ⟨m₁, m₂, run, turn, hscheduler, hphase⟩ := ih hk
    exact ⟨m₁, m₂, run, turn, hscheduler, hphase⟩
  | turn run turn _ =>
    obtain ⟨rfl, hmark⟩ := List.append_inj' hk rfl
    obtain rfl := List.singleton_inj.mp hmark
    exact ⟨_, _, run, turn, rfl, rfl⟩

theorem Play.of_nil (run : Play w conduct extra world [] m) :
    m.scheduler = {} ∧ m.phase = .between := by
  generalize hk : ([] : List (Mark τ)) = k at run
  induction run with
  | start => exact ⟨rfl, rfl⟩
  | change _ f acting ih => exact ih hk
  | turn _ _ _ => simp at hk

/-- A run passed a moment at every length of its trace without extra tasks, and at every
    length but the last one something was done then that is seen without them. -/
theorem Play.exists_turn (run : Play w conduct extra world h m) {n : Nat}
    (hn : n < (omitMarks extra h).length) :
    ∃ h₁ m₁ mark m₂, Play w conduct extra world h₁ m₁ ∧ Turn w conduct extra h₁ m₁ mark m₂ ∧
      mark.isExtra extra = false ∧
      omitMarks extra h₁ = (omitMarks extra h).take n ∧
      (omitMarks extra h)[n]? = some (mark.ranked extra) := by
  induction run with
  | start => simp [omitMarks] at hn
  | change _ f acting ih => exact ih hn
  | @turn h m m' mark run turn ih =>
    cases hmark : mark.isExtra extra with
    | true =>
      rw [omitMarks_snoc_extra hmark] at hn ⊢
      exact ih hn
    | false =>
      rw [omitMarks_snoc hmark] at hn ⊢
      rw [List.length_append, List.length_singleton] at hn
      rcases Nat.lt_or_eq_of_le (Nat.le_of_lt_succ hn) with hlt | rfl
      · obtain ⟨h₁, m₁, mark₁, m₂, run₁, turn₁, hmark₁, htrace, hnth⟩ := ih hlt
        refine ⟨h₁, m₁, mark₁, m₂, run₁, turn₁, hmark₁, ?_, ?_⟩
        · rw [htrace, List.take_append_of_le_length (Nat.le_of_lt hlt)]
        · rw [List.getElem?_append_left hlt, hnth]
      · refine ⟨h, m, mark, m', run, turn, hmark, ?_, ?_⟩
        · rw [List.take_left']
          rfl
        · simp

/-- A run only asks its conduct about traces that are shorter than its own. -/
theorem Play.congr {conduct' : Conduct τ} (run : Play w conduct extra world h m)
    (hsame : ∀ k, k.length < h.length → conduct' k = conduct k) :
    Play w conduct' extra world h m := by
  induction run with
  | start => exact .start
  | change _ f acting ih => exact (ih hsame).change f acting
  | @turn h m m' mark run turn ih =>
    have hshort : (omitMarks extra h).length < (h ++ [mark]).length := by
      have hle : (omitMarks extra h).length ≤ h.length := by
        simpa [omitMarks] using List.length_filter_le _ h
      simpa using Nat.lt_succ_of_le hle
    have hdeed := hsame _ hshort
    refine .turn (ih fun k hk => hsame k (by simpa using Nat.lt_succ_of_lt hk)) ?_
    cases turn with
    | call c acting idle follows => exact .call c acting idle fun own => hdeed.trans (follows own)
    | tick st follows => exact .tick st (hdeed.trans follows)
    | fire due => exact .fire due
    | finish done follows => exact .finish done fun own => hdeed.trans (follows own)
    | rest drained returned => exact .rest drained returned

/-- What a run does next is what some conduct wants. -/
theorem Play.exists_next {conduct : Conduct τ} (run : Play w conduct (fun _ => false) world h m)
    (deed : Deed τ)
    (turn : ∀ conduct' : Conduct τ, conduct' h = deed →
      Turn w conduct' (fun _ => false) h m mark m') :
    ∃ conduct', Play w conduct' (fun _ => false) world (h ++ [mark]) m' := by
  refine ⟨fun k => if k.length < h.length then conduct k else deed, .turn (run.congr ?_) ?_⟩
  · intro k hk
    rw [if_pos hk]
  · exact turn _ (if_neg (Nat.lt_irrefl _))

def Mark.event? : Mark τ → Option (Event τ)
  | seen event => some event
  | _ => none

def Event.isRequeued : Event τ → Bool
  | requeued _ _ _ => true
  | _ => false

/-- **Every run follows some conduct.**  Nothing is lost of its events, as the end of a firing
    tells whether a repeating task is queued again. -/
theorem Course.exists_play {events : List (Event τ)} (course : Course w (.start world) events m) :
    ∃ conduct h, Play w conduct (fun _ => false) world h m ∧
      h.filterMap Mark.event? = events.filter fun event => !event.isRequeued := by
  induction course with
  | refl => exact ⟨fun _ => .leave, [], .start, rfl⟩
  | @snoc events more m₁ m₂ _ step ih =>
    obtain ⟨conduct, h, run, hevents⟩ := ih
    cases step with
    | call c acting =>
      obtain ⟨conduct', run'⟩ := run.exists_next (.call c) fun _ hdeed =>
        .call c acting (fun _ _ => rfl) fun _ => by
          have hc : c.ranked (fun _ => false) = c := by cases c <;> simp [Call.ranked]
          rw [omitMarks_of_none, hc, hdeed]
      refine ⟨conduct', _, run', ?_⟩
      rw [List.filterMap_append, List.filter_append, hevents]
      cases c <;> rfl
    | change f acting =>
      refine ⟨conduct, h, run.change f acting, ?_⟩
      rw [List.append_nil, hevents]
    | tick st =>
      obtain ⟨conduct', run'⟩ := run.exists_next .leave fun _ hdeed =>
        .tick st (by rw [omitMarks_of_none, hdeed])
      refine ⟨conduct', _, run', ?_⟩
      rw [List.filterMap_append, List.filter_append, hevents]
      rfl
    | fire due =>
      refine ⟨conduct, _, run.turn (.fire due), ?_⟩
      rw [List.filterMap_append, List.filter_append, hevents]
      rfl
    | @finish st origin before e done =>
      obtain ⟨conduct', run'⟩ := run.exists_next .leave fun _ hdeed =>
        .finish done fun _ => by rw [omitMarks_of_none, hdeed]
      refine ⟨conduct', _, run', ?_⟩
      have hnone : (st.scheduler.requeueEvents e).filter (fun event => !event.isRequeued) = [] := by
        refine List.filter_eq_nil_iff.mpr fun event hmem => ?_
        obtain ⟨period, rfl⟩ := Scheduler.eq_of_mem_requeueEvents hmem
        simp [Event.isRequeued]
      rw [List.filterMap_append, List.filter_append, hevents, hnone]
      rfl
    | rest drained returned =>
      refine ⟨conduct, _, run.turn (.rest drained returned), ?_⟩
      rw [List.filterMap_append, List.append_nil, hevents]
      exact List.append_nil _

end Plays

/-! ### The simulation -/

section Simulation

variable {w : Workshop τ ω} {w' : Workshop τ ω'} {conduct : Conduct τ} {extra : TaskId → Bool}
  {world : ω} {world' : ω'} {h h' : List (Mark τ)} {m : Moment τ ω} {m' : Moment τ ω'}

/-- What goes on without the extra tasks: while one of them fires, a tick is on its way. -/
inductive Phase.Omits (extra : TaskId → Bool) : Phase τ ω → Phase τ ω' → Prop where
  | between : Omits extra .between .between
  | ticking {origin : Scheduled τ ω} {origin' : Scheduled τ ω'} :
      Omits extra (.ticking origin) (.ticking origin')
  | aside {origin : Scheduled τ ω} {origin' before' : Scheduled τ ω'} {e : QueueEntry τ}
      (he : extra e.id = true) : Omits extra (.ticking origin) (.firing origin' before' e)
  | firing {origin before : Scheduled τ ω} {origin' before' : Scheduled τ ω'} {e : QueueEntry τ}
      (he : extra e.id = false) :
      Omits extra (.firing origin before (e.ranked extra)) (.firing origin' before' e)

/-- A moment is one of a run with extra tasks, without them. -/
structure Moment.Omits (extra : TaskId → Bool) (m : Moment τ ω) (m' : Moment τ ω') : Prop where
  scheduler : m.scheduler.Omits extra m'.scheduler
  phase : m.phase.Omits extra m'.phase

theorem Phase.Omits.between_iff {p : Phase τ ω} {p' : Phase τ ω'} (hp : p.Omits extra p') :
    p = .between ↔ p' = .between := by
  cases hp <;> simp

theorem Phase.Omits.acting {p : Phase τ ω} {p' : Phase τ ω'} (hp : p.Omits extra p')
    (acting : p'.Acting) (idle : ∀ id, p'.caller? = some id → extra id = false) :
    p.Acting ∧ p.caller? = p'.caller?.map (rank extra) := by
  cases hp with
  | between => exact ⟨trivial, rfl⟩
  | ticking => exact acting.elim
  | aside he =>
    rw [idle _ rfl] at he
    cases he
  | firing he => exact ⟨trivial, rfl⟩

/-- The event of a call about a task that is not extra. -/
theorem Moment.Omits.event (hm : m.Omits extra m') (hs : m.scheduler.Sound)
    (hs' : m'.scheduler.Sound) {c : Call τ} (own : extra (c.about m'.scheduler) = false)
    (hcaller : m.phase.caller? = m'.phase.caller?.map (rank extra)) :
    m.event (c.ranked extra) = (m'.event c).ranked extra := by
  have hnow : m.now = m'.now := hm.scheduler.current
  have hnext : m.scheduler.nextId = rank extra m'.scheduler.nextId := hm.scheduler.nextId
  cases c with
  | schedule delay task =>
    show Event.scheduled m.now m.phase.caller? m.scheduler.nextId delay none task = _
    rw [hnow, hcaller, hnext]
    rfl
  | scheduleRepeating initial period task =>
    show Event.scheduled m.now m.phase.caller? m.scheduler.nextId initial (some period) task = _
    rw [hnow, hcaller, hnext]
    rfl
  | cancel id =>
    show Event.cancelled m.now m.phase.caller? (rank extra id)
      (m.scheduler.cancel (rank extra id)).1 = _
    have hid : extra id = false := own
    rw [hnow, hcaller, hm.scheduler.cancel_found hs hs' hid]
    rfl

/-- A call that is about no extra task is the same call without the extra tasks. -/
theorem Moment.Omits.perform (hm : m.Omits extra m') (hs : m.scheduler.Sound)
    (hs' : m'.scheduler.Sound) {c : Call τ} (own : extra (c.about m'.scheduler) = false) :
    (m.perform (c.ranked extra)).Omits extra (m'.perform c) := by
  refine ⟨?_, hm.phase⟩
  cases c with
  | schedule delay task => exact hm.scheduler.add delay none task hs' own
  | scheduleRepeating initial period task => exact hm.scheduler.add initial _ task hs' own
  | cancel id => exact hm.scheduler.cancel hs hs' own

theorem Moment.Omits.perform_extra (hm : m.Omits extra m') (hs' : m'.scheduler.Sound) {c : Call τ}
    (own : extra (c.about m'.scheduler) = true) : m.Omits extra (m'.perform c) := by
  refine ⟨?_, hm.phase⟩
  cases c with
  | schedule delay task => exact hm.scheduler.add_extra delay none task own
  | scheduleRepeating initial period task => exact hm.scheduler.add_extra initial _ task own
  | cancel id => exact hm.scheduler.cancel_extra hs' own

theorem Mark.isExtra_event (m' : Moment τ ω') (c : Call τ) :
    (Mark.seen (m'.event c)).isExtra extra = extra (c.about m'.scheduler) := by
  cases c <;> rfl

/-- The scheduler at the end of a tick is the one that was found drained. -/
theorem Moment.Sound.rest_eq {st origin : Scheduled τ ω}
    (hm : Moment.Sound w ([] : List (Event τ)) ⟨st, .ticking origin⟩) (drained : st.Drained)
    (returned : (origin.tick w).2.Drained) : (origin.tick w).2 = st := by
  obtain ⟨-, htrail⟩ := hm.phase
  exact htrail.tick_eq drained returned

/-- What is done about an extra task goes unseen without it. -/
theorem Turn.omits_extra {m₁ m₂ : Moment τ ω'} {mark : Mark τ} (hm : m.Omits extra m₁)
    (sound : m₁.Sound w' []) (turn : Turn w' conduct extra h' m₁ mark m₂)
    (hmark : mark.isExtra extra = true) : m.Omits extra m₂ := by
  cases turn with
  | call c acting idle follows =>
    rw [Mark.isExtra_event] at hmark
    exact hm.perform_extra sound.queue hmark
  | tick st follows => cases hmark
  | @fire st origin e due =>
    obtain ⟨hscheduler, hphase⟩ := hm
    obtain ⟨state, phase⟩ := m
    cases hphase
    exact ⟨hscheduler.start_extra due hmark, .aside hmark⟩
  | @finish st origin before e done follows =>
    obtain ⟨hscheduler, hphase⟩ := hm
    obtain ⟨state, phase⟩ := m
    have he : extra e.id = true := hmark
    cases hphase with
    | aside _ =>
      refine ⟨?_, .ticking⟩
      show state.scheduler.Omits extra (before.fire w' e).scheduler
      rw [Scheduled.fire_of_done done]
      exact hscheduler.finish_extra he
    | firing hown =>
      rw [he] at hown
      cases hown
  | rest drained returned => cases hmark

section Alike

/-! What is done about a task that is not extra is done in the run without extra tasks too:
    its conduct wants the same, and what is due is due.  There is a lemma for each kind of
    turn; what else the first run could do is against its conduct or not possible there. -/

variable {m₁ m₂ : Moment τ ω} {m₁' : Moment τ ω'} {mark : Mark τ}
  {st' origin' before' : Scheduled τ ω'} {e' : QueueEntry τ}

/-- A call that is not about extra tasks answers the same without them. -/
theorem Turn.omits_call (turn : Turn w conduct (fun _ => false) h m₁ mark m₂)
    (hm : m₁.Omits extra m₁') (sound : m₁.Sound w []) (sound' : m₁'.Sound w' []) {c : Call τ}
    (acting : m₁'.phase.Acting) (idle : ∀ id, m₁'.phase.caller? = some id → extra id = false)
    (own : extra (c.about m₁'.scheduler) = false)
    (wanted : conduct (omitMarks (fun _ => false) h) = .call (c.ranked extra)) :
    mark = (Mark.seen (m₁'.event c)).ranked extra ∧ m₂.Omits extra (m₁'.perform c) := by
  obtain ⟨hacting, hcaller⟩ := hm.phase.acting acting idle
  cases turn with
  | call d _ _ follows =>
    have hcall : d = c.ranked extra := by
      have hd : d.ranked (fun _ => false) = d := by cases d <;> simp [Call.ranked]
      rw [← hd]
      exact Deed.call.inj ((follows rfl).symm.trans wanted)
    subst hcall
    refine ⟨congrArg Mark.seen (hm.event sound.queue sound'.queue own hcaller), ?_⟩
    exact hm.perform sound.queue sound'.queue own
  | tick st follows => cases follows.symm.trans wanted
  | fire due => exact hacting.elim
  | finish done follows => cases (follows rfl).symm.trans wanted
  | rest drained returned => exact hacting.elim

/-- A tick that begins is the same tick without the extra tasks. -/
theorem Turn.omits_tick (turn : Turn w conduct (fun _ => false) h m₁ mark m₂)
    (hm : m₁.Omits extra ⟨st', .between⟩)
    (wanted : conduct (omitMarks (fun _ => false) h) = .leave) :
    mark = (Mark.seen (.ticked (st'.scheduler.current + 1))).ranked extra ∧
      m₂.Omits extra ⟨st'.begun, .ticking st'⟩ := by
  obtain ⟨hscheduler, hphase⟩ := hm
  cases turn with
  | call d acting idle follows => cases (follows rfl).symm.trans wanted
  | tick st follows =>
    have hcurrent : st.scheduler.current = st'.scheduler.current := hscheduler.current
    refine ⟨by rw [hcurrent]; rfl, ?_, .ticking⟩
    exact { hscheduler with
      current := congrArg (fun current => (current + 1) % tickSpan) hcurrent }
  | fire due => cases hphase
  | finish done follows => cases hphase
  | rest drained returned => cases hphase

/-- While a tick goes on and no task fires, nobody acts. -/
theorem Phase.Omits.not_acting {p : Phase τ ω}
    (hp : p.Omits extra (.ticking origin' : Phase τ ω')) : ¬ p.Acting := by
  cases hp
  exact id

/-- An entry that is not extra is the next to fire without the extra ones too. -/
theorem Turn.omits_fire (turn : Turn w conduct (fun _ => false) h m₁ mark m₂)
    (hm : m₁.Omits extra ⟨st', .ticking origin'⟩) (due' : st'.scheduler.nextDue? = some e')
    (own : extra e'.id = false) :
    mark = (Mark.seen (.fired st'.scheduler.current e')).ranked extra ∧
      m₂.Omits extra ⟨st'.started e', .firing origin' st' e'⟩ := by
  obtain ⟨hscheduler, hphase⟩ := hm
  have hdue := hscheduler.nextDue? due' own
  cases turn with
  | call d acting idle follows => exact absurd acting hphase.not_acting
  | tick st follows => cases hphase
  | @fire st origin e due =>
    have hcurrent : st.scheduler.current = st'.scheduler.current := hscheduler.current
    obtain rfl : e = e'.ranked extra := Option.some.inj (due.symm.trans hdue)
    refine ⟨by rw [hcurrent]; rfl, ?_, .firing own⟩
    exact hscheduler.start due' own
  | finish done follows => cases hphase
  | rest drained returned => cases drained.symm.trans hdue

/-- A task that is not extra is done without the extra ones too. -/
theorem Turn.omits_finish (turn : Turn w conduct (fun _ => false) h m₁ mark m₂)
    (hm : m₁.Omits extra ⟨st', .firing origin' before' e'⟩)
    (sound' : Moment.Sound w' ([] : List (Event τ)) ⟨st', .firing origin' before' e'⟩)
    (done' : st' = w'.run e'.id e'.task (before'.started e')) (own : extra e'.id = false)
    (wanted : conduct (omitMarks (fun _ => false) h) = .leave) :
    mark = (Mark.ended e'.id).ranked extra ∧
      m₂.Omits extra ⟨before'.fire w' e', .ticking origin'⟩ := by
  obtain ⟨hscheduler, hphase⟩ := hm
  have hfiring : ∀ origin : Scheduled τ ω,
      ¬ (Phase.ticking origin).Omits extra (.firing origin' before' e' : Phase τ ω') := by
    intro origin hticking
    cases hticking with
    | aside hextra =>
      rw [own] at hextra
      cases hextra
  cases turn with
  | call d acting idle follows => cases (follows rfl).symm.trans wanted
  | tick st follows => cases hphase
  | fire due => exact absurd hphase (hfiring _)
  | @finish st origin before e done follows =>
    cases hphase with
    | firing _ =>
      refine ⟨rfl, ?_, .ticking⟩
      show (before.fire w (e'.ranked extra)).scheduler.Omits extra (before'.fire w' e').scheduler
      rw [Scheduled.fire_of_done done, Scheduled.fire_of_done done']
      exact hscheduler.finish sound'.queue own
  | rest drained returned => exact absurd hphase (hfiring _)

/-- A tick that is over with the extra tasks is over without them. -/
theorem Turn.omits_rest (turn : Turn w conduct (fun _ => false) h m₁ mark m₂)
    (hm : m₁.Omits extra ⟨st', .ticking origin'⟩) (sound : m₁.Sound w [])
    (sound' : Moment.Sound w' ([] : List (Event τ)) ⟨st', .ticking origin'⟩)
    (drained' : st'.Drained) (returned' : (origin'.tick w').2.Drained) :
    mark = (Mark.returned : Mark τ).ranked extra ∧
      m₂.Omits extra ⟨(origin'.tick w').2, .between⟩ := by
  obtain ⟨hscheduler, hphase⟩ := hm
  have hdrained := hscheduler.nextDue?_eq_none sound'.queue drained'
  cases turn with
  | call d acting idle follows => exact absurd acting hphase.not_acting
  | tick st follows => cases hphase
  | fire due => cases due.symm.trans hdrained
  | finish done follows => cases hphase
  | rest drained returned =>
    refine ⟨rfl, ?_, .between⟩
    show Scheduler.Omits extra (Scheduled.tick w _).2.scheduler (origin'.tick w').2.scheduler
    rw [sound.rest_eq drained returned, sound'.rest_eq drained' returned']
    exact hscheduler

/-- **One turn.**  Without the extra tasks the same happens, up to the numbers of the tasks. -/
theorem Turn.omits {m₂' : Moment τ ω'} {mark' : Mark τ} (hm : m₁.Omits extra m₁')
    (sound : m₁.Sound w []) (sound' : m₁'.Sound w' [])
    (turn : Turn w conduct (fun _ => false) h m₁ mark m₂)
    (turn' : Turn w' conduct extra h' m₁' mark' m₂') (hsame : h = omitMarks extra h')
    (hmark : mark'.isExtra extra = false) :
    mark = mark'.ranked extra ∧ m₂.Omits extra m₂' := by
  have hconduct : conduct (omitMarks (fun _ => false) h) = conduct (omitMarks extra h') := by
    rw [omitMarks_of_none, hsame]
  cases turn' with
  | call c acting idle follows =>
    rw [Mark.isExtra_event] at hmark
    exact turn.omits_call hm sound sound' acting idle hmark (hconduct.trans (follows hmark))
  | tick st' follows => exact turn.omits_tick hm (hconduct.trans follows)
  | fire due' => exact turn.omits_fire hm due' hmark
  | finish done' follows =>
    exact turn.omits_finish hm sound' done' hmark (hconduct.trans (follows hmark))
  | rest drained' returned' => exact turn.omits_rest hm sound sound' drained' returned'

end Alike

/-- **Two runs that follow one conduct agree**, the second one without its extra tasks, as soon
    as their traces are of one length. -/
theorem Play.agree (run : Play w conduct (fun _ => false) world h m)
    (more : Play w' conduct extra world' h' m') (hlength : h.length = (omitMarks extra h').length) :
    h = omitMarks extra h' ∧ m.Omits extra m' := by
  induction more generalizing h m with
  | start =>
    obtain rfl : h = [] := List.length_eq_zero_iff.mp hlength
    obtain ⟨hscheduler, hphase⟩ := run.of_nil
    refine ⟨rfl, ?_, ?_⟩
    · rw [hscheduler]
      exact Scheduler.omits_empty
    · rw [hphase]
      exact .between
  | change _ f acting ih =>
    obtain ⟨hsame, hscheduler, hphase⟩ := ih run hlength
    exact ⟨hsame, hscheduler, hphase⟩
  | @turn k m₁' m₂' mark' more turn' ih =>
    cases hmark : mark'.isExtra extra with
    | true =>
      rw [omitMarks_snoc_extra hmark] at hlength ⊢
      obtain ⟨hsame, hm⟩ := ih run hlength
      exact ⟨hsame, turn'.omits_extra hm more.sound hmark⟩
    | false =>
      rw [omitMarks_snoc hmark] at hlength ⊢
      rw [List.length_append, List.length_singleton] at hlength
      -- the first run is taken back by one mark
      obtain ⟨h₁, mark, rfl⟩ : ∃ h₁ mark, h = h₁ ++ [mark] := by
        have hne : h ≠ [] := by
          rintro rfl
          simp at hlength
        exact ⟨_, _, (List.dropLast_append_getLast hne).symm⟩
      obtain ⟨m₁, m₂, run₁, turn, hscheduler, hphase⟩ := run.last_turn
      rw [List.length_append, List.length_singleton, Nat.add_right_cancel_iff] at hlength
      obtain ⟨hsame, hm⟩ := ih run₁ hlength
      obtain ⟨hmarks, hm₂⟩ := Turn.omits hm run₁.sound more.sound turn turn' hsame hmark
      refine ⟨by rw [hsame, hmarks], ?_, ?_⟩
      · rw [hscheduler]
        exact hm₂.scheduler
      · rw [hphase]
        exact hm₂.phase

/-- What is done between two ticks is done by the user. -/
theorem Turn.byUser_of_between {m₁ m₂ : Moment τ ω} {mark : Mark τ}
    (turn : Turn w conduct extra h m₁ mark m₂) (idle : m₁.phase = .between) :
    mark.byUser = true := by
  cases turn with
  | call c acting _ _ =>
    have hcaller : m₁.phase.caller? = none := by rw [idle]; rfl
    cases c <;> simp [Moment.event, Mark.byUser, hcaller]
  | tick st follows => rfl
  | fire due => cases idle
  | finish done follows => cases idle
  | rest drained returned => cases idle

theorem Mark.byUser_ranked (mark : Mark τ) : (mark.ranked extra).byUser = mark.byUser := by
  cases mark with
  | seen event => cases event <;> simp [ranked, Event.ranked, byUser]
  | ended id => rfl
  | returned => rfl

theorem countP_take_lt {p : Mark τ → Bool} {k : List (Mark τ)} {n : Nat} {mark : Mark τ}
    (hnth : k[n]? = some mark) (hmark : p mark = true) : (k.take n).countP p < k.countP p := by
  obtain ⟨hn, rfl⟩ := List.getElem?_eq_some_iff.mp hnth
  have hk : k.countP p = (k.take n).countP p + (k.drop n).countP p := by
    rw [← List.countP_append, List.take_append_drop]
  rw [List.drop_eq_getElem_cons hn, List.countP_cons_of_pos hmark] at hk
  omega

/-- A trace that is the longer one tells of something that was done at the end of the other. -/
theorem Play.longer (run : Play w conduct (fun _ => false) world h m)
    (more : Play w' conduct extra world' h' m') (hlt : h.length < (omitMarks extra h').length) :
    h <+: omitMarks extra h' ∧
      (m.phase = .between → h.countP Mark.byUser < (omitMarks extra h').countP Mark.byUser) := by
  obtain ⟨h₁, m₁, mark, m₂, more₁, turn, -, htrace, hnth⟩ := more.exists_turn hlt
  have hlength : h.length = (omitMarks extra h₁).length := by
    rw [htrace, List.length_take, Nat.min_eq_left (Nat.le_of_lt hlt)]
  obtain ⟨hsame, hm⟩ := run.agree more₁ hlength
  rw [← hsame] at htrace
  refine ⟨htrace ▸ List.take_prefix _ _, fun idle => ?_⟩
  have hmark : (mark.ranked extra).byUser = true := by
    rw [Mark.byUser_ranked, turn.byUser_of_between (hm.phase.between_iff.mp idle)]
  have hcount := countP_take_lt hnth hmark
  rwa [← htrace] at hcount

/-- The run with extra tasks goes on at least as long as the run without them. -/
theorem Play.shorter (run : Play w conduct (fun _ => false) world h m)
    (more : Play w' conduct extra world' h' m') (hlt : (omitMarks extra h').length < h.length) :
    omitMarks extra h' <+: h ∧
      (m'.phase = .between → (omitMarks extra h').countP Mark.byUser < h.countP Mark.byUser) := by
  have hn : (omitMarks extra h').length < (omitMarks (fun _ => false) h).length := by
    rwa [omitMarks_of_none]
  obtain ⟨h₁, m₁, mark, m₂, run₁, turn, -, htrace, hnth⟩ := run.exists_turn hn
  rw [omitMarks_of_none, omitMarks_of_none] at htrace
  rw [omitMarks_of_none] at hnth
  have hlength : h₁.length = (omitMarks extra h').length := by
    rw [htrace, List.length_take, Nat.min_eq_left (Nat.le_of_lt hlt)]
  obtain ⟨hsame, hm⟩ := run₁.agree more hlength
  rw [hsame] at htrace
  refine ⟨htrace ▸ List.take_prefix _ _, fun idle => ?_⟩
  have hmark : (mark.ranked fun _ => false).byUser = true := by
    rw [Mark.byUser_ranked, turn.byUser_of_between (hm.phase.between_iff.mpr idle)]
  have hcount := countP_take_lt hnth hmark
  rwa [← htrace] at hcount

/-- **Unrelated tasks do not disturb each other.**  Of two runs that follow one conduct, the
    first without extra tasks and the second with any, the traces without the extra tasks
    are the same as far as both go: the same tasks fire at the same ticks in the same order,
    and every call has the same answer.  Between ticks, once the user has done as much in
    one run as in the other, none of them goes further. -/
theorem Play.unrelated_tasks_undisturbed (run : Play w conduct (fun _ => false) world h m)
    (more : Play w' conduct extra world' h' m') :
    (h <+: omitMarks extra h' ∨ omitMarks extra h' <+: h) ∧
      (m.phase = .between → m'.phase = .between →
        h.countP Mark.byUser = (omitMarks extra h').countP Mark.byUser →
          omitMarks extra h' = h) := by
  rcases Nat.lt_trichotomy h.length (omitMarks extra h').length with hlt | heq | hgt
  · obtain ⟨hstart, hfewer⟩ := run.longer more hlt
    refine ⟨Or.inl hstart, fun idle _ hcount => ?_⟩
    exact absurd hcount (Nat.ne_of_lt (hfewer idle))
  · obtain ⟨hsame, -⟩ := run.agree more heq
    rw [hsame]
    exact ⟨Or.inl List.prefix_rfl, fun _ _ _ => rfl⟩
  · obtain ⟨hstart, hfewer⟩ := run.shorter more hgt
    refine ⟨Or.inr hstart, fun _ idle hcount => ?_⟩
    exact absurd hcount.symm (Nat.ne_of_lt (hfewer idle))

end Simulation

/-- In the workshop of echoes: the user schedules a loud task, calls a tick, and cancels the
    loud task, which in the meantime fired and scheduled a quiet one. -/
def echoed : Conduct Bool := fun h =>
  match h.length with
  | 0 => .call (.scheduleRepeating 0 2 true)
  | 3 => .call (.schedule 0 false)
  | 8 => .call (.cancel 0)
  | _ => .leave

theorem play_echoed :
    ∃ h m, Play echoing echoed (fun _ => false) () h m ∧ m.phase = .between ∧ h.length = 9 ∧
      h.countP Mark.byUser = 3 ∧ .seen (.cancelled 1 none 0 true) ∈ h := by
  have called : Play echoing echoed (fun _ => false) () _ _ :=
    Play.start.turn (.call (.scheduleRepeating 0 2 true) trivial (fun _ _ => rfl) fun _ => rfl)
  have fired : Play echoing echoed (fun _ => false) () _ _ :=
    (called.turn (.tick _ rfl)).turn (.fire rfl)
  have finished : Play echoing echoed (fun _ => false) () _ _ :=
    (fired.turn (.call (.schedule 0 false) trivial (fun _ _ => rfl) fun _ => rfl)).turn
      (.finish rfl fun _ => rfl)
  have rested : Play echoing echoed (fun _ => false) () _ _ :=
    ((finished.turn (.fire rfl)).turn (.finish rfl fun _ => rfl)).turn (.rest rfl rfl)
  refine ⟨_, _, rested.turn (.call (.cancel 0) trivial (fun _ _ => rfl) fun _ => rfl), rfl, rfl,
    rfl, ?_⟩
  exact List.mem_append_right _ (List.mem_singleton.mpr rfl)

/-- A quiet task is scheduled first of all, fires at every tick, and is cancelled at the end:
    it fires between the loud task and its echo, and both have other numbers. -/
theorem play_echoed_more :
    ∃ h m, Play echoing echoed (· == 0) () h m ∧ m.phase = .between ∧ h.length = 13 ∧
      (omitMarks (· == 0) h).countP Mark.byUser = 3 ∧
      .seen (.cancelled 1 none 1 true) ∈ h := by
  have called : Play echoing echoed (· == 0) () _ _ :=
    (Play.start.turn (.call (.scheduleRepeating 1 1 false) trivial nofun fun own =>
      Bool.noConfusion own)).turn
        (.call (.scheduleRepeating 0 2 true) trivial nofun fun _ => rfl)
  have fired : Play echoing echoed (· == 0) () _ _ :=
    (called.turn (.tick _ rfl)).turn (.fire rfl)
  have finished : Play echoing echoed (· == 0) () _ _ :=
    (fired.turn (.call (.schedule 0 false) trivial (by rintro _ ⟨⟩; rfl) fun _ => rfl)).turn
      (.finish rfl fun _ => rfl)
  have aside : Play echoing echoed (· == 0) () _ _ :=
    (finished.turn (.fire rfl)).turn (.finish rfl nofun)
  have rested : Play echoing echoed (· == 0) () _ _ :=
    ((aside.turn (.fire rfl)).turn (.finish rfl fun _ => rfl)).turn (.rest rfl rfl)
  have cancelled : Play echoing echoed (· == 0) () _ _ :=
    rested.turn (.call (.cancel 1) trivial nofun fun _ => rfl)
  refine ⟨_, _, cancelled.turn (.call (.cancel 0) trivial nofun fun own => ?_), rfl, rfl, rfl, ?_⟩
  · cases own
  · exact List.mem_append_left _ (List.mem_append_right _ (List.mem_singleton.mpr rfl))

/-- The run with the quiet task, without it, is the run without it. -/
theorem undisturbed_echoed :
    ∃ h m h' m', Play echoing echoed (fun _ => false) () h m ∧
      Play echoing echoed (· == 0) () h' m' ∧ h.length = 9 ∧ h'.length = 13 ∧
      omitMarks (· == 0) h' = h := by
  obtain ⟨h, m, run, idle, hlength, hcount, -⟩ := play_echoed
  obtain ⟨h', m', more, idle', hlength', hcount', -⟩ := play_echoed_more
  refine ⟨h, m, h', m', run, more, hlength, hlength', ?_⟩
  exact (Play.unrelated_tasks_undisturbed run more).2 idle idle' (hcount.trans hcount'.symm)

end RuleEngine
