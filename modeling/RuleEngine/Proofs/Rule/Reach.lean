/-
  RuleEngine/Proofs/Rule/Reach.lean
  =================================
  **Compiled rules stay on the tick counter.**

  The tick counter has 64 bits, and the counts in a delay or a timer are read as signed
  numbers of 64 bits, from an integer, a float or a text, so whatever a count is written as,
  it is in the lower half of the counter.  A run in which only compiled delays and timers
  schedule tasks (`Event.FromRules`) therefore computes no number past the end of the counter
  as long as the current tick is in the lower half, too.

  Such are the runs of an engine that is used with compiled rules: what triggers, events and
  ticks do to the scheduler comes from the delays and timers in the rules that they run
  (`Use.rulesLead_runAll`).
-/
import RuleEngine.Proofs.Rule.Contexts
import RuleEngine.Proofs.Rule.Deferring
import RuleEngine.Proofs.Scheduler.Reach

namespace RuleEngine

open Run

/-! ### Calls of compiled rules -/

/-- A call is one that a compiled delay or timer makes, or it cancels a task. -/
def Call.FromRules (c : Call Work) : Prop := ∃ bodies, (∀ b ∈ bodies, b.Compiled) ∧ c.From bodies

def Event.FromRules (event : Event Work) : Prop := ∀ c, event.call? = some c → c.FromRules

/-- The tick counts of a compiled delay or timer are in range, however they are written. -/
theorem ActionBody.Compiled.inRange {body : ActionBody} (h : body.Compiled) : body.InRange := by
  have hall := h.deferrals
  cases body with
  | delay delay mode actions =>
    rw [ActionBody.deferrals] at hall
    exact (hall _ List.mem_cons_self).1
  | timer delay period duration mode actions =>
    rw [ActionBody.deferrals] at hall
    exact (hall _ List.mem_cons_self).1
  | _ => trivial

theorem allCompiled_of_forall {bodies : List ActionBody} (h : ∀ b ∈ bodies, b.Compiled) :
    AllCompiled bodies := fun b hb => ⟨(h b hb).inRange, h b hb⟩

/-- What compiled rules ask for is in the lower half of the counter. -/
theorem Call.FromRules.below {c : Call Work} (h : c.FromRules) : c.Below (2 ^ 63) := by
  obtain ⟨bodies, compiled, hfrom⟩ := h
  cases hfrom with
  | continuation within => exact (compiled _ within).inRange
  | firing within =>
    obtain ⟨hlead, hpositive, hperiod, -⟩ := (compiled _ within).inRange
    refine ⟨hlead, ?_⟩
    rwa [Nat.max_eq_left hpositive]
  | canceller within =>
    obtain ⟨-, -, -, hduration⟩ := (compiled _ within).inRange
    exact hduration
  | cancel => trivial

theorem AllCompiled.fromRules {bodies : List ActionBody} (h : AllCompiled bodies) {c : Call Work}
    (hc : c.From bodies) : c.FromRules :=
  ⟨bodies, fun b hb => (h b hb).2, hc⟩

theorem Moment.exists_of_mem_events {calls : List (Call Work)} {m : Moment Work World}
    {event : Event Work} (h : event ∈ m.events calls) :
    ∃ c ∈ calls, event.call? = some c := by
  induction calls generalizing m with
  | nil => cases h
  | cons c rest ih =>
    rcases List.mem_cons.mp h with rfl | h
    · exact ⟨c, List.mem_cons_self, m.call?_event c⟩
    · obtain ⟨c', hc', hcall⟩ := ih h
      exact ⟨c', List.mem_cons_of_mem c hc', hcall⟩

/-! ### Engines that are used with compiled rules -/

/-- If an event is a tick, it is in the lower half of the counter. -/
def Event.Early (event : Event Work) : Prop := ∀ now, event = .ticked now → now < 2 ^ 63

/-- There is a run from one moment to another whose calls come from compiled rules, and whose
    ticks are in the lower half of the counter. -/
def RulesLead (m m' : Moment Work World) : Prop :=
  ∃ h, Course workshop m h m' ∧ ∀ event ∈ h, event.FromRules ∧ event.Early

/-- Two stretches that compiled rules lead through are one. -/
theorem RulesLead.trans {m m' m'' : Moment Work World} (first : RulesLead m m')
    (second : RulesLead m' m'') : RulesLead m m'' := by
  obtain ⟨h, run, hrules⟩ := first
  obtain ⟨k, run', hrules'⟩ := second
  refine ⟨h ++ k, run.trans run', fun event hev => ?_⟩
  exact (List.mem_append.mp hev).elim (hrules event) (hrules' event)

/-- A step that makes no call, and is no tick. -/
theorem Step.rulesLead {m m' : Moment Work World} {events : List (Event Work)}
    (step : Step workshop m events m')
    (silent : ∀ event ∈ events, event.call? = none ∧ ∀ now, event ≠ .ticked now) :
    RulesLead m m' := by
  refine ⟨events, step.run, fun event hev => ⟨fun c hc => ?_, fun now hnow => ?_⟩⟩
  · rw [(silent event hev).1] at hc
    cases hc
  · exact absurd hnow ((silent event hev).2 now)

section Engine

variable {st : EngineState}

/-- What a step asks for leads on, from whatever moment somebody acts at, and leaves tasks of
    compiled rules only. -/
theorem Run.Asks.rulesLead {α : Type} {bodies : List ActionBody} {n : Nat} {x : Run α}
    (hx : Asks bodies n x) (compiled : AllCompiled bodies) (phase : Phase Work World)
    (acting : phase.Acting) (rules : st.scheduler.Holds Work.FromRules) {st' : EngineState}
    (hst : st'.scheduler = (x.after st).scheduler) :
    RulesLead ⟨st, phase⟩ ⟨st', phase⟩ ∧ st'.scheduler.Holds Work.FromRules ∧
      st'.scheduler.current = st.scheduler.current := by
  obtain ⟨calls, hcalls, -, hfrom⟩ := hx st
  rw [hcalls] at hst
  have run : Course workshop ⟨st, phase⟩ _ _ :=
    Course.performAll (m := ⟨st, phase⟩) acting calls hst
  refine ⟨⟨_, run, fun event hev => ?_⟩, ?_, ?_⟩
  · obtain ⟨c, hc, hcall⟩ := Moment.exists_of_mem_events hev
    refine ⟨fun c' hc' => ?_, fun now hnow => ?_⟩
    · obtain rfl := Option.some.inj (hcall.symm.trans hc')
      exact compiled.fromRules (hfrom _ hc)
    · rw [hnow] at hcall
      cases hcall
  · rw [hst]
    exact rules.performAll fun c hc => (hfrom c hc).holds compiled
  · rw [hst, Scheduler.performAll_current]

/-- Firing one entry keeps all that is queued as rules have scheduled it. -/
theorem rulesLead_fire (origin : EngineState) {e : QueueEntry Work}
    (rules : st.scheduler.Holds Work.FromRules) (hnext : st.scheduler.nextDue? = some e) :
    RulesLead ⟨st, .ticking origin⟩ ⟨st.fire workshop e, .ticking origin⟩ ∧
      (st.fire workshop e).scheduler.Holds Work.FromRules ∧
      (st.fire workshop e).scheduler.current = st.scheduler.current := by
  have htask := rules e (Scheduler.mem_of_nextDue? hnext)
  have hstarted : (st.started e).scheduler.Holds Work.FromRules := rules.start e
  obtain ⟨acts, hdone, hcurrent⟩ := e.task.run_asks.rulesLead htask.deferrals
    (.firing origin st e) trivial hstarted (e.task.perform_scheduler e.id (st.started e))
  have first : RulesLead ⟨st, .ticking origin⟩ ⟨st.started e, .firing origin st e⟩ := by
    refine (Step.fire hnext).rulesLead fun event hev => ?_
    obtain rfl := List.mem_singleton.mp hev
    exact ⟨rfl, nofun⟩
  have last : RulesLead ⟨e.task.perform e.id (st.started e), .firing origin st e⟩
      ⟨st.fire workshop e, .ticking origin⟩ := by
    refine (Step.finish rfl).rulesLead fun event hev => ?_
    obtain ⟨period, -, rfl⟩ := Scheduler.of_mem_requeueEvents hev
    exact ⟨rfl, nofun⟩
  have hfire : (st.fire workshop e).scheduler =
      (e.task.perform e.id (st.started e)).scheduler.finish e := rfl
  refine ⟨(first.trans acts).trans last, ?_, ?_⟩
  · rw [hfire]
    exact hdone.finish htask
  · rw [hfire, Scheduler.finish_current, hcurrent]
    rfl

/-- Firing all that is due keeps all that is queued as rules have scheduled it. -/
theorem rulesLead_fireDue (origin : EngineState) (fuel : Nat)
    (rules : st.scheduler.Holds Work.FromRules) :
    RulesLead ⟨st, .ticking origin⟩ ⟨(st.fireDue workshop fuel).2, .ticking origin⟩ ∧
      (st.fireDue workshop fuel).2.scheduler.Holds Work.FromRules ∧
      (st.fireDue workshop fuel).2.scheduler.current = st.scheduler.current := by
  induction fuel generalizing st with
  | zero => exact ⟨⟨[], .refl, nofun⟩, rules, rfl⟩
  | succ fuel ih =>
    cases hnext : st.scheduler.nextDue? with
    | none =>
      rw [Scheduled.fireDue_of_drained workshop hnext]
      exact ⟨⟨[], .refl, nofun⟩, rules, rfl⟩
    | some e =>
      obtain ⟨first, hfired, hcurrent⟩ := rulesLead_fire origin rules hnext
      obtain ⟨rest, hrules, hrest⟩ := ih hfired
      rw [Scheduled.fireDue_of_nextDue? workshop hnext]
      exact ⟨first.trans rest, hrules, hrest.trans hcurrent⟩

/-- A tick in the lower half of the counter returns, and it is a run of compiled rules. -/
theorem rulesLead_tick (rules : st.scheduler.Holds Work.FromRules)
    (early : st.scheduler.current + 1 < 2 ^ 63) :
    RulesLead ⟨st, .between⟩ ⟨(st.tick workshop).2, .between⟩ ∧
      (st.tick workshop).2.scheduler.Holds Work.FromRules ∧
      (st.tick workshop).2.scheduler.current = st.scheduler.current + 1 := by
  have hnow : st.begun.scheduler.current = st.scheduler.current + 1 :=
    Nat.mod_eq_of_lt (Nat.lt_trans early (by decide))
  have hlater : ∀ period task, Work.FromRules (some period) task ∧
      Work.Fits (st.scheduler.current + 1) (some period) task →
      st.begun.scheduler.current < (st.begun.scheduler.current + period) % tickSpan := by
    rintro period task ⟨hrules, hfits⟩
    rw [hnow, Nat.mod_eq_of_lt (hfits.own period rfl)]
    exact Nat.lt_add_of_pos_right hrules.period.1
  have hqueue : st.scheduler.Holds fun period? task => Work.FromRules period? task ∧
      Work.Fits (st.scheduler.current + 1) period? task := fun e he =>
    ⟨rules e he, (rules e he).fits (Nat.le_of_lt early)⟩
  obtain ⟨returned, -⟩ := Scheduled.tick_ends (workshop_thrifty _) hqueue hlater
  have begun : RulesLead ⟨st, .between⟩ ⟨st.begun, .ticking st⟩ := by
    refine ⟨_, (Step.tick st).run, fun event hev => ?_⟩
    obtain rfl := List.mem_singleton.mp hev
    refine ⟨nofun, ?_⟩
    rintro now ⟨⟩
    exact early
  have hbegun : st.begun.scheduler.Holds Work.FromRules := rules
  obtain ⟨fired, hrules, hcurrent⟩ :=
    rulesLead_fireDue st (Scheduled.load workshop st.begun.scheduler) hbegun
  rw [← Scheduled.tick_eq_fireDue] at fired hrules hcurrent
  have rest : RulesLead ⟨(st.tick workshop).2, .ticking st⟩ ⟨(st.tick workshop).2, .between⟩ :=
    (Step.rest returned returned).rulesLead nofun
  exact ⟨(begun.trans fired).trans rest, hrules, hcurrent.trans hnow⟩

end Engine

/-! ### Uses of an engine -/

def Use.deferrals : Use → List ActionBody
  | trigger _ actions => actionsDeferrals actions
  | fire book event _ =>
    match book.rules? event with
    | none => []
    | some rules => requirementsDeferrals rules.conditions ++ actionsDeferrals rules.actions
  | tick => []

def Use.isTick : Use → Bool
  | tick => true
  | _ => false

theorem guarded_scheduler {α : Type} (what : String) (fallback : α) (x : Run α)
    (st : EngineState) : (guarded what fallback x st).2.scheduler = (x.after st).scheduler := by
  unfold guarded Run.after
  cases x st <;> rfl

theorem EventRules.script_asks (rules : EventRules) (c : ContextId) :
    Asks (requirementsDeferrals rules.conditions ++ actionsDeferrals rules.actions)
      (requirementsWeight rules.conditions + actionsWeight rules.actions)
      (rules.script.run c) := by
  unfold EventRules.script
  simp only [Script.run_bind, requirementsScript_run, Script.run_ite, actionsScript_run,
    Script.run_pure]
  refine (allMet_asks c true rules.conditions).bind fun met => ?_
  cases met with
  | true => exact (triggerAll_asks c rules.actions).bind_quiet fun _ => Run.quiet_pure _
  | false => exact asks_pure _

section Uses

variable {st : EngineState}

/-- Whatever an engine is used for with compiled rules, they lead from before to after. -/
theorem Use.rulesLead {use : Use} (compiled : ∀ b ∈ use.deferrals, b.Compiled)
    (rules : st.scheduler.Holds Work.FromRules)
    (early : use.isTick → st.scheduler.current + 1 < 2 ^ 63) :
    RulesLead ⟨st, .between⟩ ⟨use.run st, .between⟩ ∧
      (use.run st).scheduler.Holds Work.FromRules ∧
      (use.run st).scheduler.current = st.scheduler.current + (if use.isTick then 1 else 0) := by
  cases use with
  | trigger c actions =>
    exact (triggerAll_asks c actions).rulesLead (allCompiled_of_forall compiled)
      .between trivial rules (guarded_scheduler "trigger" () _ st)
  | fire book event c =>
    rw [Use.deferrals] at compiled
    cases hrules : book.rules? event with
    | none =>
      have hstep : (Use.run (.fire book event c) st).scheduler = st.scheduler := by
        rw [Use.run, RuleBook.fire_of_unknown hrules]
        rfl
      have hnone : Asks [] 0 (pure () : Run Unit) := asks_pure ()
      exact hnone.rulesLead allCompiled_nil .between trivial rules hstep
    | some eventRules =>
      rw [hrules] at compiled
      have hstep : (Use.run (.fire book event c) st).scheduler =
          ((eventRules.script.run c).after st).scheduler := by
        rw [Use.run, RuleBook.fire_eq_guarded hrules]
        exact guarded_scheduler event false _ st
      exact (eventRules.script_asks c).rulesLead (allCompiled_of_forall compiled)
        .between trivial rules hstep
  | tick => exact rulesLead_tick rules (early rfl)

/-- **An engine that is used with compiled rules** for fewer ticks than half of the counter has
    is on a run whose calls come from compiled rules. -/
theorem Use.rulesLead_runAll {uses : List Use}
    (compiled : ∀ use ∈ uses, ∀ b ∈ use.deferrals, b.Compiled)
    (rules : st.scheduler.Holds Work.FromRules)
    (early : st.scheduler.current + uses.countP Use.isTick < 2 ^ 63) :
    RulesLead ⟨st, .between⟩ ⟨Use.runAll uses st, .between⟩ := by
  induction uses generalizing st with
  | nil => exact ⟨[], .refl, nofun⟩
  | cons use rest ih =>
    obtain ⟨hfirst, hrest⟩ := List.forall_mem_cons.mp compiled
    rw [List.countP_cons] at early
    have hearly : use.isTick → st.scheduler.current + 1 < 2 ^ 63 := by
      intro htick
      rw [if_pos htick] at early
      omega
    obtain ⟨first, hrules, hcurrent⟩ := Use.rulesLead hfirst rules hearly
    refine first.trans (ih hrest hrules ?_)
    rw [hcurrent]
    omega

end Uses

/-! ### The counter -/

/-- **Compiled rules stay on the tick counter.**  In every run in which only compiled delays and
    timers schedule tasks and the current tick is in the lower half of the counter, no number
    that is computed passes its end, and no task is due further ahead than the greatest count
    that can be read; the number of the next task is how many were scheduled.  An engine that is
    used with compiled rules, for fewer ticks than half of the counter has, is on such a run. -/
theorem rules_stay_on_counter (world : World) :
    (∀ h m, Course workshop (.start world) h m →
      (∀ event ∈ h, event.FromRules ∧ event.Early) →
        Fits h ∧ (∀ e ∈ m.scheduler.queue, e.due ≤ m.now + (2 ^ 63 - 1)) ∧
          m.scheduler.nextId = h.countP Event.isScheduled) ∧
    ∀ uses : List Use, (∀ use ∈ uses, ∀ b ∈ use.deferrals, b.Compiled) →
      uses.countP Use.isTick < 2 ^ 63 →
        ∃ h, Course workshop (.start world) h ⟨Use.runAll uses { world }, .between⟩ ∧
          ∀ event ∈ h, event.FromRules ∧ event.Early := by
  refine ⟨fun h m run rules => ?_, fun uses compiled early => ?_⟩
  · have below : ∀ event ∈ h, event.Below (2 ^ 63) := fun event hev =>
      ⟨fun c hc => ((rules event hev).1 c hc).below, (rules event hev).2⟩
    obtain ⟨hm, hfits⟩ := run.within (by decide) (by decide) below
    refine ⟨hfits, fun e he => ?_, run.nextId_eq⟩
    have hlt := hm.due e he
    omega
  · have hnone : ({ world } : EngineState).scheduler.Holds Work.FromRules := nofun
    exact Use.rulesLead_runAll compiled hnone ((Nat.zero_add _).symm ▸ early)

/-- A timer with the greatest counts that can be read, one of them written as a text, the other
    as a float that is greater. -/
def longestNode : Node :=
  .typed "timer" (.map [("period", .scalar (.str "9223372036854775807")),
    ("duration", .scalar (.float 1e19)), ("actions", .list [])])

def longest : Action := .mk "timer" (.constant 1) (.timer 0 (2 ^ 63 - 1) (2 ^ 63 - 1) .sync [])

theorem longest_compiled : (ActionBody.timer 0 (2 ^ 63 - 1) (2 ^ 63 - 1) .sync []).Compiled := by
  refine ⟨({} : Registry).registerBuiltins.2.2, longestNode, {}, ?_⟩
  have hmade : longestNode.MadeBy ({} : Registry).registerBuiltins.2.2 (.action .timer) :=
    Node.typed_madeBy _ rfl
  have hactions : compileActions ({} : Registry).registerBuiltins.2.2
      ((longestNode.valueOf "value").valueOf "actions") = pure [] := by
    rw [compileActions_eq (.inl (by decide))]
    exact compileActionEach.eq_1 _
  rw [compileAction_body hmade rfl rfl, makeAction, hactions]
  rfl

/-- At the first tick such a timer is queued again as far ahead as can be. -/
theorem rules_stay_on_counter_longest :
    let uses : List Use := [.trigger 0 [longest], .tick]
    let st := Use.runAll uses { world := {} }
    (∀ use ∈ uses, ∀ b ∈ use.deferrals, b.Compiled) ∧ uses.countP Use.isTick < 2 ^ 63 ∧
      (∃ h, Course workshop (.start {}) h ⟨st, .between⟩ ∧
        (∀ event ∈ h, event.FromRules ∧ event.Early) ∧ Fits h) ∧
      ∃ e ∈ st.scheduler.queue, e.due = st.scheduler.current + (2 ^ 63 - 1) := by
  intro uses st
  obtain ⟨hruns, huses⟩ := rules_stay_on_counter {}
  have compiled : ∀ use ∈ uses, ∀ b ∈ use.deferrals, b.Compiled := by
    have hfirst : (Use.trigger 0 [longest]).deferrals =
        [.timer 0 (2 ^ 63 - 1) (2 ^ 63 - 1) .sync []] := rfl
    have hlast : Use.tick.deferrals = [] := rfl
    intro use huse b hb
    rcases List.mem_pair.mp huse with rfl | rfl
    · rw [hfirst] at hb
      obtain rfl := List.mem_singleton.mp hb
      exact longest_compiled
    · rw [hlast] at hb
      cases hb
  have early : uses.countP Use.isTick < 2 ^ 63 := by decide
  obtain ⟨h, run, rules⟩ := huses uses compiled early
  obtain ⟨hfits, -, -⟩ := hruns h _ run rules
  exact ⟨compiled, early, ⟨h, run, rules, hfits⟩, by decide +kernel⟩

end RuleEngine
