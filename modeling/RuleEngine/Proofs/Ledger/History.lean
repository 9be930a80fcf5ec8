/-
  RuleEngine/Proofs/Ledger/History.lean
  =====================================
  **Cooldowns, told from the history of calls.**

  The ledger keeps one time for a pair of a subject and a key.  Whoever calls it sees
  a history instead: which checks were refused, which were admitted, and when, whose
  sessions ended, and how the clock was moved in between.  This file runs any
  sequence of calls and keeps that history, newest call first.  What every call
  answers is then said by the part of the history before it alone (`Event.Answers`):
  a check is refused exactly if the latest admitted check of its pair in the session
  lies less than the window back.

  The ledger agrees with the history at every moment (`Agrees`).  A refused check adds
  to the history and not to the ledger, and this is where it matters that only an
  admitted check is remembered: a pair that is refused has an entry already.
-/
import Mathlib.Data.Finset.Card
import Mathlib.Data.Finset.Dedup
import RuleEngine.Ledger
import RuleEngine.Proofs.Entries

namespace RuleEngine.Ledger

/-! ### Calls and what they answer -/

inductive Call where
  | check (subject key : String) (window : Duration)
  | remaining (subject key : String) (window : Duration)
  | endSession (subject : String)
  | subjectCount
  | setClock (now : UInt64)
  | passTime (span : Duration)

/-- What a call answered, with the clock where the answer depends on it.  Windows and times are
    in milliseconds. -/
inductive Event where
  | checked (subject key : String) (window now : Nat) (cooling : Bool)
  | asked (subject key : String) (window now left : Nat)
  | ended (subject : String) (count : Nat)
  | counted (count : Nat)
deriving DecidableEq

/-- A ledger with its clock and all that was answered so far, newest first. -/
structure Chronicle where
  ledger : Ledger := {}
  clock : Nat
  history : List Event := []

namespace Chronicle

def call (c : Chronicle) : Call → Chronicle
  | .check subject key window =>
    let (left?, ledger) := c.ledger.check c.clock subject key window
    let e := Event.checked subject key window.millis c.clock left?.isSome
    { c with ledger, history := e :: c.history }
  | .remaining subject key window =>
    let left := c.ledger.timeLeft c.clock subject key window
    { c with history := .asked subject key window.millis c.clock left.millis :: c.history }
  | .endSession subject =>
    let (count, ledger) := c.ledger.endSession subject
    { c with ledger, history := .ended subject count :: c.history }
  | .subjectCount => { c with history := .counted c.ledger.subjectCount :: c.history }
  | .setClock now => { c with clock := now.toNat }
  | .passTime span => { c with clock := RuleEngine.passTime c.clock span }

def run (clock : UInt64) (calls : List Call) : Chronicle :=
  calls.foldl call { clock := clock.toNat }

end Chronicle

/-! ### Reading a history -/

namespace Event

def ends (subject : String) : Event → Bool
  | ended other _ => other == subject
  | _ => false

def admitted? (subject key : String) : Event → Option Nat
  | checked s k _ now false => if s = subject ∧ k = key then some now else none
  | _ => none

def checkedKey? (subject : String) : Event → Option String
  | checked s k _ _ _ => if s = subject then some k else none
  | _ => none

def subject? : Event → Option String
  | checked s _ _ _ _ => some s
  | _ => none

def time? : Event → Option Nat
  | checked _ _ _ now _ => some now
  | asked _ _ _ now _ => some now
  | _ => none

end Event

def session (subject : String) (h : List Event) : List Event :=
  h.takeWhile fun e => !e.ends subject

def lastAdmitted? (subject key : String) (h : List Event) : Option Nat :=
  (session subject h).findSome? (Event.admitted? subject key)

def checkedKeys (subject : String) (h : List Event) : Finset String :=
  ((session subject h).filterMap (Event.checkedKey? subject)).toFinset

def activeSubjects (h : List Event) : Finset String :=
  (h.filterMap Event.subject?).toFinset.filter fun subject => (checkedKeys subject h).Nonempty

/-- An answer is the one that the history before it calls for. -/
def Event.Answers : Event → List Event → Prop
  | checked subject key window now cooling, h =>
    cooling = true ↔ ∃ last, lastAdmitted? subject key h = some last ∧ now - last < window
  | asked subject key window now left, h =>
    left = ((lastAdmitted? subject key h).map fun last => window - (now - last)).getD 0
  | ended subject count, h => count = (checkedKeys subject h).card
  | counted count, h => count = (activeSubjects h).card

section Reading

variable {subject key : String} {e : Event} {h between : List Event}

theorem session_cons (subject : String) (e : Event) (h : List Event) :
    session subject (e :: h) = if e.ends subject then [] else e :: session subject h := by
  cases he : e.ends subject <;> simp [session, he]

/-- The latest admitted check of a longer history. -/
theorem lastAdmitted?_cons (subject key : String) (e : Event) (h : List Event) :
    lastAdmitted? subject key (e :: h) =
      if e.ends subject then none
      else (e.admitted? subject key).or (lastAdmitted? subject key h) := by
  unfold lastAdmitted?
  rw [session_cons]
  cases e.ends subject with
  | true => rfl
  | false =>
    cases ha : e.admitted? subject key <;> simp [ha]

/-- The checked keys of a longer history. -/
theorem mem_checkedKeys_cons :
    key ∈ checkedKeys subject (e :: h) ↔
      e.ends subject = false ∧
        (e.checkedKey? subject = some key ∨ key ∈ checkedKeys subject h) := by
  unfold checkedKeys
  rw [session_cons]
  cases e.ends subject with
  | true => simp
  | false =>
    cases hk : e.checkedKey? subject with
    | none => simp [hk]
    | some k => simp [hk, eq_comm]

theorem mem_activeSubjects : subject ∈ activeSubjects h ↔ (checkedKeys subject h).Nonempty := by
  unfold activeSubjects
  rw [Finset.mem_filter, and_iff_right_iff_imp]
  rintro ⟨key, hkey⟩
  simp only [checkedKeys, List.mem_toFinset, List.mem_filterMap] at hkey ⊢
  obtain ⟨e, he, hk⟩ := hkey
  refine ⟨e, (List.takeWhile_prefix _).subset he, ?_⟩
  cases e with
  | checked s k window now cooling =>
    by_cases hs : s = subject
    · simp [Event.subject?, hs]
    · simp [Event.checkedKey?, hs] at hk
  | _ => simp [Event.checkedKey?] at hk

theorem lastAdmitted?_append (hbetween : ∀ e ∈ between, e.ends subject = false) :
    lastAdmitted? subject key (between ++ h) =
      (between.findSome? (Event.admitted? subject key)).or (lastAdmitted? subject key h) := by
  induction between with
  | nil => simp
  | cons e rest ih =>
    have hrest := ih fun e he => hbetween e (List.mem_cons_of_mem _ he)
    have he := hbetween e List.mem_cons_self
    rw [List.cons_append, lastAdmitted?_cons, hrest, List.findSome?_cons]
    cases ha : e.admitted? subject key <;> simp [he]

theorem Event.time?_of_admitted? {now : Nat} (ha : e.admitted? subject key = some now) :
    e.time? = some now := by
  unfold Event.admitted? at ha
  split at ha
  · split at ha
    · exact ha
    · cases ha
  · cases ha

end Reading

/-! ### The entries of a ledger -/

section Entries

variable {l : Ledger} {subject : String}

theorem keysOf_record (l : Ledger) (subject other key : String) (now : Nat) :
    (l.record subject key now).keysOf other =
      if other = subject then insertEntry key now (l.keysOf subject) else l.keysOf other := by
  unfold record keysOf
  rw [lookupEntry_insertEntry]
  by_cases hs : other = subject
  · simp [hs]
  · simp [hs]

theorem keysOf_erased (l : Ledger) (subject other : String) :
    (l.endSession subject).2.keysOf other = if other = subject then [] else l.keysOf other := by
  unfold endSession keysOf
  rw [lookupEntry_eraseEntry]
  by_cases hs : other = subject
  · simp [hs]
  · simp [hs]

theorem lastUse?_erased (l : Ledger) (subject other key : String) :
    (l.endSession subject).2.lastUse? other key =
      if other = subject then none else l.lastUse? other key := by
  unfold lastUse?
  rw [keysOf_erased]
  by_cases hs : other = subject
  · simp [hs, lookupEntry]
  · simp [hs]

theorem lastUse?_isSome_iff {key : String} :
    (l.lastUse? subject key).isSome = true ↔ key ∈ (l.keysOf subject).map Prod.fst := by
  unfold lastUse?
  rw [Option.isSome_iff_ne_none, ne_eq, lookupEntry_eq_none_iff, not_not]

/-- A check that is admitted writes its time, and one that is refused changes nothing. -/
theorem use_spec (l : Ledger) (now : Nat) (subject key : String) (window : Nat) :
    ((l.use now subject key window).1.isSome = true ↔
        ∃ last, l.lastUse? subject key = some last ∧ now - last < window) ∧
      (l.use now subject key window).2 =
        if (l.use now subject key window).1.isSome then l else l.record subject key now := by
  unfold use
  cases l.lastUse? subject key with
  | none => simp
  | some last =>
    by_cases hlt : now - last < window
    · simp [hlt]
    · simp [hlt]

end Entries

/-! ### The ledger agrees with the history -/

/-- What a ledger remembers is what a history tells. -/
structure Agrees (l : Ledger) (h : List Event) : Prop where
  lastUse : ∀ subject key, l.lastUse? subject key = lastAdmitted? subject key h
  keys : ∀ subject key, key ∈ (l.keysOf subject).map Prod.fst ↔ key ∈ checkedKeys subject h
  subjects : ∀ subject, subject ∈ l.subjects.map Prod.fst ↔ (checkedKeys subject h).Nonempty
  nodup_keys : ∀ subject, ((l.keysOf subject).map Prod.fst).Nodup
  nodup_subjects : (l.subjects.map Prod.fst).Nodup

theorem agrees_nil : Agrees {} [] where
  lastUse := fun _ _ => rfl
  keys := by simp [keysOf, lookupEntry, checkedKeys, session]
  subjects := by simp [checkedKeys, session]
  nodup_keys := by simp [keysOf, lookupEntry]
  nodup_subjects := List.nodup_nil

namespace Agrees

variable {l : Ledger} {h : List Event}

/-- An event that neither checks nor ends anything tells nothing about the ledger. -/
theorem idle (ha : Agrees l h) {e : Event} (hends : ∀ subject, e.ends subject = false)
    (hadmits : ∀ subject key, e.admitted? subject key = none)
    (hchecks : ∀ subject, e.checkedKey? subject = none) : Agrees l (e :: h) := by
  have hkeys : ∀ subject, checkedKeys subject (e :: h) = checkedKeys subject h := by
    intro subject
    ext key
    rw [mem_checkedKeys_cons]
    simp [hends, hchecks]
  constructor
  · intro subject key
    rw [lastAdmitted?_cons, hends, hadmits, ha.lastUse]
    simp
  · intro subject key
    rw [hkeys, ha.keys]
  · intro subject
    rw [hkeys, ha.subjects]
  · exact ha.nodup_keys
  · exact ha.nodup_subjects

/-- A refused check finds an entry of its pair, so its key was checked before. -/
theorem refused (ha : Agrees l h) {subject key : String} {last : Nat}
    (hlast : l.lastUse? subject key = some last) (window now : Nat) :
    Agrees l (.checked subject key window now true :: h) := by
  have hknown : key ∈ checkedKeys subject h := by
    rw [← ha.keys, ← lastUse?_isSome_iff, hlast]
    rfl
  have hkeys : ∀ s, checkedKeys s (.checked subject key window now true :: h) =
      checkedKeys s h := by
    intro s
    ext k
    rw [mem_checkedKeys_cons]
    by_cases hs : subject = s
    · subst hs
      simp only [Event.ends, Event.checkedKey?, if_true, Option.some.injEq, true_and]
      constructor
      · rintro (rfl | hk)
        · exact hknown
        · exact hk
      · exact Or.inr
    · simp [Event.ends, Event.checkedKey?, hs]
  constructor
  · intro s k
    rw [lastAdmitted?_cons, ha.lastUse]
    simp [Event.ends, Event.admitted?]
  · intro s k
    rw [hkeys, ha.keys]
  · intro s
    rw [hkeys, ha.subjects]
  · exact ha.nodup_keys
  · exact ha.nodup_subjects

/-- An admitted check adds the same to the ledger and to the history. -/
theorem admitted (ha : Agrees l h) (subject key : String) (window now : Nat) :
    Agrees (l.record subject key now) (.checked subject key window now false :: h) := by
  have hmem : ∀ s k, k ∈ checkedKeys s (.checked subject key window now false :: h) ↔
      (subject = s ∧ key = k) ∨ k ∈ checkedKeys s h := by
    intro s k
    rw [mem_checkedKeys_cons]
    by_cases hs : subject = s
    · simp [Event.ends, Event.checkedKey?, hs]
    · simp [Event.ends, Event.checkedKey?, hs]
  constructor
  · intro s k
    rw [lastAdmitted?_cons]
    by_cases hs : s = subject
    · subst hs
      by_cases hk : k = key
      · subst hk
        simp [lastUse?_record_same, Event.ends, Event.admitted?]
      · rw [lastUse?_record_other_key _ _ _ hk, ha.lastUse]
        simp [Event.ends, Event.admitted?, Ne.symm hk]
    · rw [lastUse?_record_other_subject _ _ _ _ hs, ha.lastUse]
      simp [Event.ends, Event.admitted?, Ne.symm hs]
  · intro s k
    rw [hmem, keysOf_record]
    by_cases hs : s = subject
    · subst hs
      rw [if_pos rfl, mem_keys_insertEntry, ha.keys]
      simp [eq_comm]
    · rw [if_neg hs, ha.keys]
      simp [Ne.symm hs]
  · intro s
    rw [record, mem_keys_insertEntry, ha.subjects]
    simp only [Finset.Nonempty, hmem]
    constructor
    · rintro (rfl | ⟨k, hk⟩)
      · exact ⟨key, .inl ⟨rfl, rfl⟩⟩
      · exact ⟨k, .inr hk⟩
    · rintro ⟨k, ⟨rfl, -⟩ | hk⟩
      · exact .inl rfl
      · exact .inr ⟨k, hk⟩
  · intro s
    rw [keysOf_record]
    split
    · exact nodup_insertEntry (ha.nodup_keys subject)
    · exact ha.nodup_keys s
  · exact nodup_insertEntry ha.nodup_subjects

/-- The end of a session takes the same from the ledger and from the history. -/
theorem ended (ha : Agrees l h) (subject : String) (count : Nat) :
    Agrees (l.endSession subject).2 (.ended subject count :: h) := by
  have hmem : ∀ s k, k ∈ checkedKeys s (.ended subject count :: h) ↔
      subject ≠ s ∧ k ∈ checkedKeys s h := by
    intro s k
    rw [mem_checkedKeys_cons]
    simp [Event.ends, Event.checkedKey?]
  constructor
  · intro s k
    rw [lastAdmitted?_cons, lastUse?_erased, ha.lastUse]
    by_cases hs : s = subject
    · simp [Event.ends, hs]
    · simp [Event.ends, Event.admitted?, hs, Ne.symm hs]
  · intro s k
    rw [hmem, keysOf_erased]
    by_cases hs : s = subject
    · simp [hs]
    · rw [if_neg hs, ha.keys]
      simp [Ne.symm hs]
  · intro s
    simp only [Finset.Nonempty, hmem, endSession, eraseEntry, List.mem_map, List.mem_filter]
    constructor
    · rintro ⟨entry, ⟨hentry, hne⟩, rfl⟩
      obtain ⟨k, hk⟩ := (ha.subjects entry.1).mp (List.mem_map.mpr ⟨entry, hentry, rfl⟩)
      exact ⟨k, fun heq => by simp [heq] at hne, hk⟩
    · rintro ⟨k, hne, hk⟩
      obtain ⟨entry, hentry, rfl⟩ := List.mem_map.mp ((ha.subjects s).mpr ⟨k, hk⟩)
      exact ⟨entry, ⟨hentry, by simpa using Ne.symm hne⟩, rfl⟩
  · intro s
    rw [keysOf_erased]
    split
    · exact List.nodup_nil
    · exact ha.nodup_keys s
  · exact ha.nodup_subjects.sublist (List.filter_sublist.map Prod.fst)

/-- A subject with an ended session answers for as many keys as it has entries. -/
theorem length_keysOf (ha : Agrees l h) (subject : String) :
    (l.keysOf subject).length = (checkedKeys subject h).card := by
  have hset : checkedKeys subject h = ((l.keysOf subject).map Prod.fst).toFinset := by
    ext key
    rw [List.mem_toFinset, ha.keys]
  rw [hset, List.toFinset_card_of_nodup (ha.nodup_keys subject), List.length_map]

theorem subjectCount (ha : Agrees l h) : l.subjectCount = (activeSubjects h).card := by
  have hset : activeSubjects h = (l.subjects.map Prod.fst).toFinset := by
    ext subject
    rw [List.mem_toFinset, ha.subjects, mem_activeSubjects]
  rw [hset, List.toFinset_card_of_nodup ha.nodup_subjects, List.length_map, Ledger.subjectCount]

end Agrees

/-! ### Every sequence of calls -/

/-- Every answer of a history is called for by what came before it. -/
def Explained : List Event → Prop
  | [] => True
  | e :: h => e.Answers h ∧ Explained h

/-- Every event of an explained history is called for by those before it. -/
theorem Explained.answers {newer older : List Event} {e : Event}
    (hx : Explained (newer ++ e :: older)) : e.Answers older := by
  induction newer with
  | nil => exact hx.1
  | cons _ _ ih => exact ih hx.2

namespace Chronicle

/-- One call keeps the ledger in agreement with the history, and answers as it says. -/
theorem call_sound (c : Chronicle) (call : Call) (ha : Agrees c.ledger c.history)
    (hx : Explained c.history) :
    Agrees (c.call call).ledger (c.call call).history ∧ Explained (c.call call).history := by
  cases call with
  | check subject key window =>
    obtain ⟨hcooling, hledger⟩ := c.ledger.use_spec c.clock subject key window.millis
    rw [ha.lastUse] at hcooling
    refine ⟨?_, hcooling, hx⟩
    simp only [Chronicle.call, Ledger.check, hledger]
    cases hleft : (c.ledger.use c.clock subject key window.millis).1.isSome with
    | true =>
      obtain ⟨last, hlast, -⟩ := hcooling.mp hleft
      rw [← ha.lastUse] at hlast
      exact ha.refused hlast window.millis c.clock
    | false => exact ha.admitted subject key window.millis c.clock
  | remaining subject key window =>
    refine ⟨ha.idle (fun _ => rfl) (fun _ _ => rfl) (fun _ => rfl), ?_, hx⟩
    simp only [Event.Answers, Ledger.millis_timeLeft, Ledger.remaining, ha.lastUse]
    cases lastAdmitted? subject key c.history <;> rfl
  | endSession subject => exact ⟨ha.ended subject _, ha.length_keysOf subject, hx⟩
  | subjectCount =>
    exact ⟨ha.idle (fun _ => rfl) (fun _ _ => rfl) (fun _ => rfl), ha.subjectCount, hx⟩
  | setClock now => exact ⟨ha, hx⟩
  | passTime span => exact ⟨ha, hx⟩

theorem run_sound (clock : UInt64) (calls : List Call) :
    Agrees (run clock calls).ledger (run clock calls).history ∧
      Explained (run clock calls).history := by
  -- the calls so far are a prefix, so the induction takes them off at the end
  induction calls using List.reverseRecOn with
  | nil => exact ⟨agrees_nil, trivial⟩
  | append_singleton calls call ih =>
    rw [run, List.foldl_append]
    exact call_sound _ call ih.1 ih.2

end Chronicle

/-- The clock did not go back from one call to the next. -/
def Steady (h : List Event) : Prop := (h.filterMap Event.time?).Pairwise (· ≥ ·)

theorem Steady.of_append {newer older : List Event} (hs : Steady (newer ++ older)) :
    Steady older := by
  unfold Steady at hs
  rw [List.filterMap_append, List.pairwise_append] at hs
  exact hs.2.1

/-- In a steady history time does not go back. -/
theorem Steady.le {newer older : List Event} {e e' : Event} {now now' : Nat}
    (hs : Steady (newer ++ e' :: older)) (he : e ∈ newer) (hnow : e.time? = some now)
    (hnow' : e'.time? = some now') : now' ≤ now := by
  unfold Steady at hs
  rw [List.filterMap_append, List.pairwise_append] at hs
  refine hs.2.2 now (List.mem_filterMap.mpr ⟨e, he, hnow⟩) now' ?_
  exact List.mem_filterMap.mpr ⟨e', List.mem_cons_self, hnow'⟩

/-- While the clock does not go back, the latest admitted check of a session is no older than
    any other one. -/
theorem exists_lastAdmitted {subject key : String} {window now : Nat} {between older : List Event}
    (hopen : ∀ e ∈ between, e.ends subject = false)
    (hsteady : Steady (between ++ .checked subject key window now false :: older)) :
    ∃ last, now ≤ last ∧
      lastAdmitted? subject key (between ++ .checked subject key window now false :: older) =
        some last := by
  rw [lastAdmitted?_append hopen, lastAdmitted?_cons]
  cases hlater : between.findSome? (Event.admitted? subject key) with
  | none => exact ⟨now, Nat.le_refl _, by simp [Event.ends, Event.admitted?]⟩
  | some last =>
    obtain ⟨e, he, hadmitted⟩ := List.exists_of_findSome?_eq_some hlater
    exact ⟨last, hsteady.le he (Event.time?_of_admitted? hadmitted) rfl, rfl⟩

/-- **The answers of a ledger are those that the history of its calls calls for**, whatever the
    clock does; and while it does not go back, an admitted check lies at least its window after
    every admitted check of its pair in the session. -/
theorem history_explained (clock : UInt64) (calls : List Call) :
    (∀ newer e older, (Chronicle.run clock calls).history = newer ++ e :: older →
      e.Answers older) ∧
    (∀ subject key window₁ window₂ now₁ now₂ newer between older,
      (Chronicle.run clock calls).history =
        newer ++ .checked subject key window₂ now₂ false :: (between ++
          .checked subject key window₁ now₁ false :: older) →
      (∀ e ∈ between, e.ends subject = false) →
      Steady (Chronicle.run clock calls).history →
      now₁ + window₂ ≤ now₂) := by
  obtain ⟨-, hexplained⟩ := Chronicle.run_sound clock calls
  constructor
  · intro newer e older hhistory
    rw [hhistory] at hexplained
    exact hexplained.answers
  · intro subject key window₁ window₂ now₁ now₂ newer between older hhistory hopen hsteady
    rw [hhistory] at hexplained hsteady
    have hadmitted := hexplained.answers
    have hrest := hsteady.of_append
    have hbefore : Steady (between ++ .checked subject key window₁ now₁ false :: older) :=
      @Steady.of_append [_] _ hrest
    obtain ⟨last, hle, hlast⟩ := exists_lastAdmitted hopen hbefore
    -- the later check was admitted, so it lies its window after the latest one before it
    have hgap : ¬ now₂ - last < window₂ := by
      intro hlt
      have hcooling := hadmitted.mpr ⟨last, hlast, hlt⟩
      cases hcooling
    have hpast : now₁ ≤ now₂ :=
      @Steady.le (_ :: between) older _ _ _ _ hrest List.mem_cons_self rfl rfl
    omega

/-- A check at four tenths of its window is refused and does not extend the cooldown: the one
    after eleven tenths is admitted. -/
theorem history_explained_refused :
    let check : Call := .check "alice" "k" (.ofMillis 1000)
    let calls : List Call := [check, .passTime (.ofMillis 400), check, .passTime (.ofMillis 700),
      check, .endSession "alice"]
    let first := Event.checked "alice" "k" 1000 10000 false
    let second := Event.checked "alice" "k" 1000 10400 true
    let third := Event.checked "alice" "k" 1000 11100 false
    (Chronicle.run 10000 calls).history = [.ended "alice" 1, third, second, first] ∧
      second.Answers [first] ∧ third.Answers [second, first] ∧
      (Event.ended "alice" 1).Answers [third, second, first] ∧ 10000 + 1000 ≤ 11100 := by
  intro check calls first second third
  have hhistory : (Chronicle.run 10000 calls).history =
      [.ended "alice" 1, third, second, first] := by decide
  obtain ⟨hanswers, hspaced⟩ := history_explained 10000 calls
  refine ⟨hhistory, ?_, ?_, ?_, ?_⟩
  · exact hanswers [.ended "alice" 1, third] _ _ hhistory
  · exact hanswers [.ended "alice" 1] _ _ hhistory
  · exact hanswers [] _ _ hhistory
  · refine hspaced "alice" "k" 1000 1000 10000 11100 [.ended "alice" 1] [second] [] hhistory ?_ ?_
    · simp [second, Event.ends]
    · rw [hhistory]
      unfold Steady
      decide

end RuleEngine.Ledger
