import Mathlib.Data.Set.Card
import TaskReplay.Proofs.Engine.Office

/-!
# What is counted and recorded of runs

The engine counts the runs that did not fail, and each run notes itself down in its task. Over a whole
history, with nobody else writing to the shelf, both can be told from the log:

* `counted` -- the runs that gave the engine back without a failure; `executions_of_log` -- their
  number is what the engine shows;
* `copy_on_shelf` -- a task that a run has read again stands on the shelf as it was read, until the run
  saves it;
* `records` -- the runs that noted themselves down in a task; `shelf_of_log` -- the task is the first
  one with these runs on it;
* `Accounts`, `accounts_kept` -- **the books are right whenever no start is under way**: each start is
  counted and recorded once, if it is, and as what it returned.
-/

namespace TaskReplay

/-- A task after runs that were recorded in it, latest first: whether they succeeded, and when that was
noted down. -/
def Task.afterRuns (t : Task) : List (Bool × Timestamp) → Task
  | [] => t
  | (success, date) :: older =>
    { t with
      runCount := t.runCount + .ofNat (older.length + 1)
      lastRunAt := some date
      lastRunSuccess := some success
      updatedAt := date }

/-- One more run. -/
theorem Task.recordRun_afterRuns (t : Task) (runs : List (Bool × Timestamp)) (success : Bool)
    (date : Timestamp) :
    (t.afterRuns runs).recordRun success date = t.afterRuns ((success, date) :: runs) := by
  cases runs with
  | nil => rfl
  | cons run older =>
      simp only [afterRuns, recordRun, List.length_cons, UInt64.ofNat_add, UInt64.add_assoc]
      rfl

@[simp] theorem Task.id_recordRun (t : Task) (success : Bool) (date : Timestamp) :
    (t.recordRun success date).id = t.id := rfl

namespace Engine

open Machine (Reaches)

/-! ## 1. Runs that are counted -/

/-- The run that gives the engine back without a failure in a line, if one does. -/
def counts : Line → Option Nat
  | .answered n (.transition (.finish none)) _ => some n
  | _ => none

/-- The runs that have given the engine back without a failure, latest first. -/
def counted (log : List Line) : List Nat := log.filterMap counts

section Counted

variable {m : System} {n k : Nat} {log older : List Line}

/-- What one question does to the number of runs that the engine shows. -/
theorem executions_after (e : Engine) (q : EngineRequest) (x : q.Answer) (n : Nat) :
    (e.after q).state.executions =
      e.state.executions + .ofNat (counts (.answered n q x)).toList.length := by
  have same : e.state.executions = e.state.executions + .ofNat 0 := by simp
  cases q with
  | transition t =>
      cases t with
      | claim run task total startedAt =>
          simp only [after, apply]
          split <;> exact same
      | pause =>
          simp only [after, apply]
          split <;> exact same
      | resume =>
          simp only [after, apply]
          split <;> exact same
      | stop =>
          simp only [after, apply]
          split <;> exact same
      | emergencyStop => exact same
      | advance i =>
          simp only [after, apply]
          split <;> exact same
      | finish error =>
          cases error with
          | none => rfl
          | some message => exact same
  | _ => exact same

theorem counted_cons (line : Line) (log : List Line) :
    counted (line :: log) = (counts line).toList ++ counted log := by
  unfold counted
  rw [List.filterMap_cons]
  cases counts line <;> rfl

/-- **The engine shows how many runs have not failed.** -/
theorem executions_of_log (h : Reachable m) :
    m.state.state.executions = .ofNat (counted m.log).length := by
  induction h with
  | here => rfl
  | @step m m' k h _ hs ih =>
      cases hs with
      | call c free => exact ih
      | @answer c q next x asks allowed =>
          show (m.state.after q).state.executions = .ofNat (counted (.answered k q x :: m.log)).length
          rw [executions_after m.state q x k, ih, counted_cons, List.length_append, UInt64.ofNat_add,
            UInt64.add_comm]

/-- Only a finish ends a hold, and with its own error. -/
theorem finish_of_past {s : Stand} {q : EngineRequest} {x : q.Answer} {e : Option String}
    (before : s ≠ .past e) (after : s.step q x = .past e) : q = .transition (.finish e) := by
  have moves := s.moves q x
  rw [after] at moves
  cases moves with
  | same => exact absurd rfl before
  | finish => rfl

/-- A finish is made by a run that is not over yet, and ends it. -/
theorem Call.past_of_finish {c : Call} {s : Stand} {e : Option String} (x : Option EngineState)
    (may : c.stands n s (.transition (.finish e))) :
    s.step (.transition (.finish e)) x = .past e ∧ ∀ e', s ≠ .past e' := by
  cases s with
  | holds => exact ⟨rfl, nofun⟩
  | saved success => exact ⟨rfl, nofun⟩
  | outside => cases c <;> cases may
  | _ => cases c <;> exact may.elim

/-- The runs that are counted are those that are over without an error. -/
theorem mem_counted_iff (h : Reachable m) : n ∈ counted m.log ↔ stand n m.log = .past none := by
  induction h with
  | here => exact ⟨nofun, nofun⟩
  | @step m m' k h _ hs ih =>
      cases hs with
      | call c free => exact ih
      | @answer c q next x asks allowed =>
          show n ∈ counted (.answered k q x :: m.log) ↔ stand n (.answered k q x :: m.log) = .past none
          rw [counted_cons, List.mem_append, stand_answered, ih]
          by_cases hq : q = .transition (.finish none)
          · subst hq
            by_cases hk : k = n
            · subst hk
              simp [counts, (Call.past_of_finish x (Reachable.stands h asks)).1]
            · simp [counts, hk, Ne.symm hk]
          · have uncounted : counts (.answered k q x) = none := by
              unfold counts
              split
              · next same =>
                cases same
                exact absurd rfl hq
              · rfl
            rw [uncounted]
            by_cases hk : k = n
            · subst hk
              rw [if_pos rfl]
              refine ⟨fun past => ?_, fun past => ?_⟩
              · rw [past.resolve_left nofun, Stand.past_step]
              · by_contra apart
                exact hq (finish_of_past (fun past => apart (.inr past)) past)
            · simp [hk]

/-- No run is counted twice. -/
theorem counted_nodup (h : Reachable m) : (counted m.log).Nodup := by
  induction h with
  | here => exact List.nodup_nil
  | @step m m' k h _ hs ih =>
      cases hs with
      | call c free => exact ih
      | @answer c q next x asks allowed =>
          show (counted (.answered k q x :: m.log)).Nodup
          rw [counted_cons]
          unfold counts
          split
          · next n y same =>
            cases same
            refine List.nodup_cons.mpr ⟨fun again => ?_, ih⟩
            exact (Call.past_of_finish y (Reachable.stands h asks)).2 none ((mem_counted_iff h).mp again)
          · exact ih

end Counted

/-! ## 2. Copies of tasks -/

/-- The task that a start has in hand to note its run down in. -/
def Stand.copy : Stand → Option Task
  | read t | dated t _ => some t
  | _ => none

section Copies

variable {shelf : Shelf} {m m' : OfficeSystem} {n k : Nat} {c : Call} {id : TaskId}

/-- A start with a copy in hand holds the engine. -/
theorem holds_of_copy {log : List Line} {t : Task} (h : (stand n log).copy = some t) :
    Holds n log := by
  rw [holds_iff_stand]
  cases hs : stand n log <;> rw [hs] at h <;> first | rfl | cases h

/-- What is saved is the copy in hand with one more run on it. -/
theorem Call.record_of_save {c : Call} {s : Stand} {u : Task} (may : c.stands n s (.saveTask u)) :
    ∃ id t date success, c = .start id ∧ s = .dated t date ∧ u = t.recordRun success date := by
  cases c with
  | start id =>
      cases s with
      | dated t date =>
          obtain ⟨success, rfl⟩ := may
          exact ⟨id, t, date, success, rfl, rfl, rfl⟩
      | _ => exact may.elim
  | _ => cases s <;> exact may.elim

/-- A copy comes into hand by a look-up of the task, and is kept until it is saved. -/
theorem copy_of_step {s : Stand} {q : EngineRequest} {x : q.Answer} {t : Task}
    (may : (Call.start id).stands n s q) (h : (s.step q x).copy = some t) :
    (s = .holds ∧ (.answered n q x : Line) = .answered n (.loadTask id) (.ok (some t))) ∨
      s.copy = some t ∧ ∀ u, q ≠ .saveTask u := by
  have moves := s.moves q x
  generalize after : s.step q x = s' at moves h
  cases moves with
  | same =>
      refine .inr ⟨h, fun u saves => ?_⟩
      subst saves
      -- a save is in order only where a date is in hand, and there it does not leave the copy
      obtain ⟨_, u', date, _, -, rfl, -⟩ := Call.record_of_save may
      cases x <;> cases after
  | read id' u =>
      obtain rfl : id' = id := may
      cases h
      exact .inl ⟨rfl, rfl⟩
  | dated u date => exact .inr ⟨h, fun _ same => nomatch same⟩
  | claim => cases h
  | saved => cases h
  | unsaved => cases h
  | finish => cases h

/-- A call that does not hold the engine leaves the shelf. -/
theorem shelf_of_unheld (h : Opened shelf m) (hs : m.Step office k m') (hk : ¬ Holds k m.log) :
    m'.state.shelf = m.state.shelf := by
  cases hs with
  | call c free => rfl
  | @answer c q next x asks allowed =>
      refine Office.shelf_after _ _ fun u hu => hk ?_
      subst hu
      obtain ⟨_, t, date, _, -, at_record, -⟩ := Call.record_of_save (h.reachable.stands asks)
      exact holds_of_copy (t := t) (by rw [show stand k m.log = .dated t date from at_record]; rfl)

/-- **A copy in hand is what stands on the shelf**: nobody else saves the task meanwhile. -/
theorem copy_on_shelf {p : EngineProg Reply} {t : Task} (h : Opened shelf m)
    (ha : m.calls n = some ⟨.start id, p⟩) (hc : (stand n m.log).copy = some t) :
    m.state.shelf.find id = some t := by
  induction h generalizing p t with
  | here => cases hc
  | @step m m' k h _ hs ih =>
      have h : Opened shelf m := h
      by_cases hk : n = k
      · subst hk
        cases hs with
        | call c free =>
            have outside : stand n m.log = .outside := h.reachable.stand_of_free free
            have hc : (stand n m.log).copy = some t := hc
            rw [outside] at hc
            cases hc
        | @answer c q next x asks allowed =>
            obtain ⟨rfl, -⟩ : c = .start id ∧ _ := by simpa [Machine.reply] using ha
            have hc : (stand n (.answered n q x :: m.log)).copy = some t := hc
            rw [stand_answered, if_pos rfl] at hc
            rcases copy_of_step (h.reachable.stands asks) hc with ⟨-, line⟩ | ⟨held, unsaved⟩
            · cases line
              exact Eq.symm allowed
            · show (m.state.after q x).shelf.find id = some t
              rw [Office.shelf_after _ _ unsaved]
              exact ih asks held
      · have same : stand n m'.log = stand n m.log := hs.phaseAt_of_ne hk
        rw [hs.calls_of_ne hk] at ha
        rw [same] at hc
        rw [shelf_of_unheld h hs fun other => hk (holds_unique h.reachable (holds_of_copy hc) other)]
        exact ih ha hc

end Copies

/-! ## 3. Records -/

/-- A run that noted itself down: the number of its start, whether it succeeded, and when. -/
structure Record where
  number : Nat
  success : Bool
  date : Timestamp

/-- What a run leaves in its task. -/
def Record.outcome (r : Record) : Bool × Timestamp := (r.success, r.date)

/-- The run that notes itself down in a task in a line, if one does. -/
def recordOf (id : TaskId) : Line → Option Record
  | .answered n (.saveTask t) (.ok ()) =>
    if t.id = id then some ⟨n, t.lastRunSuccess.getD false, t.updatedAt⟩ else none
  | _ => none

/-- The runs that noted themselves down in a task, latest first. -/
def records (id : TaskId) (log : List Line) : List Record := log.filterMap (recordOf id)

section Records

variable {shelf : Shelf} {m : OfficeSystem} {n k : Nat} {id : TaskId} {r : Record}

theorem records_cons (id : TaskId) (line : Line) (log : List Line) :
    records id (line :: log) = (recordOf id line).toList ++ records id log := by
  unfold records
  rw [List.filterMap_cons]
  cases recordOf id line <;> rfl

theorem recordOf_eq_none (id : TaskId) (n : Nat) {q : EngineRequest} (x : q.Answer)
    (h : ∀ u, q ≠ .saveTask u) : recordOf id (.answered n q x) = none := by
  cases q with
  | saveTask u => exact absurd rfl (h u)
  | _ => rfl

/-- A record stands in a line of its own: a save that succeeded. -/
theorem line_of_recordOf {line : Line} (h : recordOf id line = some r) :
    ∃ u, line = .answered r.number (.saveTask u) (.ok ()) ∧ u.id = id ∧
      r = ⟨r.number, u.lastRunSuccess.getD false, u.updatedAt⟩ := by
  unfold recordOf at h
  split at h
  · next k u =>
    split at h
    · next same =>
      cases h
      exact ⟨u, rfl, same, rfl⟩
    · cases h
  · cases h

/-- What a save has in hand. -/
theorem Opened.at_save {c : Call} {u : Task} {next : Except Failure Unit → EngineProg Reply}
    (h : Opened shelf m) (asks : m.calls n = some ⟨c, .ask (.saveTask u) next⟩) :
    ∃ t date success, c = .start u.id ∧ stand n m.log = .dated t date ∧
      m.state.shelf.find u.id = some t ∧ u = t.recordRun success date := by
  obtain ⟨id, t, date, success, rfl, at_record, rfl⟩ := Call.record_of_save (h.reachable.stands asks)
  have at_record : stand n m.log = .dated t date := at_record
  have found := copy_on_shelf h asks (t := t) (by rw [at_record]; rfl)
  have own : (t.recordRun success date).id = id := Shelf.id_of_find (t := t) found
  rw [own]
  exact ⟨t, date, success, rfl, at_record, found, rfl⟩

/-- **A stored task is the first one with the runs on it** that noted themselves down. -/
theorem shelf_of_log (h : Opened shelf m) (id : TaskId) : m.state.shelf.find id =
    (shelf.find id).map fun t => t.afterRuns ((records id m.log).map Record.outcome) := by
  induction h with
  | here =>
      show shelf.find id = (shelf.find id).map fun t => t
      simp
  | @step m m' k h _ hs ih =>
      cases hs with
      | call c free => exact ih
      | @answer c q next x asks allowed =>
          show (m.state.after q x).shelf.find id = (shelf.find id).map fun t =>
            t.afterRuns ((records id (.answered k q x :: m.log)).map Record.outcome)
          rw [records_cons]
          by_cases hq : ∃ u, q = .saveTask u
          · obtain ⟨u, rfl⟩ := hq
            cases x with
            | error e => exact ih
            | ok done =>
                obtain ⟨⟩ := done
                obtain ⟨t, date, success, -, -, found, rfl⟩ := Opened.at_save h asks
                show (m.state.shelf.put (t.recordRun success date)).find id = _
                rw [Shelf.find_put, Task.id_recordRun]
                by_cases hid : id = t.id
                · subst hid
                  obtain ⟨first, hfirst, same⟩ := Option.map_eq_some_iff.mp (ih.symm.trans found)
                  have recorded : recordOf t.id (.answered k (.saveTask (t.recordRun success date))
                    (.ok ())) = some ⟨k, success, date⟩ := if_pos rfl
                  rw [if_pos rfl, hfirst, recorded]
                  show some (t.recordRun success date) = some (first.afterRuns
                    ((success, date) :: (records t.id m.log).map Record.outcome))
                  rw [← Task.recordRun_afterRuns, same]
                · have other : recordOf id (.answered k (.saveTask (t.recordRun success date))
                    (.ok ())) = none := if_neg fun same => hid same.symm
                  rw [if_neg hid, other]
                  exact ih
          · have unsaved (u : Task) : q ≠ .saveTask u := fun same => hq ⟨u, same⟩
            rw [Office.shelf_after _ _ unsaved, recordOf_eq_none id k x unsaved]
            exact ih

/-- Where a start stands that has noted its run down. -/
def Stand.Noted (success : Bool) : Stand → Prop
  | saved success' => success' = success
  | past e => e.isNone = success
  | _ => False

theorem isNone_errorOf (r : RunResult) : (errorOf r).isNone = r.isOk := by
  cases r <;> rfl

/-- What was noted down stays so, and the run ends as it was noted down. -/
theorem noted_step {s : Stand} {c : Call} {q : EngineRequest} {x : q.Answer} {success : Bool}
    (may : c.stands n s q) (noted : s.Noted success) : (s.step q x).Noted success := by
  cases s with
  | past e =>
      rw [Stand.past_step]
      exact noted
  | saved success' =>
      cases c with
      | start id =>
          cases q with
          | transition t =>
              cases t with
              | finish e =>
                  obtain ⟨r, rfl, same⟩ := may
                  exact (isNone_errorOf r).trans (same.symm.trans noted)
              | _ => exact may.elim
          | _ => exact may.elim
      | _ => exact may.elim
  | _ => exact noted.elim

/-- **Each record is one of a run that ended as it says.** -/
theorem noted_of_mem (h : Opened shelf m) (hr : r ∈ records id m.log) :
    (stand r.number m.log).Noted r.success := by
  induction h with
  | here => cases hr
  | @step m m' k h _ hs ih =>
      have h : Opened shelf m := h
      cases hs with
      | call c free => exact ih hr
      | @answer c q next x asks allowed =>
          have hr : r ∈ records id (.answered k q x :: m.log) := hr
          show (stand r.number (.answered k q x :: m.log)).Noted r.success
          rw [records_cons, List.mem_append] at hr
          rw [stand_answered]
          rcases hr with new | old
          · obtain ⟨u, line, -, same⟩ := line_of_recordOf (by simpa using new)
            cases line
            obtain ⟨t, date, success, -, at_record, -, rfl⟩ := h.at_save asks
            rw [if_pos rfl, at_record, same]
            rfl
          · by_cases hk : k = r.number
            · subst hk
              rw [if_pos rfl]
              exact noted_step (h.reachable.stands asks) (ih old)
            · rw [if_neg hk]
              exact ih old

/-- No run notes itself down twice. -/
theorem records_nodup (h : Opened shelf m) (id : TaskId) :
    ((records id m.log).map Record.number).Nodup := by
  induction h with
  | here => exact List.nodup_nil
  | @step m m' k h _ hs ih =>
      have h : Opened shelf m := h
      cases hs with
      | call c free => exact ih
      | @answer c q next x asks allowed =>
          show ((records id (.answered k q x :: m.log)).map Record.number).Nodup
          rw [records_cons]
          cases hr : recordOf id (.answered k q x) with
          | none => exact ih
          | some r =>
              obtain ⟨u, line, -, -⟩ := line_of_recordOf hr
              cases line
              obtain ⟨t, date, success, -, at_record, -, -⟩ := h.at_save asks
              -- a run that saves has a date in hand, and one that is noted down has none
              refine List.nodup_cons.mpr ⟨fun again => ?_, ih⟩
              obtain ⟨r', hr', same⟩ := List.mem_map.mp again
              have noted := noted_of_mem h hr'
              rw [same, at_record] at noted
              exact noted

/-- The line of a save: the task that its start has read again and dated. -/
theorem save_in_log {x : Except Failure Unit} {u : Task} (h : Opened shelf m)
    (hx : .answered n (.saveTask u) x ∈ m.log) : ∃ (newer older : List Line) (t : Task) (date : Timestamp)
      (success : Bool) (p : EngineProg Reply), m.log = newer ++ .answered n (.saveTask u) x :: older ∧
        stand n older = .dated t date ∧ u = t.recordRun success date ∧
        m.calls n = some ⟨.start u.id, p⟩ := by
  obtain ⟨newer, older, hl⟩ := List.append_of_mem hx
  obtain ⟨m₁, c, next, p, h₁, rfl, asks, hp⟩ := Reaches.call_at_answer h rfl hl
  have h₁ : Opened shelf m₁ := h₁
  obtain ⟨t, date, success, rfl, at_record, -, same⟩ := h₁.at_save asks
  exact ⟨newer, m₁.log, t, date, success, p, hl, at_record, same, hp⟩

/-- A date comes into hand by a look at the clock. -/
theorem now_of_step {s : Stand} {q : EngineRequest} {x : q.Answer} {u : Task} {date : Timestamp}
    (before : ∀ u, s ≠ .dated u date) (after : s.step q x = .dated u date) (n : Nat) :
    (.answered n q x : Line) = .answered n .now date := by
  have moves := s.moves q x
  rw [after] at moves
  cases moves with
  | same => exact absurd rfl (before u)
  | dated => rfl

/-- A date in hand was read off the clock. -/
theorem dated_by_clock {log : List Line} {t : Task} {date : Timestamp}
    (h : stand n log = .dated t date) : .answered n .now date ∈ log := by
  obtain ⟨later, earlier, q, x, hl, before, u, after⟩ := Machine.phaseAt_came
    (P := fun s : Stand => ∃ u, s = .dated u date) ⟨t, h⟩ fun ⟨u, hu⟩ => nomatch hu
  rw [hl, now_of_step (fun u hu => before ⟨u, hu⟩) after n]
  simp

/-- A copy comes into hand by a look-up. -/
theorem reload_of_step {s : Stand} {q : EngineRequest} {x : q.Answer} {t : Task}
    (before : s.copy ≠ some t) (after : (s.step q x).copy = some t) (n : Nat) :
    s = .holds ∧ ∃ id, (.answered n q x : Line) = .answered n (.loadTask id) (.ok (some t)) := by
  have moves := s.moves q x
  generalize s.step q x = s' at moves after
  cases moves with
  | same => exact absurd after before
  | read id u =>
      cases after
      exact ⟨rfl, id, rfl⟩
  | dated u date => exact absurd after before
  | claim => cases after
  | saved => cases after
  | unsaved => cases after
  | finish => cases after

/-- A copy in hand was looked up by its start while that held the engine. -/
theorem reload_in_log {newer older : List Line} {p : EngineProg Reply} {t : Task} (h : Opened shelf m)
    (hl : m.log = newer ++ older) (ha : m.calls n = some ⟨.start id, p⟩)
    (hc : (stand n older).copy = some t) :
    ∃ newer' older', m.log = newer' ++ .answered n (.loadTask id) (.ok (some t)) :: older' ∧
      Holds n older' := by
  obtain ⟨later, earlier, q, x, hl', before, after⟩ := Machine.phaseAt_came
    (P := fun s : Stand => s.copy = some t) hc nofun
  obtain ⟨at_holds, id', line⟩ := reload_of_step before after n
  rw [hl', line] at hl
  have hl : m.log = (newer ++ later) ++ .answered n (.loadTask id') (.ok (some t)) :: earlier := by
    simpa using hl
  obtain ⟨m₁, c, next, p', h₁, rfl, asks, hp'⟩ := Reaches.call_at_answer h rfl hl
  have h₁ : Opened shelf m₁ := h₁
  have may := h₁.reachable.stands asks
  rw [ha] at hp'
  cases hp'
  have at_holds : stand n m₁.log = .holds := at_holds
  have may : startStands n id (stand n m₁.log) (.loadTask id') := may
  rw [at_holds] at may
  obtain rfl : id' = id := may
  exact ⟨_, _, hl, holds_iff_stand.mpr (by rw [at_holds]; rfl)⟩

end Records

/-! ## 4. The books -/

/-- No start is under way. -/
def Settled (m : OfficeSystem) : Prop :=
  ∀ n id p, m.calls n = some ⟨.start id, p⟩ → ∃ r, p = .done r

/-- Start `n` has returned that its run was completed or stopped. -/
def Succeeded (m : OfficeSystem) (n : Nat) : Prop :=
  ∃ id outcome, m.calls n = some ⟨.start id, .done (.ended (.ok outcome))⟩

/-- Start `n` of a task has returned the result of a run, after it had read the task again and saved
it. -/
structure Recorded (m : OfficeSystem) (id : TaskId) (n : Nat) : Prop where
  ran : ∃ result : RunResult, m.calls n = some ⟨.start id, .done (.ended (result.mapError .run))⟩
  reloaded : ∃ newer older t, m.log = newer ++ .answered n (.loadTask id) (.ok (some t)) :: older ∧
    Holds n older
  saved : ∃ t, .answered n (.saveTask t) (.ok ()) ∈ m.log

/-- **The books are right**, for a shelf that was there first. -/
structure Accounts (shelf : Shelf) (m : OfficeSystem) : Prop where
  /-- The engine shows how many starts returned that their run was completed or stopped. -/
  executions : m.state.engine.state.executions = .ofNat {n | Succeeded m n}.ncard
  /-- A stored task is the first one with the recorded runs on it; without any it is the first one. -/
  stored : ∀ id, m.state.shelf.find id =
    (shelf.find id).map fun t => t.afterRuns ((records id m.log).map Record.outcome)
  /-- Runs are recorded once. -/
  once : ∀ id, ((records id m.log).map Record.number).Nodup
  /-- They are those whose reload and save succeeded. -/
  recorded : ∀ id n, n ∈ (records id m.log).map Record.number ↔ Recorded m id n
  /-- A record says whether its start returned a success, and when the clock was read for it. -/
  told : ∀ id r, r ∈ records id m.log → .answered r.number .now r.date ∈ m.log ∧
    ∃ result : RunResult, r.success = result.isOk ∧
      m.calls r.number = some ⟨.start id, .done (.ended (result.mapError .run))⟩

section Accounts

variable {shelf : Shelf} {m : OfficeSystem} {m' : System} {n : Nat} {id : TaskId} {r : Record}

/-- Only starts finish. -/
theorem Call.start_of_finish {c : Call} {s : Stand} {e : Option String}
    (may : c.stands n s (.transition (.finish e))) : ∃ id, c = .start id := by
  cases c with
  | start id => exact ⟨id, rfl⟩
  | _ => cases s <;> cases may

/-- A call that is over was a start. -/
theorem start_of_past {e : Option String} (h : Reachable m') (hs : stand n m'.log = .past e) :
    ∃ id p, m'.calls n = some ⟨.start id, p⟩ := by
  obtain ⟨later, earlier, q, x, hl, before, after⟩ := Machine.phaseAt_came
    (P := fun s : Stand => s = .past e) hs nofun
  obtain rfl := finish_of_past before after
  obtain ⟨m₁, c, next, p, h₁, rfl, asks, hp⟩ := Reaches.call_at_answer h rfl hl
  obtain ⟨id, rfl⟩ := Call.start_of_finish (Reachable.stands h₁ asks)
  exact ⟨id, p, hp⟩

/-- A start that has returned and is over has returned the result of its run. -/
theorem result_of_past {e : Option String} {reply : Reply} (h : Reachable m')
    (ha : m'.calls n = some ⟨.start id, .done reply⟩) (hs : stand n m'.log = .past e) :
    ∃ result : RunResult, errorOf result = e ∧ reply = .ended (result.mapError .run) := by
  have goes := h.goes ha
  rw [hs] at goes
  cases reply with
  | ended r =>
      rcases goes with ⟨result, rfl, same⟩ | ⟨_, -, -, outside⟩
      · cases same
        exact ⟨result, rfl, rfl⟩
      · cases outside
  | _ => cases goes

/-- The starts that are counted are those that returned a success. -/
theorem mem_counted_iff_succeeded (h : Opened shelf m) (settled : Settled m) :
    n ∈ counted m.log ↔ Succeeded m n := by
  have reachable := h.reachable
  have past : n ∈ counted m.log ↔ stand n m.log = .past none := mem_counted_iff reachable
  rw [past]
  constructor
  · intro hs
    obtain ⟨id, p, ha⟩ := start_of_past reachable hs
    obtain ⟨reply, rfl⟩ := settled n id p ha
    obtain ⟨result, unfailed, rfl⟩ := result_of_past reachable ha hs
    cases result with
    | ok outcome => exact ⟨id, outcome, ha⟩
    | error f => cases unfailed
  · rintro ⟨id, outcome, ha⟩
    rcases reachable.goes ha with ⟨result, same, hs⟩ | ⟨_, -, same, -⟩
    · cases result with
      | ok outcome => exact hs
      | error f => cases same
    · cases same

/-- A run that noted itself down has returned its result, and as it noted it down. -/
theorem result_of_mem (h : Opened shelf m) (settled : Settled m) (hr : r ∈ records id m.log) :
    (∃ t, t.id = id ∧ .answered r.number (.saveTask t) (.ok ()) ∈ m.log) ∧ ∃ result : RunResult,
      r.success = result.isOk ∧
        m.calls r.number = some ⟨.start id, .done (.ended (result.mapError .run))⟩ := by
  obtain ⟨line, hline, of_line⟩ := List.mem_filterMap.mp hr
  obtain ⟨u, rfl, rfl, -⟩ := line_of_recordOf of_line
  refine ⟨⟨u, rfl, hline⟩, ?_⟩
  obtain ⟨_, _, _, _, _, p, -, -, -, ha⟩ := save_in_log h hline
  obtain ⟨reply, rfl⟩ := settled _ _ _ ha
  have noted := noted_of_mem h hr
  have goes : reply.Goes (stand r.number m.log) := h.reachable.goes ha
  -- where a start stands that was noted down, it is over, and so it has returned a result
  cases hs : stand r.number m.log with
  | past e =>
      obtain ⟨result, rfl, rfl⟩ := result_of_past h.reachable ha hs
      rw [hs] at noted
      exact ⟨result, noted.symm.trans (isNone_errorOf result), ha⟩
  | saved success =>
      rw [hs] at goes
      cases reply with
      | ended r => rcases goes with ⟨_, -, same⟩ | ⟨_, -, -, same⟩ <;> cases same
      | _ => cases goes
  | _ =>
      rw [hs] at noted
      exact noted.elim

/-- The date of a record was read off the clock by its start. -/
theorem clock_of_mem (h : Opened shelf m) (hr : r ∈ records id m.log) :
    .answered r.number .now r.date ∈ m.log := by
  obtain ⟨line, hline, of_line⟩ := List.mem_filterMap.mp hr
  obtain ⟨u, rfl, -, same⟩ := line_of_recordOf of_line
  obtain ⟨newer, older, t, date, success, p, hl, at_record, rfl, -⟩ := save_in_log h hline
  have read := dated_by_clock at_record
  have date_eq : r.date = date := congrArg Record.date same
  rw [hl, date_eq]
  exact List.mem_append_right _ (List.mem_cons_of_mem _ read)

/-- A run is in the records of its task exactly if its reload and its save succeeded. -/
theorem mem_records_iff (h : Opened shelf m) (settled : Settled m) :
    n ∈ (records id m.log).map Record.number ↔ Recorded m id n := by
  constructor
  · intro hn
    obtain ⟨r, hr, rfl⟩ := List.mem_map.mp hn
    obtain ⟨⟨u, rfl, hline⟩, result, -, ha⟩ := result_of_mem h settled hr
    obtain ⟨newer, older, t, date, success, p, hl, at_record, -, -⟩ := save_in_log h hline
    obtain ⟨newer', older', hl', held⟩ := reload_in_log (t := t) h
      (hl.trans (List.append_cons ..)) ha (by rw [at_record]; rfl)
    exact ⟨⟨result, ha⟩, ⟨newer', older', t, hl', held⟩, u, hline⟩
  · rintro ⟨⟨result, ha⟩, -, u, hline⟩
    obtain ⟨_, _, _, _, _, p, -, -, -, ha'⟩ := save_in_log h hline
    rw [ha] at ha'
    cases ha'
    exact List.mem_map.mpr ⟨_, List.mem_filterMap.mpr ⟨_, hline, if_pos rfl⟩, rfl⟩

/-- **The books are right whenever no start is under way**: whatever was called, however the steps
interleaved, and whatever failed. -/
theorem accounts_kept (h : Opened shelf m) (settled : Settled m) : Accounts shelf m where
  executions := by
    have shown : m.state.engine.state.executions = .ofNat (counted m.log).length :=
      executions_of_log h.reachable
    have once : (counted m.log).Nodup := counted_nodup h.reachable
    have same : {n | Succeeded m n} = ((counted m.log).toFinset : Set Nat) := by
      ext n
      simp [← mem_counted_iff_succeeded h settled]
    rw [shown, same, Set.ncard_coe_finset, List.toFinset_card_of_nodup once]
  stored := shelf_of_log h
  once := records_nodup h
  recorded id n := mem_records_iff h settled
  told _ _ hr := ⟨clock_of_mem h hr, (result_of_mem h settled hr).2⟩

end Accounts

/-! ## 5. A run that succeeds, one that fails, one that is refused -/

section Runs

/-- A shelf with one task. -/
def clicks : Shelf := Shelf.empty.put clickTask

/-- A run that succeeds, one that fails and a start that is refused, one after the other. -/
def threeStarts : OfficeSystem :=
  opening clicks |> Office.proceed (.ok ()) never 0 (.start ⟨0⟩)
    |> Office.proceed (.error (.device "mouse gone")) never 1 (.start ⟨0⟩)
    |> Office.proceed (.ok ()) never 2 (.start ⟨7⟩)

/-- The accounts of them. -/
theorem accounts_kept_thrice : ∃ m : OfficeSystem, Opened clicks m ∧ Settled m ∧ Accounts clicks m ∧
    m.state.engine.state.executions = 1 ∧ records ⟨0⟩ m.log = [⟨1, false, .epoch⟩, ⟨0, true, .epoch⟩] ∧
    m.state.shelf.find ⟨0⟩ = some (clickTask.afterRuns [(false, .epoch), (true, .epoch)]) := by
  have h : Opened clicks threeStarts :=
    ((Opened.proceed .here _ never 0 _).proceed _ never 1 _).proceed _ never 2 _
  have settled : Settled threeStarts := by
    intro k id p ha
    match k with
    | 0 => exact ⟨_, by cases ha; rfl⟩
    | 1 => exact ⟨_, by cases ha; rfl⟩
    | 2 => exact ⟨_, by cases ha; rfl⟩
    | k + 3 => cases ha
  have accounts := accounts_kept h settled
  have recorded : records ⟨0⟩ threeStarts.log = [⟨1, false, .epoch⟩, ⟨0, true, .epoch⟩] := rfl
  refine ⟨threeStarts, h, settled, accounts, rfl, recorded, ?_⟩
  rw [accounts.stored, recorded]
  rfl

end Runs
end Engine
end TaskReplay
