import Mathlib.Data.List.Induction
import TaskReplay.Proofs.Store.Catalog

/-!
# The catalog as a finite map

What a caller of the catalog may rely on, for calls one after the other from an empty store:

* `Records.Serves`, `Records.Plays` -- the calls as a finite map answers them;
* `InRange` -- tasks of which the columns lose nothing; `serves_as_finite_map` -- **for such tasks
  the store answers as the finite map**;
* `Recorded` -- a task was saved and not deleted since; `recorded_tasks_read_iff` -- **whether it can be
  read**, and whether the list can, for all tasks: one task that its row does not give back is enough
  to spoil the list, and nothing keeps such a task from being saved (`saved_unread`).
-/

namespace TaskReplay

/-! ## 1. A finite map -/

/-- **One call on a finite map.** -/
inductive Records.Serves (m : Records) (now : Timestamp) :
    Catalog.Call → Catalog.Reply → Records → Prop where
  | save {t : Task} (valid : t.problems = []) :
      Serves m now (.save t) (.task (.ok { t with updatedAt := now }))
        (m.put { t with updatedAt := now })
  | refuse {t : Task} (faulty : t.problems ≠ []) :
      Serves m now (.save t) (.task (.error (.validation t.problems))) m
  | get {id : TaskId} {t : Task} (found : m id = some t) : Serves m now (.get id) (.task (.ok t)) m
  | getNone {id : TaskId} (absent : m id = none) :
      Serves m now (.get id) (.task (.error (.notFound "Task" id.text))) m
  | list {ts : List Task} (listed : m.Listed ts) : Serves m now .list (.tasks (.ok ts)) m
  | switch {id : TaskId} {t : Task} (found : m id = some t) (on : Bool) :
      Serves m now (.setEnabled id on) (.task (.ok { t with enabled := on, updatedAt := now }))
        (Function.update m id (some { t with enabled := on, updatedAt := now }))
  | switchNone {id : TaskId} (absent : m id = none) (on : Bool) :
      Serves m now (.setEnabled id on) (.task (.error (.notFound "Task" id.text))) m
  | delete {id : TaskId} {t : Task} (found : m id = some t) :
      Serves m now (.delete id) (.done (.ok ())) (Function.update m id none)
  | deleteNone {id : TaskId} (absent : m id = none) :
      Serves m now (.delete id) (.done (.error (.notFound "Task" id.text))) m

/-- Calls one after the other on a finite map. -/
inductive Records.Plays : Records → Catalog.Calls → List Catalog.Reply → Records → Prop where
  | nil (m : Records) : Plays m [] [] m
  | cons {m m' m'' : Records} {now : Timestamp} {c : Catalog.Call} {r : Catalog.Reply}
      {cs : Catalog.Calls} {rs : List Catalog.Reply} (first : m.Serves now c r m')
      (later : Plays m' cs rs m'') : Plays m ((now, c) :: cs) (r :: rs) m''

/-! ## 2. Tasks of which the columns lose nothing -/

/-- **A task of which the columns lose nothing**: its steps nest at most 127 arrays and objects, its
times lie in years of four digits, its counter has a sign to spare. That finite confidences survive
printing and parsing is a matter of the library for JSON. -/
structure Task.InRange (t : Task) : Prop where
  shallow : t.nesting ≤ 127
  created : t.createdAt.FourDigit
  lastRun : ∀ time ∈ t.lastRunAt, time.FourDigit
  counted : t.runCount ≤ Store.countLimit
  exact : ∀ c ∈ Action.confidences t.actions, c.isFinite = true → Json.ExactSingle c

/-- A call that saves no other tasks. -/
def Catalog.Call.InRange : Catalog.Call → Prop
  | save t => t.InRange
  | _ => True

theorem Catalog.Call.InRange.exact {c : Catalog.Call} (h : c.InRange) : c.Exact := by
  cases c with
  | save t => exact Task.InRange.exact h
  | get | list | setEnabled | delete => trivial

/-! ## 3. Records of such tasks -/

namespace Records

variable {m : Records} {now : Timestamp} {c : Catalog.Call} {r : Catalog.Reply} {id : TaskId}
  {t : Task}

theorem allReadable_empty : empty.AllReadable := fun _ _ found => absurd found (by simp [empty])

/-- A record that takes the place of another keeps the time of its creation. -/
theorem AllReadable.put (all : m.AllReadable) (readable : t.Readable) : (m.put t).AllReadable := by
  intro id u found
  by_cases here : id = t.id
  · subst here
    rw [Records.put, Function.update_self, Option.some.injEq] at found
    subst found
    refine ⟨readable.shallow, ?_, readable.updated, readable.lastRun⟩
    show (((m t.id).map Task.createdAt).getD t.createdAt).FourDigit
    cases earlier : m t.id with
    | none => exact readable.created
    | some old => exact (all t.id old earlier).created
  · rw [Records.put, Function.update_of_ne here] at found
    exact all id u found

theorem AllReadable.drop (all : m.AllReadable) (id : TaskId) : (m.drop id).AllReadable := by
  intro other t found
  by_cases here : other = id
  · rw [here, Records.drop, Function.update_self] at found
    cases found
  · rw [Records.drop, Function.update_of_ne here] at found
    exact all other t found

/-- A call that saves tasks in range keeps all records readable. -/
theorem AllReadable.after (all : m.AllReadable) (clock : now.FourDigit) (range : c.InRange) :
    (m.after now c).AllReadable := by
  cases c with
  | get | list => exact all
  | delete id => exact all.drop id
  | save t =>
      rw [Records.after]
      split
      · exact all.put ⟨range.shallow, range.created, clock, range.lastRun⟩
      · exact all
  | setEnabled id on =>
      rw [Records.after]
      cases found : m.look id with
      | error e => exact all
      | ok t =>
          have readable := (look_eq_ok_iff.mp found).2
          exact all.put ⟨readable.shallow, readable.created, clock, readable.lastRun⟩

theorem AllReadable.look_eq (all : m.AllReadable) (found : m id = some t) : m.look id = .ok t :=
  look_eq_ok_iff.mpr ⟨found, all id t found⟩

/-- A record that is changed keeps the time of its creation anyway. -/
theorem put_changed {old : Task} (found : m t.id = some old) (same : old.createdAt = t.createdAt) :
    m.put t = Function.update m t.id (some t) := by
  simp [Records.put, dated, found, same]

/-- What a call on readable records answers is what the finite map answers. -/
theorem serves_of_answers (all : m.AllReadable) (own : ∀ id t, m id = some t → t.id = id)
    (range : c.InRange) (answers : m.Answers now r c) : m.Serves now c r (m.after now c) := by
  cases c with
  | save t =>
      rw [Records.after]
      by_cases valid : t.problems = []
      · rw [if_pos valid]
        simp only [Records.Answers, if_pos valid] at answers
        subst answers
        have kept : Task.kept { t with updatedAt := now } = { t with updatedAt := now } :=
          Task.kept_eq_of_le range.counted
        rw [kept]
        exact .save valid
      · rw [if_neg valid]
        simp only [Records.Answers, if_neg valid] at answers
        subst answers
        exact .refuse valid
  | get id =>
      subst answers
      cases found : m id with
      | none =>
          simp only [look, found]
          exact .getNone found
      | some t =>
          rw [all.look_eq found]
          exact .get found
  | setEnabled id on =>
      subst answers
      cases found : m id with
      | none =>
          have missing : m.look id = .error (Store.missing id) := by simp only [look, found]
          simp only [Records.after, missing, Except.map]
          exact .switchNone found on
      | some t =>
          obtain rfl := own id t found
          simp only [Records.after, all.look_eq found, Except.map]
          rw [put_changed (t := { t with enabled := on, updatedAt := now }) found rfl]
          exact .switch found on
  | delete id =>
      subst answers
      cases found : m id with
      | none =>
          have absent : m.drop id = m := Function.update_eq_self_iff.mpr found.symm
          simp only [Records.after, absent]
          exact .deleteNone found
      | some t => exact .delete found
  | list =>
      rcases answers with ⟨-, ts, rfl, listed⟩ | ⟨unreadable, -⟩
      · exact .list listed
      · exact absurd all unreadable

end Records

/-! ## 4. Calls one after the other -/

namespace Store

variable {s : Store} {m : Records} {ts : List Task} {now : Timestamp}
  {cs : Catalog.Calls}

theorem Holds.plays (h : Holds s m ts) (all : m.AllReadable)
    (range : ∀ x ∈ cs, x.1.FourDigit ∧ x.2.InRange) : ∃ m', m.Plays cs (s.serves cs).1 m' := by
  induction cs generalizing s m ts with
  | nil => exact ⟨m, .nil m⟩
  | cons x cs ih =>
      obtain ⟨⟨clock, first⟩, later⟩ := List.forall_mem_cons.mp range
      obtain ⟨⟨ts', h'⟩, answers⟩ := h.serve x.1 first.exact
      obtain ⟨m', plays⟩ := ih h' (all.after clock first) later
      exact ⟨m', .cons (Records.serves_of_answers all (fun _ _ found => (h.own found).1) first answers)
        plays⟩

/-- **The catalog answers as a finite map**, for tasks of which the columns lose nothing. -/
theorem serves_as_finite_map (range : ∀ x ∈ cs, x.1.FourDigit ∧ x.2.InRange) :
    ∃ m, Records.empty.Plays cs (empty.serves cs).1 m :=
  holds_empty.plays Records.allReadable_empty range

/-- A task with a confidence inside a branch. -/
def searching : Task := Task.ofActions
  [.condition (.named "outer") ⟨.imageVisible, some "ok", none, none⟩
    [.simple (.named "find") (.findImage "ok" (some 0.9) none none)] []]

theorem searching_inRange : searching.InRange where
  shallow := by decide
  created := by decide
  lastRun := by simp [searching, Task.ofActions]
  counted := by decide
  exact := by
    have named : Action.confidences searching.actions = [0.9] := rfl
    have exact : Json.ExactSingle 0.9 := by
      unfold Json.ExactSingle
      decide +kernel
    rw [named]
    exact List.forall_mem_singleton.mpr fun _ => exact

/-- The calls of a day: the task is saved, switched off, listed, read, deleted and looked for. -/
def oneDay : Catalog.Calls :=
  [.save searching, .setEnabled ⟨0⟩ false, .list, .get ⟨0⟩, .delete ⟨0⟩, .get ⟨0⟩].map (.epoch, ·)

theorem serves_as_finite_map_day :
    (∀ x ∈ oneDay, x.1.FourDigit ∧ x.2.InRange) ∧
      ∃ m, Records.empty.Plays oneDay (empty.serves oneDay).1 m := by
  have range : ∀ x ∈ oneDay, x.1.FourDigit ∧ x.2.InRange := by
    have clock : Timestamp.epoch.FourDigit := by decide
    simp [oneDay, clock, Catalog.Call.InRange, searching_inRange]
  exact ⟨range, serves_as_finite_map range⟩

end Store

/-! ## 5. Tasks that were saved -/

/-- The records after calls one after the other. -/
def Records.afterAll (m : Records) (cs : Catalog.Calls) : Records :=
  cs.foldl (fun m x => m.after x.1 x.2) m

/-- **A task was saved under an identifier and not deleted since.** -/
def Recorded (cs : Catalog.Calls) (id : TaskId) : Prop :=
  ∃ earlier now t later, cs = earlier ++ (now, .save t) :: later ∧ t.problems = [] ∧ t.id = id ∧
    ∀ x ∈ later, x.2 ≠ .delete id

section Recorded

variable {m : Records} {now : Timestamp} {c : Catalog.Call} {id : TaskId} {cs : Catalog.Calls}

theorem Records.isSome_put {t : Task} : (m.put t id).isSome ↔ id = t.id ∨ (m id).isSome := by
  by_cases here : id = t.id
  · simp [Records.put, here]
  · simp [Records.put, here]

/-- A record is there after a call if the call saved it, or left it there. -/
theorem Records.isSome_after (own : ∀ id t, m id = some t → t.id = id) :
    (m.after now c id).isSome ↔
      (∃ t, c = .save t ∧ t.problems = [] ∧ t.id = id) ∨ (m id).isSome ∧ c ≠ .delete id := by
  cases c with
  | get | list => simp [Records.after]
  | save t =>
      by_cases valid : t.problems = []
      · have saved : (m.after now (.save t) id).isSome ↔ id = t.id ∨ (m id).isSome := by
          rw [Records.after, if_pos valid]
          exact isSome_put
        rw [saved]
        constructor
        · rintro (rfl | there)
          · exact .inl ⟨t, rfl, valid, rfl⟩
          · exact .inr ⟨there, by simp⟩
        · rintro (⟨u, same, -, rfl⟩ | ⟨there, -⟩)
          · cases same
            exact .inl rfl
          · exact .inr there
      · simp [Records.after, valid]
  | setEnabled other on =>
      rw [Records.after]
      cases found : m.look other with
      | error e => simp
      | ok t =>
          obtain ⟨there, -⟩ := look_eq_ok_iff.mp found
          have already : id = t.id → (m id).isSome := by
            rintro rfl
            rw [own other t there, there]
            rfl
          simp only [isSome_put]
          simpa using already
  | delete other =>
      by_cases here : id = other
      · simp [Records.after, Records.drop, here]
      · have apart : other ≠ id := fun same => here same.symm
        simp [Records.after, Records.drop, here, apart]

theorem recorded_append :
    Recorded (cs ++ [(now, c)]) id ↔
      (∃ t, c = .save t ∧ t.problems = [] ∧ t.id = id) ∨ Recorded cs id ∧ c ≠ .delete id := by
  constructor
  · rintro ⟨earlier, time, t, later, split, valid, own, stays⟩
    rcases List.eq_nil_or_concat later with rfl | ⟨later, x, rfl⟩
    · obtain ⟨rfl, last⟩ := List.append_inj' split rfl
      cases last
      exact .inl ⟨t, rfl, valid, own⟩
    · rw [List.concat_eq_append, ← List.cons_append, ← List.append_assoc] at split
      rw [List.concat_eq_append] at stays
      obtain ⟨rfl, last⟩ := List.append_inj' split rfl
      cases last
      obtain ⟨before, kept⟩ := List.forall_mem_append.mp stays
      exact .inr ⟨⟨earlier, time, t, later, rfl, valid, own, before⟩, kept _ (.head _)⟩
  · rintro (⟨t, rfl, valid, own⟩ | ⟨⟨earlier, time, t, later, rfl, valid, own, stays⟩, kept⟩)
    · exact ⟨cs, now, t, [], rfl, valid, own, List.forall_mem_nil _⟩
    · refine ⟨earlier, time, t, later ++ [(now, c)], by simp, valid, own, ?_⟩
      exact List.forall_mem_append.mpr ⟨stays, List.forall_mem_singleton.mpr kept⟩

theorem Records.afterAll_append :
    m.afterAll (cs ++ [(now, c)]) = (m.afterAll cs).after now c := by
  simp [afterAll]

end Recorded

namespace Store

variable {s : Store} {m : Records} {ts : List Task} {cs : Catalog.Calls} {now : Timestamp}

theorem serves_append (s : Store) (cs : Catalog.Calls) (now : Timestamp) (c : Catalog.Call) :
    (s.serves (cs ++ [(now, c)])).2 = ((s.serves cs).2.serve now c).2 := by
  induction cs generalizing s with
  | nil => rfl
  | cons x cs ih => exact ih _

/-- What a store holds after calls on the empty store. -/
theorem holds_serves (exact : ∀ x ∈ cs, x.2.Exact) :
    (∃ ts, Holds (empty.serves cs).2 (Records.empty.afterAll cs) ts) ∧
      ∀ id, (Records.empty.afterAll cs id).isSome ↔ Recorded cs id := by
  induction cs using List.reverseRecOn with
  | nil =>
      refine ⟨⟨[], holds_empty⟩, fun id => iff_of_false Bool.false_ne_true ?_⟩
      rintro ⟨earlier, time, t, later, split, -⟩
      simp at split
  | append_singleton cs x ih =>
      obtain ⟨before, last⟩ := List.forall_mem_append.mp exact
      obtain ⟨⟨ts, h⟩, recorded⟩ := ih before
      obtain ⟨h', -⟩ := h.serve x.1 (last x (.head _))
      rw [serves_append, Records.afterAll_append]
      refine ⟨h', fun id => ?_⟩
      rw [Records.isSome_after fun _ _ found => (h.own found).1, recorded, recorded_append]

theorem Holds.get_answered_iff {id : TaskId} {t : Task} (h : Holds s m ts) (found : m id = some t) :
    (∃ u, (s.serve now (.get id)).1 = .task (.ok u)) ↔ t.Readable := by
  rw [serve_get, h.told]
  constructor
  · rintro ⟨u, given⟩
    obtain ⟨same, readable⟩ := Records.look_eq_ok_iff.mp (Catalog.Reply.task.inj given)
    rw [found, Option.some.injEq] at same
    exact same ▸ readable
  · intro readable
    exact ⟨t, by rw [Records.look_eq_ok_iff.mpr ⟨found, readable⟩]⟩

theorem Holds.list_answered_iff (h : Holds s m ts) :
    (∃ us, (s.serve now .list).1 = .tasks (.ok us)) ↔ m.AllReadable := by
  obtain ⟨all, us, given, -⟩ | ⟨unreadable, refused⟩ := (h.serve (c := .list) now trivial).2
  · exact iff_of_true ⟨us, given⟩ all
  · refine iff_of_false ?_ unreadable
    rintro ⟨us, given⟩
    rw [refused] at given
    cases given

/-- **Whether what was saved can be read**, after calls of any kind one after the other: what was saved
and not deleted is on record; it is given out if its row gives it back, and the list if all rows do. -/
theorem recorded_tasks_read_iff (exact : ∀ x ∈ cs, x.2.Exact) (now : Timestamp) :
    (∀ id, (Records.empty.afterAll cs id).isSome ↔ Recorded cs id) ∧
    (∀ id t, Records.empty.afterAll cs id = some t →
      ((∃ u, ((empty.serves cs).2.serve now (.get id)).1 = .task (.ok u)) ↔ t.Readable)) ∧
    ((∃ ts, ((empty.serves cs).2.serve now .list).1 = .tasks (.ok ts)) ↔
      (Records.empty.afterAll cs).AllReadable) := by
  obtain ⟨⟨ts, h⟩, recorded⟩ := holds_serves exact
  exact ⟨recorded, fun id t found => h.get_answered_iff found, h.list_answered_iff⟩

/-! ## 6. A task that is saved and not read -/

/-- A task from the year 10000. -/
def farTask : Task := { Task.ofActions [] with createdAt := ⟨⟨10000, 1, 1⟩, 0, 0, by decide⟩ }

/-- A task from 1970. -/
def nearTask : Task := { Task.ofActions [] with id := ⟨1⟩ }

/-- Both are saved. -/
def bothSaved : Catalog.Calls := [(.epoch, .save nearTask), (.epoch, .save farTask)]

theorem exact_bothSaved : ∀ x ∈ bothSaved, x.2.Exact := by
  simp [bothSaved, Catalog.Call.Exact, nearTask, farTask, Task.ofActions, Action.confidences,
    Action.walkAll]

theorem records_bothSaved : Records.empty.afterAll bothSaved ⟨1⟩ = some nearTask ∧
    Records.empty.afterAll bothSaved ⟨0⟩ = some farTask := by
  have both : Records.empty.afterAll bothSaved = (Records.empty.put nearTask).put farTask := rfl
  rw [both]
  exact ⟨rfl, rfl⟩

theorem farTask_unreadable : ¬ farTask.Readable := by decide

/-- One of them can be read; the other and the list cannot. -/
theorem recorded_tasks_read_both : (∀ x ∈ bothSaved, x.2.Exact) ∧
    (Recorded bothSaved ⟨1⟩ ∧ Recorded bothSaved ⟨0⟩) ∧
    (∃ u, ((empty.serves bothSaved).2.serve .epoch (.get ⟨1⟩)).1 = .task (.ok u)) ∧
    (¬ ∃ u, ((empty.serves bothSaved).2.serve .epoch (.get ⟨0⟩)).1 = .task (.ok u)) ∧
    ¬ ∃ ts, ((empty.serves bothSaved).2.serve .epoch .list).1 = .tasks (.ok ts) := by
  obtain ⟨recorded, get, list⟩ := recorded_tasks_read_iff exact_bothSaved .epoch
  obtain ⟨near, far⟩ := records_bothSaved
  refine ⟨exact_bothSaved, ⟨(recorded _).mp (by rw [near]; rfl), (recorded _).mp (by rw [far]; rfl)⟩,
    (get _ _ near).mpr (by decide), fun given => farTask_unreadable ((get _ _ far).mp given), ?_⟩
  exact fun given => farTask_unreadable (list.mp given _ _ far)

/-- **A task can be saved that cannot be read afterwards**, and then no list can. -/
theorem saved_unread : ¬ ∀ cs : Catalog.Calls, (∀ x ∈ cs, x.2.Exact) → ∀ now : Timestamp,
    (∀ id, Recorded cs id →
      ∃ t, ((empty.serves cs).2.serve now (.get id)).1 = .task (.ok t)) ∧
    ∃ ts, ((empty.serves cs).2.serve now .list).1 = .tasks (.ok ts) := by
  intro claim
  obtain ⟨⟨ts, h⟩, -⟩ := holds_serves exact_bothSaved
  have list := (claim bothSaved exact_bothSaved .epoch).2
  exact farTask_unreadable (h.list_answered_iff.mp list _ _ records_bothSaved.2)

end Store

end TaskReplay
