import TaskReplay.Proofs.Store.FiniteMap

/-!
# What a save answers and what is stored

A call that saves a task answers the task it was given, stamped, and does not look at the row again. Of a
row that was there before, the time of creation stays, and the answer does not know.

* `Row.toTask?_createdAt` -- a row that is read as a task is read as the same task with another time of
  creation, if that can be read;
* `find_save` -- **what is found after a save**, on any store;
* `saved_is_stored_iff` -- a save answers what is stored if the identifier is new or the time of
  creation is the one of the row; to switch a task answers what is stored in any case.
-/

namespace TaskReplay.Store

/-! ## 1. The time of creation -/

/-- A row is read column by column: with another time of creation, the task is otherwise the same. -/
theorem Row.toTask?_createdAt {key : String} {r : Row} {t : Task} (h : r.toTask? key = some t)
    (text : String) :
    ({ r with createdAt := text } : Row).toTask? key =
      (Timestamp.strict? text).map fun time => { t with createdAt := time } := by
  simp only [toTask?, Option.bind_eq_bind, Option.bind_eq_some_iff, Option.pure_def,
    Option.some.injEq] at h
  obtain ⟨id, hid, enabled, he, actions, ha, created, -, updated, hu, count, hc, last, hl, success,
    hs, rfl⟩ := h
  simp only [toTask?, hid, he, ha, hu, hc, hl, hs, Option.bind_eq_bind, Option.bind_some,
    Option.pure_def]
  cases Timestamp.strict? text <;> rfl

/-- The task that is read after it was saved over a row. -/
def reread (t : Task) : Option Row → Except Failure (Option Task)
  | none => .ok (some t)
  | some old =>
    match Timestamp.strict? old.createdAt with
    | some time => .ok (some { t with createdAt := time })
    | none => .error (.storage .unreadableRow)

variable {s : Store} {now later : Timestamp} {t : Task} {id : TaskId}

/-- **What is found after a save**: the task, with the time of creation of the row that was there. -/
theorem find_save (saved : t.kept = t) (lossless : t.Lossless) (readable : t.Readable) :
    (s.save t).find t.id = reread t (s.rows.get? t.id.text) := by
  have own : (Row.ofTask t).toTask? t.id.text = some t := by
    rw [Row.toTask?_ofTask lossless, if_pos readable, saved]
  rw [find, get?_save, if_pos (beq_self_eq_true _)]
  cases s.rows.get? t.id.text with
  | none =>
      simp only [Row.over, decode, own, reread]
      rfl
  | some old =>
      simp only [Row.over, decode, Row.toTask?_createdAt own, reread]
      cases Timestamp.strict? old.createdAt <;> rfl

/-! ## 2. What is answered -/

/-- A save is answered with what is then stored if nothing was there before, or a row with the same
time of creation. -/
theorem told_reread_iff {old : Option Row} :
    told t.id (reread t old) = .ok t ↔
      ∀ row, old = some row → Timestamp.strict? row.createdAt = some t.createdAt := by
  cases old with
  | none => simp [reread, told]
  | some row =>
      cases read : Timestamp.strict? row.createdAt with
      | none => simp [reread, read, told]
      | some time =>
          have same : { t with createdAt := time } = t ↔ time = t.createdAt :=
            ⟨fun same => congrArg Task.createdAt same, fun same => same ▸ rfl⟩
          simp [reread, read, told, same]

/-- If it is another task, then in its time of creation only. -/
theorem eq_of_told_reread {old : Option Row} {u : Task} (h : told t.id (reread t old) = .ok u) :
    u = { t with createdAt := u.createdAt } := by
  cases old with
  | none =>
      cases h
      rfl
  | some row =>
      cases read : Timestamp.strict? row.createdAt with
      | none => simp [reread, read, told] at h
      | some time =>
          simp only [reread, read, told, Except.ok.injEq] at h
          subst h
          rfl

/-- A task that was found has the time of creation of its row. -/
theorem createdAt_of_find (found : s.find id = .ok (some t)) :
    ∃ row, s.rows.get? id.text = some row ∧ Timestamp.strict? row.createdAt = some t.createdAt := by
  unfold find at found
  split at found
  · next row there =>
    unfold decode at found
    split at found
    · next own =>
      cases found
      have again := Row.toTask?_createdAt own row.createdAt
      rw [show ({ row with createdAt := row.createdAt } : Row) = row from rfl, own] at again
      obtain ⟨time, read, same⟩ := Option.map_eq_some_iff.mp again.symm
      exact ⟨row, there, by rw [read]; exact congrArg (some ·.createdAt) same⟩
    · cases found
  · cases found

/-- A task that is switched was found. -/
theorem find_of_switched {on : Bool} {u : Task}
    (answered : (s.serve now (.setEnabled id on)).1 = .task (.ok u)) :
    ∃ t, s.find id = .ok (some t) ∧ u = { t with enabled := on, updatedAt := now } := by
  rw [serve_setEnabled] at answered
  cases found : s.find id with
  | error e => rw [found] at answered; cases answered
  | ok o =>
      rw [found] at answered
      cases o with
      | none => cases answered
      | some t => cases answered; exact ⟨t, rfl, rfl⟩

/-- A task that was found is switched: what is answered is what is stored. -/
theorem switched_read {on : Bool} (found : s.find id = .ok (some t))
    (saved : ({ t with enabled := on, updatedAt := now } : Task).kept =
      { t with enabled := on, updatedAt := now })
    (lossless : t.Lossless)
    (readable : ({ t with enabled := on, updatedAt := now } : Task).Readable) :
    ((s.serve now (.setEnabled id on)).2.serve later (.get id)).1 =
      .task (.ok { t with enabled := on, updatedAt := now }) := by
  obtain ⟨rfl, -, -⟩ := standing_of_find found
  obtain ⟨row, there, read⟩ := createdAt_of_find found
  have after := find_save (s := s) saved lossless readable
  rw [serve_setEnabled, found, serve_get]
  show Catalog.Reply.task (told t.id ((s.save { t with enabled := on, updatedAt := now }).find t.id)) = _
  rw [after]
  refine congrArg _ (told_reread_iff.mpr fun row' there' => ?_)
  cases there.symm.trans there'
  exact read

/-- **A save answers what is stored**, for tasks of which the columns lose nothing, on any store:
exactly if the identifier is new or the row that was there has the time of creation that was given;
else the answer is wrong about that time and nothing else. To switch a task on or off answers what is
stored in any case, and if only the catalog wrote the store, whatever the task. -/
theorem saved_is_stored_iff (clock : now.FourDigit) (s : Store) (later : Timestamp) :
    (∀ t u : Task, t.InRange → (s.serve now (.save t)).1 = .task (.ok u) →
      (((s.serve now (.save t)).2.serve later (.get t.id)).1 = .task (.ok u) ↔
        ∀ row, s.rows.get? t.id.text = some row →
          Timestamp.strict? row.createdAt = some t.createdAt) ∧
      ∀ v, ((s.serve now (.save t)).2.serve later (.get t.id)).1 = .task (.ok v) →
        v = { u with createdAt := v.createdAt }) ∧
    (∀ id on (u : Task), u.InRange → (∀ c ∈ Action.confidences u.actions, c.isFinite = true) →
      (s.serve now (.setEnabled id on)).1 = .task (.ok u) →
        ((s.serve now (.setEnabled id on)).2.serve later (.get id)).1 = .task (.ok u)) ∧
    ∀ cs : Catalog.Calls, (∀ x ∈ cs, x.2.Exact) → s = (empty.serves cs).2 →
      ∀ id on (u : Task), (s.serve now (.setEnabled id on)).1 = .task (.ok u) →
        ((s.serve now (.setEnabled id on)).2.serve later (.get id)).1 = .task (.ok u) := by
  refine ⟨fun t u range answered => ?_, fun id on u range finite answered => ?_,
    fun cs exact written id on u answered => ?_⟩
  · rw [serve_save] at answered ⊢
    by_cases valid : t.problems = []
    · rw [if_pos valid] at answered ⊢
      cases answered
      have lossless : t.Lossless := Task.lossless_of_valid valid range.exact
      have saved : ({ t with updatedAt := now } : Task).kept = { t with updatedAt := now } :=
        Task.kept_eq_of_le range.counted
      have after := find_save (s := s) saved lossless ⟨range.shallow, range.created, clock, range.lastRun⟩
      rw [serve_get]
      show (Catalog.Reply.task (told t.id ((s.save { t with updatedAt := now }).find t.id)) = _ ↔ _) ∧
        ∀ v, Catalog.Reply.task (told t.id ((s.save { t with updatedAt := now }).find t.id)) = _ → _
      simp only [after, Catalog.Reply.task.injEq]
      exact ⟨told_reread_iff, fun v read => eq_of_told_reread read⟩
    · rw [if_neg valid] at answered
      cases answered
  · obtain ⟨t, found, rfl⟩ := find_of_switched answered
    exact switched_read found (Task.kept_eq_of_le range.counted) (fun c hc => range.exact c hc (finite c hc))
      ⟨range.shallow, range.created, clock, range.lastRun⟩
  · obtain ⟨t, found, rfl⟩ := find_of_switched answered
    obtain ⟨⟨ts, h⟩, -⟩ := holds_serves exact
    rw [← written] at h
    have looked : (Records.empty.afterAll cs).look id = .ok t := by rw [← h.told, found]; rfl
    obtain ⟨recorded, readable⟩ := Records.look_eq_ok_iff.mp looked
    have saved := (h.own recorded).2
    have again : Task.Saved { t with enabled := on, updatedAt := now } :=
      ⟨saved.valid, saved.lossless, saved.counted⟩
    exact switched_read found again.kept_eq saved.lossless
      ⟨readable.shallow, readable.created, clock, readable.lastRun⟩

/-! ## 3. A task that is saved twice -/

/-- A task without steps that was created at that time. -/
def blank (created : Timestamp) : Task := { Task.ofActions [] with createdAt := created }

/-- The store once the task was saved. -/
def shelf : Store := (empty.serves [(.epoch, .save (blank .epoch))]).2

variable {created : Timestamp}

theorem confidences_blank : Action.confidences (blank created).actions = [] := by
  simp [blank, Task.ofActions, Action.confidences, Action.walkAll]

theorem blank_inRange (year : created.FourDigit) : (blank created).InRange where
  shallow := (by decide : (Task.ofActions []).nesting ≤ 127)
  created := year
  lastRun := by simp [blank, Task.ofActions]
  counted := (by decide : (Task.ofActions []).runCount ≤ countLimit)
  exact := by simp [confidences_blank]

theorem serve_save_blank (s : Store) :
    s.serve .epoch (.save (blank created)) = (.task (.ok (blank created)), s.save (blank created)) := by
  have valid : (blank created).problems = [] := (by decide : (Task.ofActions []).problems = [])
  rw [serve_save, if_pos valid]
  rfl

theorem find_save_blank (s : Store) (year : created.FourDigit) :
    (s.save (blank created)).find (blank created).id =
      reread (blank created) (s.rows.get? (blank created).id.text) :=
  find_save (Task.kept_eq_of_le (blank_inRange year).counted)
    (fun c hc => by simp [confidences_blank] at hc)
    ⟨(blank_inRange year).shallow, year, (by decide : Timestamp.epoch.FourDigit),
      (blank_inRange year).lastRun⟩

theorem shelf_eq : shelf = empty.save (blank .epoch) :=
  congrArg Prod.snd (serve_save_blank empty)

theorem shelf_row : shelf.rows.get? (blank .epoch).id.text = some (Row.ofTask (blank .epoch)) := by
  rw [shelf_eq, get?_save, if_pos (beq_self_eq_true _)]
  rfl

theorem saved_is_stored_again :
    Timestamp.epoch.FourDigit ∧
      ((shelf.serve .epoch (.save (blank .epoch))).1 = .task (.ok (blank .epoch)) ∧
        ((shelf.serve .epoch (.save (blank .epoch))).2.serve .epoch (.get (blank .epoch).id)).1 =
          .task (.ok (blank .epoch))) ∧
      (shelf.serve .epoch (.setEnabled ⟨0⟩ false)).1 =
        .task (.ok { blank .epoch with enabled := false }) ∧
      ((shelf.serve .epoch (.setEnabled ⟨0⟩ false)).2.serve .epoch (.get ⟨0⟩)).1 =
        .task (.ok { blank .epoch with enabled := false }) := by
  have clock : Timestamp.epoch.FourDigit := by decide
  obtain ⟨saved, -, switched⟩ := saved_is_stored_iff clock shelf .epoch
  have told : (shelf.serve .epoch (.save (blank .epoch))).1 = .task (.ok (blank .epoch)) :=
    congrArg Prod.fst (serve_save_blank shelf)
  have found : shelf.find ⟨0⟩ = .ok (some (blank .epoch)) := by
    rw [shelf_eq]
    exact find_save_blank empty clock
  have off : (shelf.serve .epoch (.setEnabled ⟨0⟩ false)).1 =
      .task (.ok { blank .epoch with enabled := false }) := by
    rw [serve_setEnabled, found]
    rfl
  refine ⟨clock, ⟨told, (saved _ _ (blank_inRange clock) told).1.mpr fun row there => ?_⟩, off,
    switched [(.epoch, .save (blank .epoch))] ?_ rfl _ _ _ off⟩
  · obtain rfl := Option.some.inj (shelf_row.symm.trans there)
    exact (Row.strict?_instant .epoch).trans (if_pos clock)
  · simp [Catalog.Call.Exact, confidences_blank]

/-- The day after the first. -/
def nextDay : Timestamp := ⟨⟨1970, 1, 2⟩, 0, 0, by decide⟩

/-- The task is given a later time of creation, the answer has it, and the store keeps the earlier
one. -/
theorem later_creation_lost :
    ¬ ∀ (s : Store) (now later : Timestamp) (t u : Task), now.FourDigit → t.InRange →
      (s.serve now (.save t)).1 = .task (.ok u) →
        ((s.serve now (.save t)).2.serve later (.get t.id)).1 = .task (.ok u) := by
  intro stored
  have clock : Timestamp.epoch.FourDigit := by decide
  have year : nextDay.FourDigit := by decide
  have again := stored shelf .epoch .epoch (blank nextDay) (blank nextDay) clock (blank_inRange year)
    (congrArg Prod.fst (serve_save_blank shelf))
  have kept : (shelf.save (blank nextDay)).find (blank nextDay).id = .ok (some (blank .epoch)) := by
    rw [find_save_blank shelf year, show (blank nextDay).id.text = (blank .epoch).id.text from rfl,
      shelf_row, reread, show (Row.ofTask (blank .epoch)).createdAt = Row.instant .epoch from rfl,
      Row.strict?_instant, if_pos clock]
    rfl
  rw [serve_save_blank, serve_get, kept] at again
  have same : blank .epoch = blank nextDay := by simpa [told] using again
  exact absurd (congrArg Task.createdAt same) (by decide)

end TaskReplay.Store
