import TaskReplay.Proofs.Store.Ledger

/-!
# A run is recorded while its task is changed

At its end a run reads its task, notes itself down and writes the whole task back. Switching a task on
or off does the same, and a write makes a row where there is none. So two such calls can undo each
other, and a record can bring back a task that was deleted:

* `Shuffle` -- the history of two calls interleaves what each of them did;
* `Change.kept`, `Change.unharmed` -- that the store shows both, and the histories where it does;
* `shown_enable`, `shown_delete` -- what a record and a switch or a deletion leave behind, by their
  history;
* `record_and_change_kept_iff` -- with one record and one change, **nothing is lost exactly if the two
  were apart**, or the record came last and the switch stood as wished before; a deletion is undone
  exactly if it fell between the record's read and its write.
-/

namespace TaskReplay.Store

open Machine (Reaches anyone)

/-! ## 1. Two calls -/

/-- A list that interleaves two others. -/
inductive Shuffle {α : Type} : List α → List α → List α → Prop where
  | nil : Shuffle [] [] []
  | left {x : α} {xs ys zs : List α} (h : Shuffle xs ys zs) : Shuffle (x :: xs) ys (x :: zs)
  | right {y : α} {xs ys zs : List α} (h : Shuffle xs ys zs) : Shuffle xs (y :: ys) (y :: zs)

/-- The history of two calls interleaves theirs. -/
theorem shuffle_accesses {h : List (Nat × Access)} (only : ∀ n, 2 ≤ n → accesses n h = []) :
    Shuffle ((accesses 0 h).map (0, ·)) ((accesses 1 h).map (1, ·)) h := by
  induction h with
  | nil => exact .nil
  | cons e h ih =>
      obtain ⟨k, a⟩ := e
      have later (n : Nat) (hn : 2 ≤ n) : accesses n h = [] := by
        by_cases hk : n = k
        · subst hk
          have both := only n hn
          rw [accesses_self] at both
          cases both
        · rw [← accesses_of_ne hk (a := a)]
          exact only n hn
      match k, only with
      | 0, _ =>
          rw [accesses_self, accesses_of_ne (by decide)]
          exact (ih later).left
      | 1, _ =>
          rw [accesses_self, accesses_of_ne (by decide)]
          exact (ih later).right
      | k + 2, only =>
          have none := only (k + 2) (by omega)
          rw [accesses_self] at none
          cases none

theorem Shuffle.symm {α : Type} {xs ys zs : List α} (h : Shuffle xs ys zs) : Shuffle ys xs zs := by
  induction h with
  | nil => exact .nil
  | left _ ih => exact .right ih
  | right _ ih => exact .left ih

theorem shuffle_nil_left {α : Type} {ys zs : List α} (h : Shuffle [] ys zs) : zs = ys := by
  generalize hx : [] = xs at h
  induction h with
  | nil => rfl
  | left h ih => cases hx
  | right h ih => rw [ih hx]

/-- One element goes to one of two places beside another. -/
theorem shuffle_one_one {α : Type} {a b : α} {h : List α} (hs : Shuffle [a] [b] h) :
    h = [a, b] ∨ h = [b, a] := by
  cases hs with
  | left h => exact .inl (by rw [shuffle_nil_left h])
  | right h => exact .inr (by rw [shuffle_nil_left h.symm])

/-- One element goes to one of three places beside two. -/
theorem shuffle_two_one {α : Type} {a b c : α} {h : List α} (hs : Shuffle [a, b] [c] h) :
    h = [a, b, c] ∨ h = [a, c, b] ∨ h = [c, a, b] := by
  cases hs with
  | left h => rcases shuffle_one_one h with rfl | rfl <;> simp
  | right h => rw [shuffle_nil_left h.symm]; simp

/-- Two and two elements interleave in six ways. -/
theorem shuffle_two_two {α : Type} {a b c d : α} {h : List α} (hs : Shuffle [a, b] [c, d] h) :
    h = [a, b, c, d] ∨ h = [c, d, a, b] ∨ h = [a, c, b, d] ∨ h = [a, c, d, b] ∨
      h = [c, a, b, d] ∨ h = [c, a, d, b] := by
  cases hs with
  | left h =>
      cases h with
      | left h => rw [shuffle_nil_left h]; simp
      | right h => rcases shuffle_one_one h with rfl | rfl <;> simp
  | right h => rcases shuffle_two_one h with rfl | rfl | rfl <;> simp

/-! ## 2. What is kept -/

/-- Whether the store shows both a record of a run of `t` and a change of it. -/
def Change.kept (id : TaskId) (t : Task) (success : Bool) (s : Store) : Change → Prop
  | enable on => s.standing? id = some ⟨on, t.runCount + 1, some success⟩
  | delete => s.rows.get? id.text = none

/-- The histories of a record (0) and a change (1), latest access first, in which both are kept. -/
def Change.unharmed (t : Task) (h : List (Nat × Access)) : Change → Prop
  | enable on => t.runCount < countLimit ∧
      (h = [(0, .write), (0, .read), (1, .write), (1, .read)] ∨
        h = [(1, .write), (1, .read), (0, .write), (0, .read)] ∨
        h.head? = some (0, .write) ∧ t.enabled = on)
  | delete => h ≠ [(0, .write), (1, .write), (0, .read)]

section Kept

variable {id : TaskId} {t : Task} {s : Store} {m : System} {success : Bool} {c : Change}

/-- The two calls by number. -/
def pair (success : Bool) (c : Change) (n : Nat) : Call :=
  if n = 0 then .record success else .change c

theorem accesses_of_over {e : Call} {l : List Access} {o : Option Standing}
    (h : Account id e .ended l o) :
    e = .change .delete ∧ l = [.write] ∨
      e ≠ .change .delete ∧ (l = [.write, .read] ∨ l = [.read] ∧ o = none) := by
  cases h with
  | missed kind => exact .inr ⟨kind, .inr ⟨rfl, rfl⟩⟩
  | written kind o => exact .inr ⟨kind, .inl rfl⟩
  | deleted kind o => exact .inl ⟨kind, rfl⟩

/-- With both calls over and no others made, the books say what each has done. -/
theorem books_of_done {r r' : Reply} (h : Reaches (service id) anyone (Machine.initial s) m)
    (found : s.find id = .ok (some t)) (h₀ : m.calls 0 = some ⟨.record success, .done r⟩)
    (h₁ : m.calls 1 = some ⟨.change c, .done r'⟩) (only : ∀ n, 2 ≤ n → m.calls n = none) :
    Books id (pair success c) (some t.standing) m.state m.log ∧ progress 0 m.log = .ended ∧
      progress 1 m.log = .ended ∧
      Shuffle ((accesses 0 (history m.log)).map (0, ·)) ((accesses 1 (history m.log)).map (1, ·))
        (history m.log) := by
  obtain ⟨-, shown, -⟩ := standing_of_find found
  have follows := Machine.follows_of_reaches (fun _ c => program_follows id c) h
  have books := books_of_reaches (pair success c) h ⟨shown, nofun⟩ fun n a ha => by
    match n, ha with
    | 0, ha => rw [h₀] at ha; cases ha; rfl
    | 1, ha => rw [h₁] at ha; cases ha; rfl
    | n + 2, ha => rw [only (n + 2) (by omega)] at ha; cases ha
  refine ⟨books, (follows 0).2 _ h₀, (follows 1).2 _ h₁, shuffle_accesses fun n hn => ?_⟩
  have account := books.accounts n
  rw [show progress n m.log = .unread from (follows n).1 (only n hn)] at account
  generalize accesses n (history m.log) = l at account
  cases account
  rfl

/-- There is no row exactly if the store shows nothing. -/
theorem Shows.absent_iff {o : Option Standing} (h : Shows s id o) :
    s.rows.get? id.text = none ↔ o = none := by
  refine ⟨fun gone => ?_, h.absent⟩
  rw [← h.shown, standing?, gone]
  rfl

/-- What a record and a switch leave behind, by their history. -/
theorem shown_enable (st : Standing) (on : Bool) {l : List (Nat × Access)}
    (first : accesses 0 l = [.write, .read] ∨
      accesses 0 l = [.read] ∧ (desk (pair success (.enable on)) (some st) l).copies 0 = none)
    (second : accesses 1 l = [.write, .read] ∨
      accesses 1 l = [.read] ∧ (desk (pair success (.enable on)) (some st) l).copies 1 = none)
    (shuffle : Shuffle ((accesses 0 l).map (0, ·)) ((accesses 1 l).map (1, ·)) l) :
    (desk (pair success (.enable on)) (some st) l).shown = some
      (if l = [(0, .write), (0, .read), (1, .write), (1, .read)] then
        ⟨on, capped (capped st.runs + 1), some success⟩
      else if l = [(1, .write), (1, .read), (0, .write), (0, .read)] then
        ⟨on, capped (capped (st.runs + 1)), some success⟩
      else if l.head? = some (0, .write) then ⟨st.enabled, capped (st.runs + 1), some success⟩
      else ⟨on, capped st.runs, st.success⟩) := by
  rcases first with first | ⟨first, none₀⟩ <;> rcases second with second | ⟨second, none₁⟩ <;>
    rw [first, second] at shuffle
  · rcases shuffle_two_two shuffle with rfl | rfl | rfl | rfl | rfl | rfl <;> rfl
  · rcases shuffle_two_one shuffle with rfl | rfl | rfl <;> cases none₁
  · rcases shuffle_two_one shuffle.symm with rfl | rfl | rfl <;> cases none₀
  · rcases shuffle_one_one shuffle with rfl | rfl <;> cases none₀

/-- What a record and a deletion leave behind, by their history. -/
theorem shown_delete (st : Standing) {l : List (Nat × Access)}
    (first : accesses 0 l = [.write, .read] ∨ accesses 0 l = [.read])
    (second : accesses 1 l = [.write])
    (shuffle : Shuffle ((accesses 0 l).map (0, ·)) ((accesses 1 l).map (1, ·)) l) :
    (desk (pair success .delete) (some st) l).shown = none ↔
      l ≠ [(0, .write), (1, .write), (0, .read)] := by
  rcases first with first | first <;> rw [first, second] at shuffle
  · rcases shuffle_two_one shuffle with rfl | rfl | rfl
    · exact iff_of_true rfl (by simp)
    · exact iff_of_false (Option.some_ne_none _) (by simp)
    · exact iff_of_true rfl (by simp)
  · rcases shuffle_one_one shuffle with rfl | rfl
    · exact iff_of_true rfl (by simp)
    · exact iff_of_true rfl (by simp)

/-- **When a record and a change are both kept.** -/
theorem record_and_change_kept_iff {r r' : Reply}
    (h : Reaches (service id) anyone (Machine.initial s) m)
    (found : s.find id = .ok (some t)) (h₀ : m.calls 0 = some ⟨.record success, .done r⟩)
    (h₁ : m.calls 1 = some ⟨.change c, .done r'⟩) (only : ∀ n, 2 ≤ n → m.calls n = none) :
    c.kept id t success m.state ↔ c.unharmed t (history m.log) := by
  obtain ⟨-, -, fits⟩ := standing_of_find found
  obtain ⟨books, ended₀, ended₁, shuffle⟩ := books_of_done h found h₀ h₁ only
  have shows := books.shows
  have account₀ := books.accounts 0
  have account₁ := books.accounts 1
  rw [ended₀] at account₀
  rw [ended₁] at account₁
  generalize history m.log = l at shows account₀ account₁ shuffle ⊢
  have first := accesses_of_over account₀
  have second := accesses_of_over account₁
  clear account₀ account₁
  cases c with
  | enable on =>
      have one := first.resolve_left fun deletes => by cases deletes.1
      have two := second.resolve_left fun deletes => by cases deletes.1
      show m.state.standing? id = _ ↔ _
      rw [shows.shown, shown_enable _ on one.2 two.2 shuffle]
      have lost : t.runCount ≠ t.runCount + 1 := by simp
      have fit := capped_succ_iff fits
      by_cases recordLast : l = [(0, .write), (0, .read), (1, .write), (1, .read)]
      · simp [Change.unharmed, recordLast, Task.standing, fits, fit]
      · by_cases changeLast : l = [(1, .write), (1, .read), (0, .write), (0, .read)]
        · simp [Change.unharmed, changeLast, Task.standing, capped_capped, fit]
        · by_cases ended : l.head? = some (0, .write)
          · simp [Change.unharmed, recordLast, changeLast, ended, Task.standing, fit, and_comm]
          · simp [Change.unharmed, recordLast, changeLast, ended, Task.standing, fits, lost]
  | delete =>
      show m.state.rows.get? id.text = none ↔ _
      rw [shows.absent_iff]
      have one := first.resolve_left fun deletes => by cases deletes.1
      have two := second.resolve_right fun other => other.1 rfl
      exact shown_delete _ (one.2.imp_right And.left) two.2 shuffle

end Kept

/-! ## 3. A record before a deletion, and around it -/

section Samples

/-- A task without steps. -/
def sample : Task := .ofActions []

/-- A store with that task. -/
def stored : Store := Store.empty.save sample

theorem find_stored : stored.find ⟨0⟩ = .ok (some sample) := by
  have key : (Uuid.mk 0).text == sample.id.text := beq_self_eq_true _
  have row : stored.rows.get? (Uuid.mk 0).text = some (Row.ofTask sample) := by
    rw [stored, get?_save, if_pos key]
    rfl
  have instant : Timestamp.strict? (Row.instant .epoch) = some .epoch := by decide +kernel
  have actions : Json.readAs? .whole Action.listOf? (Json.array (Action.listJson [])).print =
      some [] := by rfl
  have count : Row.counter? (Row.counter 0) = some 0 := by decide
  have read : (Row.ofTask sample).toTask? (Uuid.mk 0).text = some sample := by
    simp [Row.toTask?, Row.ofTask, sample, Task.ofActions, Uuid.ofText?_text, flag?_flag, instant,
      actions, count, Row.optional]
  rw [find, row]
  show (decode _ _).map some = _
  rw [decode, read]
  rfl

/-- A record that has written, or has failed to. -/
def noted (id : TaskId) : Except Failure Unit → Prog Question Question.Answer Reply
  | .ok () => .done .recorded
  | .error e => .ask (.inl (.log (.saveFailed id e))) fun _ => .done .recorded

/-- A record that has read the task. -/
def noting (id : TaskId) (success : Bool) (t : Task) : Prog Question Question.Answer Reply :=
  .ask (.inl .now) fun now => .ask (.inl (.saveTask (t.recordRun success now))) (noted id)

/-- A record that was given its task, or was not. -/
def given (id : TaskId) (success : Bool) :
    Except Failure (Option Task) → Prog Question Question.Answer Reply
  | .ok (some t) => noting id success t
  | .ok none => .ask (.inl (.log (.taskVanished id))) fun _ => .done .recorded
  | .error e => .ask (.inl (.log (.reloadFailed id e))) fun _ => .done .recorded

/-- What a record does: it reads the task first. -/
theorem record_program (id : TaskId) (success : Bool) :
    Call.program id (.record success) = .ask (.inl (.loadTask id)) (given id success) := by
  show Prog.ask (Sum.inl (EngineRequest.loadTask id) : Question) _ = Prog.ask _ _
  congr 1
  funext x
  cases x with
  | error e => rfl
  | ok found =>
      cases found with
      | none => rfl
      | some t =>
          show Prog.ask (Sum.inl EngineRequest.now : Question) _ = Prog.ask _ _
          congr 1
          funext now
          show Prog.ask (Sum.inl (EngineRequest.saveTask (t.recordRun success now)) : Question) _ =
            Prog.ask _ _
          congr 1
          funext y
          cases y <;> rfl

/-- A record reads the task first. -/
theorem reads_alone (n : Nat) : Alone (service ⟨0⟩) n stored (Call.program ⟨0⟩ (.record true))
    [.answered n (.inl (.loadTask ⟨0⟩)) (.ok (some sample))] stored (noting ⟨0⟩ true sample) := by
  rw [record_program]
  have asks : Alone (service ⟨0⟩) n stored (.ask (.inl (.loadTask ⟨0⟩)) (given ⟨0⟩ true)) [] stored
      (.ask (.inl (.loadTask ⟨0⟩)) (given ⟨0⟩ true)) := .here
  exact asks.answer (.ok (some sample)) ⟨find_stored.symm, rfl⟩

/-- Then it writes it back, whatever the store is by then. -/
theorem writes_alone (n : Nat) (s : Store) : Alone (service ⟨0⟩) n s (noting ⟨0⟩ true sample)
    [.answered n (.inl (.saveTask (sample.recordRun true .epoch))) (.ok ()),
      .answered n (.inl .now) .epoch] (s.save (sample.recordRun true .epoch)) (.done .recorded) := by
  have asks : Alone (service ⟨0⟩) n s (noting ⟨0⟩ true sample) [] s (.ask (.inl .now) _) := .here
  have dates : Alone (service ⟨0⟩) n s (noting ⟨0⟩ true sample) _ s
      (.ask (.inl (.saveTask (sample.recordRun true .epoch))) (noted ⟨0⟩)) :=
    asks.answer Timestamp.epoch trivial
  exact dates.answer (.ok ()) rfl

/-- A deletion of a stored task by itself. -/
theorem deletes_alone (n : Nat) {s s' : Store} (hd : s.delete ⟨0⟩ = .ok s') :
    Alone (service ⟨0⟩) n s (Call.program ⟨0⟩ (.change .delete))
      [.answered n (.inr (.delete ⟨0⟩)) (.ok ())] s' (.done (.deleted (.ok ()))) := by
  have asks : Alone (service ⟨0⟩) n s (Call.program ⟨0⟩ (.change .delete)) [] s
      (.ask (.inr (.delete ⟨0⟩)) _) := .here
  have allowed : Allows s (.inr (.delete ⟨0⟩)) (.ok ()) := by
    show _ = (s.delete ⟨0⟩).map fun _ => ()
    rw [hd]
    rfl
  have state : (service ⟨0⟩).after s (.inr (.delete ⟨0⟩)) (.ok ()) = s' := after_deleted hd
  have deleted := asks.answer (.ok ()) allowed
  rw [state] at deleted
  exact deleted

theorem exists_row_save (s : Store) (t : Task) : ∃ row, (s.save t).rows.get? t.id.text = some row :=
  ⟨_, (get?_save s t t.id.text).trans (if_pos (beq_self_eq_true _))⟩

theorem delete_of_row {s : Store} {id : TaskId} {row : Row} (h : s.rows.get? id.text = some row) :
    s.delete id = .ok { s with rows := s.rows.erase id.text } := by
  rw [delete, h]

/-- A record that is over before the task is deleted. -/
theorem record_and_change_kept_apart : ∃ m : System,
    Reaches (service ⟨0⟩) anyone (Machine.initial stored) m ∧
    stored.find ⟨0⟩ = .ok (some sample) ∧ m.calls 0 = some ⟨.record true, .done .recorded⟩ ∧
    m.calls 1 = some ⟨.change .delete, .done (.deleted (.ok ()))⟩ ∧
    (∀ n, 2 ≤ n → m.calls n = none) ∧ history m.log = [(1, .write), (0, .write), (0, .read)] ∧
    Change.kept ⟨0⟩ sample true m.state .delete := by
  let m₀ : System := Machine.initial stored
  obtain ⟨m₁, h₁, state₁, done₁, log₁, stay₁⟩ := Machine.Reaches.call_alone (S := service ⟨0⟩)
    (m := m₀) (c := .record true) anyone (fun _ _ => trivial) rfl
    ((reads_alone 0).trans (writes_alone 0 stored))
  obtain ⟨row, hrow⟩ := exists_row_save stored (sample.recordRun true .epoch)
  rw [← state₁] at hrow
  obtain ⟨m₂, h₂, state₂, done₂, log₂, stay₂⟩ := Machine.Reaches.call_alone (S := service ⟨0⟩)
    (m := m₁) (c := .change .delete) anyone (fun _ _ => trivial) (stay₁ 1 (by decide))
    (deletes_alone 1 (delete_of_row hrow))
  have h : Reaches (service ⟨0⟩) anyone m₀ m₂ := h₁.trans h₂
  have record : m₂.calls 0 = some ⟨.record true, .done .recorded⟩ := by
    rw [stay₂ 0 (by decide), done₁]
  have only (n : Nat) (hn : 2 ≤ n) : m₂.calls n = none := by
    rw [stay₂ n (by omega), stay₁ n (by omega)]
    rfl
  have past : history m₂.log = [(1, .write), (0, .write), (0, .read)] := by
    rw [log₂, log₁]
    rfl
  refine ⟨m₂, h, find_stored, record, done₂, only, past, ?_⟩
  refine (record_and_change_kept_iff h find_stored record done₂ only).mpr ?_
  rw [past]
  simp [Change.unharmed]

/-- **A record can bring back a task that was deleted.** -/
theorem deletion_undone : ¬ ∀ (id : TaskId) (s : Store) (m : System) (t : Task) (success : Bool)
    (c : Change) (r r' : Reply), Reaches (service id) anyone (Machine.initial s) m →
      s.find id = .ok (some t) → m.calls 0 = some ⟨.record success, .done r⟩ →
      m.calls 1 = some ⟨.change c, .done r'⟩ → (∀ n, 2 ≤ n → m.calls n = none) →
      c.kept id t success m.state := by
  intro claim
  let m₀ : System := Machine.initial stored
  obtain ⟨m₁, h₁, state₁, reads₁, -, stay₁⟩ := Machine.Reaches.call_alone (S := service ⟨0⟩)
    (m := m₀) (c := .record true) anyone (fun _ _ => trivial) rfl
    (reads_alone 0)
  obtain ⟨row, hrow⟩ := exists_row_save .empty sample
  rw [← stored, ← state₁] at hrow
  obtain ⟨m₂, h₂, -, done₂, -, stay₂⟩ := Machine.Reaches.call_alone (S := service ⟨0⟩)
    (m := m₁) (c := .change .delete) anyone (fun _ _ => trivial) (stay₁ 1 (by decide))
    (deletes_alone 1 (delete_of_row hrow))
  have holds := (stay₂ 0 (by decide)).trans reads₁
  obtain ⟨m₃, h₃, state₃, done₃, -, stay₃⟩ := Machine.Reaches.alone (S := service ⟨0⟩) anyone
    (fun _ _ => trivial) holds (writes_alone 0 m₂.state)
  have deleted : m₃.calls 1 = some ⟨.change .delete, .done (.deleted (.ok ()))⟩ := by
    rw [stay₃ 1 (by decide), done₂]
  have only (n : Nat) (hn : 2 ≤ n) : m₃.calls n = none := by
    rw [stay₃ n (by omega), stay₂ n (by omega), stay₁ n (by omega)]
    rfl
  have gone : m₃.state.rows.get? (Uuid.mk 0).text = none :=
    claim _ _ _ _ _ _ _ _ ((h₁.trans h₂).trans h₃) find_stored done₃ deleted only
  obtain ⟨back, hback⟩ := exists_row_save m₂.state (sample.recordRun true .epoch)
  rw [state₃] at gone
  cases gone.symm.trans hback

end Samples

end TaskReplay.Store
