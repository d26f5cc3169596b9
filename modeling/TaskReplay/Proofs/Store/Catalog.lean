import Mathlib.Data.List.Nodup
import Mathlib.Logic.Function.Basic
import TaskReplay.Catalog
import TaskReplay.Proofs.Store.Rows
import TaskReplay.Proofs.Text.ByteOrder

/-!
# What a store has on record

The catalog sees tasks, the store rows. Calls one after the other, on a store that does not fail by
itself, are told here as calls on records, one task at most under each identifier:

* `Call`, `serve` -- the calls on the catalog, each without others in between;
* `Records` -- what is on record; `put`, `drop`, `look` -- saving keeps the time of the first save,
  and a task is given out only if its row gives it back;
* `Records.after`, `Records.Answers` -- **what a call does to the records, and what it answers**;
* `Holds` -- the rows of a store are those of the records; `Holds.serve` -- one call keeps that, and
  answers so.
-/

namespace TaskReplay

/-! ## 1. Calls -/

namespace Catalog

/-- A call on the catalog. -/
inductive Call where
  | save (task : Task)
  | get (id : TaskId)
  | list
  | setEnabled (id : TaskId) (enabled : Bool)
  | delete (id : TaskId)

/-- What a call returns. -/
inductive Reply where
  | task (result : Except Failure Task)
  | tasks (result : Except Failure (List Task))
  | done (result : Except Failure Unit)

/-- What a call does. -/
def Call.program : Call → CatalogProg Reply
  | save t => do return .task (← Catalog.save t)
  | get id => do return .task (← Catalog.get id)
  | list => do return .tasks (← Catalog.list)
  | setEnabled id enabled => do return .task (← Catalog.setEnabled id enabled)
  | delete id => do return .done (← Catalog.delete id)

/-- The confidences of a task to be saved survive their text if they are finite. -/
def Call.Exact : Call → Prop
  | save t => ∀ c ∈ Action.confidences t.actions, c.isFinite = true → Json.ExactSingle c
  | _ => True

/-- Calls one after the other, each with its time. -/
abbrev Calls := List (Timestamp × Call)

end Catalog

namespace Store

variable {s : Store} {now : Timestamp} {id : TaskId} {t : Task}

/-- A call at `now`. -/
def serve (s : Store) (now : Timestamp) (c : Catalog.Call) : Catalog.Reply × Store :=
  s.perform now c.program

/-- Calls one after the other. -/
def serves (s : Store) : Catalog.Calls → List Catalog.Reply × Store
  | [] => ([], s)
  | (now, c) :: cs => ((s.serve now c).1 :: ((s.serve now c).2.serves cs).1,
      ((s.serve now c).2.serves cs).2)

/-- What a caller is told that looks a task up. -/
def told (id : TaskId) : Except Failure (Option Task) → Except Failure Task
  | .ok (some t) => .ok t
  | .ok none => .error (missing id)
  | .error e => .error e

theorem serve_save (s : Store) (now : Timestamp) (t : Task) : s.serve now (.save t) =
    if t.problems = [] then
      (.task (.ok { t with updatedAt := now }), s.save { t with updatedAt := now })
    else (.task (.error (.validation t.problems)), s) := by
  by_cases valid : t.problems = []
  · simp [serve, perform, Catalog.Call.program, Catalog.save, t.validate_eq_ok_iff.mpr valid, valid,
      Catalog.stamp, CatalogRequest.ask, answer]
  · have refused : t.validate = .error t.problems := by simp [Task.validate, valid]
    simp [serve, perform, Catalog.Call.program, Catalog.save, refused, valid]

theorem serve_get (s : Store) (now : Timestamp) (id : TaskId) :
    s.serve now (.get id) = (.task (told id (s.find id)), s) := by
  simp only [serve, perform, Catalog.Call.program, Catalog.get, CatalogRequest.ask]
  cases h : s.find id with
  | error e => simp [answer, h, told]
  | ok found => cases found <;> simp [answer, h, told]

theorem serve_list (s : Store) (now : Timestamp) : s.serve now .list = (.tasks s.all, s) := rfl

theorem serve_setEnabled (s : Store) (now : Timestamp) (id : TaskId) (on : Bool) :
    s.serve now (.setEnabled id on) =
      match told id (s.find id) with
      | .ok t => (.task (.ok { t with enabled := on, updatedAt := now }),
          s.save { t with enabled := on, updatedAt := now })
      | .error e => (.task (.error e), s) := by
  simp only [serve, perform, Catalog.Call.program, Catalog.setEnabled, Catalog.get,
    CatalogRequest.ask]
  cases h : s.find id with
  | error e => simp [answer, h, told]
  | ok found =>
      cases found <;> simp [answer, h, told, Catalog.stamp, CatalogRequest.ask]

theorem serve_delete (s : Store) (now : Timestamp) (id : TaskId) :
    s.serve now (.delete id) =
      match s.delete id with
      | .ok s' => (.done (.ok ()), s')
      | .error e => (.done (.error e), s) := by
  simp only [serve, perform, Catalog.Call.program, Catalog.delete, CatalogRequest.ask]
  cases h : s.delete id <;> simp [answer, h]

end Store

/-! ## 2. Records -/

/-- What is on record: one task at most under each identifier. -/
abbrev Records := TaskId → Option Task

namespace Records

/-- Nothing. -/
def empty : Records := fun _ => none

/-- The task as it is recorded: an earlier record under its identifier keeps its time of creation. -/
def dated (m : Records) (t : Task) : Task :=
  { t with createdAt := ((m t.id).map Task.createdAt).getD t.createdAt }

/-- The records with a task. -/
def put (m : Records) (t : Task) : Records := Function.update m t.id (some (m.dated t))

/-- The records without a task. -/
def drop (m : Records) (id : TaskId) : Records := Function.update m id none

/-- A look at a record. -/
def look (m : Records) (id : TaskId) : Except Failure Task :=
  match m id with
  | some t => if t.Readable then .ok t else .error (.storage .unreadableRow)
  | none => .error (Store.missing id)

/-- All that is on record can be read. -/
def AllReadable (m : Records) : Prop := ∀ id t, m id = some t → t.Readable

/-- The tasks on record, each once, by the bytes of their names. -/
structure Listed (m : Records) (ts : List Task) : Prop where
  once : (ts.map Task.id).Nodup
  all : ∀ t, t ∈ ts ↔ ∃ id, m id = some t
  sorted : ts.Pairwise fun a b => Text.bytes a.name ≤ Text.bytes b.name

theorem look_eq_ok_iff {m : Records} {id : TaskId} {t : Task} :
    m.look id = .ok t ↔ m id = some t ∧ t.Readable := by
  unfold look
  cases m id with
  | none => simp
  | some u =>
      by_cases readable : u.Readable
      · simp only [if_pos readable, Except.ok.injEq, Option.some.injEq]
        exact ⟨fun same => ⟨same, same ▸ readable⟩, And.left⟩
      · simp only [if_neg readable, Option.some.injEq, reduceCtorEq, false_iff]
        rintro ⟨rfl, other⟩
        exact readable other

/-- The records after a call. -/
def after (m : Records) (now : Timestamp) : Catalog.Call → Records
  | .save t => if t.problems = [] then m.put { t with updatedAt := now }.kept else m
  | .setEnabled id on =>
    match m.look id with
    | .ok t => m.put { t with enabled := on, updatedAt := now }
    | .error _ => m
  | .delete id => m.drop id
  | .get _ | .list => m

/-- What a call answers. -/
def Answers (m : Records) (now : Timestamp) (r : Catalog.Reply) : Catalog.Call → Prop
  | .save t => r = .task (if t.problems = [] then .ok { t with updatedAt := now }
      else .error (.validation t.problems))
  | .get id => r = .task (m.look id)
  | .setEnabled id on =>
    r = .task ((m.look id).map fun t => { t with enabled := on, updatedAt := now })
  | .delete id => r = .done (if (m id).isSome then .ok () else .error (Store.missing id))
  | .list =>
    m.AllReadable ∧ (∃ ts, r = .tasks (.ok ts) ∧ m.Listed ts) ∨
      ¬ m.AllReadable ∧ r = .tasks (.error (.storage .unreadableRow))

end Records

/-! ## 3. Rows of records -/

/-- A task that was saved: without faults, and as its row gives it back. -/
structure Task.Saved (t : Task) : Prop where
  valid : t.problems = []
  lossless : t.Lossless
  counted : Store.capped t.runCount = t.runCount

theorem Task.Saved.kept_eq {t : Task} (h : t.Saved) : t.kept = t := by
  rw [kept, h.counted]

namespace Store

/-- The row of a task under its key. -/
def entry (t : Task) : String × Row := (t.id.text, Row.ofTask t)

/-- A list of tasks with a task in the place of an earlier one, or at the end. -/
def place (t : Task) : List Task → List Task
  | [] => [t]
  | old :: rest =>
    if t.id = old.id then { t with createdAt := old.createdAt } :: rest else old :: place t rest

/-- **The rows of a store are those of the records.** -/
structure Holds (s : Store) (m : Records) (ts : List Task) : Prop where
  rows : s.rows.entries = ts.map entry
  once : (ts.map Task.id).Nodup
  saved : ∀ t ∈ ts, t.Saved
  found : ∀ id, m id = ts.find? fun t => id == t.id

variable {s : Store} {m : Records} {ts : List Task} {t : Task} {id : TaskId}

theorem text_beq (id id' : TaskId) : (id.text == id'.text) = (id == id') := by
  rw [Bool.eq_iff_iff, beq_iff_eq, beq_iff_eq]
  exact ⟨Uuid.text_injective, congrArg Uuid.text⟩

theorem lookup_entries (ts : List Task) (id : TaskId) :
    (ts.map entry).lookup id.text = (ts.find? fun t => id == t.id).map Row.ofTask := by
  induction ts with
  | nil => rfl
  | cons t ts ih =>
      rw [List.map_cons, entry, List.lookup_cons, text_beq, List.find?_cons, ih]
      cases id == t.id <;> rfl

theorem map_place (t : Task) (ts : List Task) :
    (place t ts).map entry =
      Assoc.put t.id.text ((Row.ofTask t).over ((ts.map entry).lookup t.id.text)) (ts.map entry) := by
  induction ts with
  | nil => rfl
  | cons old ts ih =>
      simp only [place, List.map_cons, entry, List.lookup_cons, Assoc.put, text_beq, beq_iff_eq]
      by_cases same : t.id = old.id
      · simp [same, entry, Row.over, Row.ofTask]
      · have other : (t.id == old.id) = false := by simpa using same
        simp [same, other, entry, ih]

theorem find?_place (t : Task) (ts : List Task) (id : TaskId) :
    ((place t ts).find? fun u => id == u.id) =
      if id = t.id then
        some { t with
          createdAt := ((ts.find? fun u => t.id == u.id).map Task.createdAt).getD t.createdAt }
      else ts.find? fun u => id == u.id := by
  induction ts with
  | nil => by_cases same : id = t.id <;> simp [place, same]
  | cons old ts ih =>
      simp only [place, List.find?_cons]
      by_cases same : t.id = old.id
      · by_cases here : id = t.id
        · simp [← same, here]
        · have other : (id == t.id) = false := by simpa using here
          simp [← same, other, here]
      · have other : (t.id == old.id) = false := by simpa using same
        by_cases here : id = old.id
        · have apart : old.id ≠ t.id := fun h => same h.symm
          simp [same, here, apart]
        · have later : (id == old.id) = false := by simpa using here
          simp [same, later, other, ih]

theorem ids_place (t : Task) (ts : List Task) :
    (place t ts).map Task.id =
      if t.id ∈ ts.map Task.id then ts.map Task.id else ts.map Task.id ++ [t.id] := by
  induction ts with
  | nil => rfl
  | cons old ts ih =>
      by_cases same : t.id = old.id
      · simp [place, same]
      · by_cases later : t.id ∈ ts.map Task.id
        · simp only [place, if_neg same, List.map_cons, ih, if_pos later,
            if_pos (List.mem_cons_of_mem _ later)]
        · have new : t.id ∉ old.id :: ts.map Task.id := by simpa [same] using later
          simp only [place, if_neg same, List.map_cons, ih, if_neg later, if_neg new,
            List.cons_append]

theorem mem_place {u : Task} (h : u ∈ place t ts) :
    u ∈ ts ∨ ∃ time, u = { t with createdAt := time } := by
  induction ts with
  | nil => exact .inr ⟨t.createdAt, by simpa [place] using h⟩
  | cons old ts ih =>
      unfold place at h
      split at h
      · rcases List.mem_cons.mp h with rfl | later
        · exact .inr ⟨old.createdAt, rfl⟩
        · exact .inl (List.mem_cons_of_mem _ later)
      · rcases List.mem_cons.mp h with rfl | later
        · exact .inl List.mem_cons_self
        · exact (ih later).imp_left (List.mem_cons_of_mem _)

/-- A store in which a task was saved holds the records with that task. -/
theorem Holds.save (h : Holds s m ts) (saved : t.kept.Saved) :
    Holds (s.save t) (m.put t.kept) (place t.kept ts) where
  rows := by
    have found : s.rows.get? t.id.text = (ts.map entry).lookup t.id.text := by
      rw [Assoc.get?, h.rows]
    rw [map_place, Row.ofTask_kept, ← h.rows, Store.save, Assoc.set, found, h.rows]
    rfl
  once := by
    rw [ids_place]
    split
    · exact h.once
    · next new => exact h.once.append (List.nodup_singleton _) (by simpa using new)
  saved u hu := by
    rcases mem_place hu with old | ⟨time, rfl⟩
    · exact h.saved u old
    · exact ⟨saved.valid, saved.lossless, saved.counted⟩
  found id := by
    rw [find?_place, Records.put, Records.dated, h.found]
    by_cases here : id = t.kept.id
    · subst here
      simp
    · rw [if_neg here, Function.update_of_ne here, h.found]

theorem Holds.get? (h : Holds s m ts) (id : TaskId) :
    s.rows.get? id.text = (m id).map Row.ofTask := by
  rw [Assoc.get?, h.rows, lookup_entries, h.found]

/-- A store from which a task was deleted holds the records without it. -/
theorem Holds.drop (h : Holds s m ts) (id : TaskId) :
    Holds { s with rows := s.rows.erase id.text } (m.drop id) (ts.filter fun t => !(id == t.id)) where
  rows := by
    rw [Assoc.erase, h.rows, List.filter_map]
    simp only [Function.comp_def, entry, text_beq]
  once := h.once.sublist (List.filter_sublist.map _)
  saved t ht := h.saved t (List.mem_of_mem_filter ht)
  found other := by
    rw [List.find?_filter, Records.drop]
    by_cases here : other = id
    · subst here
      rw [Function.update_self, eq_comm, List.find?_eq_none]
      simp
    · rw [Function.update_of_ne here, h.found]
      congr 1
      funext t
      by_cases own : other = t.id
      · have apart : id ≠ t.id := fun same => here (own.trans same.symm)
        simp [own, apart]
      · simp [own]

theorem Holds.delete (h : Holds s m ts) (id : TaskId) :
    s.delete id = if (m id).isSome then .ok { s with rows := s.rows.erase id.text }
      else .error (missing id) := by
  rw [Store.delete, h.get?]
  cases m id <;> rfl

/-! ## 4. Reading -/

/-- A saved task comes out of its row, or the row is no task. -/
theorem decode_entry (saved : t.Saved) :
    decode t.id.text (Row.ofTask t) =
      if t.Readable then .ok t else .error (.storage .unreadableRow) := by
  rw [decode, Row.toTask?_ofTask saved.lossless, saved.kept_eq]
  by_cases readable : t.Readable <;> simp [readable]

theorem mapM_decode (saved : ∀ t ∈ ts, t.Saved) :
    (ts.map entry).mapM (fun e => decode e.1 e.2) =
      if ∀ t ∈ ts, t.Readable then .ok ts else .error (.storage .unreadableRow) := by
  induction ts with
  | nil => rfl
  | cons t ts ih =>
      rw [List.map_cons, List.mapM_cons, ih fun u hu => saved u (List.mem_cons_of_mem _ hu), entry,
        decode_entry (saved t List.mem_cons_self)]
      by_cases first : t.Readable <;> by_cases later : ∀ u ∈ ts, u.Readable
      · rw [if_pos first, if_pos later, if_pos (List.forall_mem_cons.mpr ⟨first, later⟩)]
        rfl
      · rw [if_pos first, if_neg later, if_neg fun all => later (List.forall_mem_cons.mp all).2]
        rfl
      · rw [if_neg first, if_neg fun all => first (List.forall_mem_cons.mp all).1]
        rfl
      · rw [if_neg first, if_neg fun all => first (List.forall_mem_cons.mp all).1]
        rfl

theorem Holds.told (h : Holds s m ts) (id : TaskId) : told id (s.find id) = m.look id := by
  rw [find, h.get?, Records.look]
  cases found : m id with
  | none => rfl
  | some t =>
      rw [h.found] at found
      have own : id = t.id := by simpa using List.find?_some found
      subst own
      show Store.told t.id ((decode _ (Row.ofTask t)).map some) = _
      rw [decode_entry (h.saved t (List.mem_of_find?_eq_some found))]
      show _ = if t.Readable then _ else _
      split <;> rfl

theorem Holds.mem_iff (h : Holds s m ts) (t : Task) : t ∈ ts ↔ ∃ id, m id = some t := by
  constructor
  · intro ht
    refine ⟨t.id, (h.found _).trans ?_⟩
    have there : (ts.find? fun u => t.id == u.id).isSome = true :=
      List.find?_isSome.mpr ⟨t, ht, beq_self_eq_true t.id⟩
    obtain ⟨u, found⟩ := Option.isSome_iff_exists.mp there
    have own : t.id = u.id := by simpa using List.find?_some found
    rw [found, List.inj_on_of_nodup_map h.once ht (List.mem_of_find?_eq_some found) own]
  · rintro ⟨id, found⟩
    exact List.mem_of_find?_eq_some ((h.found id).symm.trans found)

/-- The tasks on record by name. -/
theorem Holds.listed (h : Holds s m ts) : m.Listed (ts.mergeSort fun a b => a.name ≤ b.name) where
  once := ((List.mergeSort_perm _ _).map _).nodup_iff.mpr h.once
  all t := (List.mergeSort_perm _ _).mem_iff.trans (h.mem_iff t)
  sorted := by
    have sorted : (ts.mergeSort fun a b => a.name ≤ b.name).Pairwise
        fun a b => decide (a.name ≤ b.name) = true := by
      refine List.pairwise_mergeSort (fun a b c first second => ?_) (fun a b => ?_) ts
      · exact decide_eq_true (String.le_trans (of_decide_eq_true first) (of_decide_eq_true second))
      · simpa using String.le_total a.name b.name
    exact sorted.imp fun h => (Text.bytes_le_iff _ _).mpr (of_decide_eq_true h)

theorem Holds.all (h : Holds s m ts) :
    s.all = if ∀ t ∈ ts, t.Readable then .ok (ts.mergeSort fun a b => a.name ≤ b.name)
      else .error (.storage .unreadableRow) := by
  have sorted : s.sorted = (ts.mergeSort fun a b => a.name ≤ b.name).map entry := by
    rw [Store.sorted, h.rows, List.map_mergeSort]
    exact fun _ _ _ _ => rfl
  have same : (∀ t ∈ ts.mergeSort fun a b => a.name ≤ b.name, t.Readable) ↔ ∀ t ∈ ts, t.Readable :=
    forall_congr' fun t => by rw [(List.mergeSort_perm _ _).mem_iff]
  rw [Store.all, sorted, mapM_decode fun t ht => h.saved t ((List.mergeSort_perm _ _).mem_iff.mp ht)]
  simp only [same]

/-! ## 5. One call -/

variable {c : Catalog.Call}

theorem holds_empty : Holds empty .empty [] where
  rows := rfl
  once := List.nodup_nil
  saved := List.forall_mem_nil _
  found _ := rfl

theorem Holds.own (h : Holds s m ts) (found : m id = some t) : t.id = id ∧ t.Saved := by
  rw [h.found] at found
  have own : id = t.id := by simpa using List.find?_some found
  exact ⟨own.symm, h.saved t (List.mem_of_find?_eq_some found)⟩

/-- **One call**: the store holds the records as the call leaves them, and the call answers what they
say. -/
theorem Holds.serve (h : Holds s m ts) (now : Timestamp) (exact : c.Exact) :
    (∃ ts', Holds (s.serve now c).2 (m.after now c) ts') ∧ m.Answers now (s.serve now c).1 c := by
  cases c with
  | save t =>
      rw [serve_save]
      by_cases valid : t.problems = []
      · have saved : Task.Saved { t with updatedAt := now }.kept :=
          ⟨valid, Task.lossless_of_valid valid exact, capped_capped _⟩
        simp only [Records.after, Records.Answers, if_pos valid]
        exact ⟨⟨_, h.save saved⟩, trivial⟩
      · simp only [Records.after, Records.Answers, if_neg valid]
        exact ⟨⟨_, h⟩, trivial⟩
  | get id =>
      rw [serve_get, h.told]
      exact ⟨⟨_, h⟩, rfl⟩
  | setEnabled id on =>
      rw [serve_setEnabled, h.told]
      cases found : m.look id with
      | error e =>
          simp only [Records.after, Records.Answers, found]
          exact ⟨⟨_, h⟩, rfl⟩
      | ok t =>
          have saved := (h.own (Records.look_eq_ok_iff.mp found).1).2
          have again : Task.Saved { t with enabled := on, updatedAt := now } :=
            ⟨saved.valid, saved.lossless, saved.counted⟩
          have switched := h.save (t := { t with enabled := on, updatedAt := now })
            (by rw [again.kept_eq]; exact again)
          rw [again.kept_eq] at switched
          simp only [Records.after, Records.Answers, found]
          exact ⟨⟨_, switched⟩, rfl⟩
  | delete id =>
      rw [serve_delete, h.delete]
      by_cases there : (m id).isSome
      · simp only [Records.after, Records.Answers, if_pos there]
        exact ⟨⟨_, h.drop id⟩, trivial⟩
      · have absent : m.drop id = m := by
          have none : m id = none := by simpa using there
          exact Function.update_eq_self_iff.mpr none.symm
        simp only [Records.after, Records.Answers, if_neg there, absent]
        exact ⟨⟨_, h⟩, trivial⟩
  | list =>
      rw [serve_list, h.all]
      refine ⟨⟨_, h⟩, ?_⟩
      by_cases readable : ∀ t ∈ ts, t.Readable
      · rw [if_pos readable]
        refine .inl ⟨fun id t found => readable t ((h.mem_iff t).mpr ⟨id, found⟩), _, rfl, h.listed⟩
      · rw [if_neg readable]
        obtain ⟨t, ht, unreadable⟩ : ∃ t ∈ ts, ¬ t.Readable := by simpa using readable
        obtain ⟨id, found⟩ := (h.mem_iff t).mp ht
        exact .inr ⟨fun all => unreadable (all id t found), rfl⟩

end Store
end TaskReplay
