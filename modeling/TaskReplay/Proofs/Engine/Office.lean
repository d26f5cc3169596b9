import TaskReplay.Proofs.Conversation.Views
import TaskReplay.Proofs.Engine.Coherence
import TaskReplay.Proofs.Engine.Returns

/-!
# The engine and its tasks

The engine works on stored tasks. This file puts both together, for calls on the engine to which the
store belongs alone:

* `Shelf` -- stored tasks, each under its own id;
* `Office`, `office` -- the engine with its shelf, as a service: a look-up fails or finds what stands
  on the shelf, and a save fails or puts the task there;
* `Opened` -- what calls reach from a fresh engine and a shelf of tasks; `Opened.reachable` -- as far
  as the engine goes this is what calls reach on the engine alone;
* `Office.proceed` -- calls that go on in a smooth world, as a computation.
-/

namespace TaskReplay.Engine

open Machine (Reaches)

/-! ## 1. Shelves -/

/-- Stored tasks, each under its own id. -/
structure Shelf where
  tasks : Assoc TaskId Task
  own : ∀ id t, tasks.get? id = some t → t.id = id

namespace Shelf

/-- The task under an id. -/
def find (s : Shelf) (id : TaskId) : Option Task := s.tasks.get? id

/-- The shelf without tasks. -/
def empty : Shelf := ⟨.empty, fun _ _ h => nomatch h⟩

/-- The shelf with a task, in the place of the one under its id. -/
def put (s : Shelf) (t : Task) : Shelf where
  tasks := s.tasks.set t.id t
  own id u h := by
    rw [Assoc.get?_set] at h
    split at h
    · next same =>
      cases h
      exact (by simpa using same : id = t.id).symm
    · exact s.own id u h

@[simp] theorem find_put (s : Shelf) (t : Task) (id : TaskId) :
    (s.put t).find id = if id = t.id then some t else s.find id := by
  simp [find, put]

theorem id_of_find {s : Shelf} {id : TaskId} {t : Task} (h : s.find id = some t) : t.id = id :=
  s.own id t h

end Shelf

/-! ## 2. The service -/

/-- The engine with its shelf. -/
structure Office where
  engine : Engine
  shelf : Shelf

/-- The answers that an office allows: what was looked up and found stands on the shelf. -/
def Office.Allows (o : Office) : (q : EngineRequest) → q.Answer → Prop
  | .loadTask id, .ok found => found = o.shelf.find id
  | q, x => Engine.Allows o.engine q x

/-- The office after a question and its answer: a task that was saved stands on the shelf. -/
def Office.after (o : Office) : (q : EngineRequest) → q.Answer → Office
  | .saveTask t, .ok () => { o with shelf := o.shelf.put t }
  | q, _ => { o with engine := o.engine.after q }

/-- **The engine with its shelf as a service.** -/
def office : Service Call EngineRequest EngineRequest.Answer Reply Office where
  program := Call.program
  allows := Office.Allows
  after := Office.after

/-- An office with the calls on it. -/
abbrev OfficeSystem := Machine Call EngineRequest EngineRequest.Answer Reply Office

/-- A fresh engine and a shelf of tasks. -/
abbrev opening (shelf : Shelf) : OfficeSystem := Machine.initial ⟨Engine.initial, shelf⟩

/-- **What calls reach** from a fresh engine and a shelf of tasks, in any order of their steps. -/
def Opened (shelf : Shelf) (m : OfficeSystem) : Prop :=
  Reaches office Machine.anyone (opening shelf) m

section Office

variable {o : Office} {q : EngineRequest} {x : q.Answer}

/-- What an office allows, its engine allows. -/
theorem Office.Allows.engine (h : o.Allows q x) : Engine.Allows o.engine q x := by
  cases q with
  | loadTask id => trivial
  | _ => exact h

theorem Office.after_engine (o : Office) (q : EngineRequest) (x : q.Answer) :
    (o.after q x).engine = o.engine.after q := by
  cases q with
  | saveTask t => cases x <;> rfl
  | _ => rfl

/-- Only saves change the shelf. -/
theorem Office.shelf_after (o : Office) (x : q.Answer) (h : ∀ t, q ≠ .saveTask t) :
    (o.after q x).shelf = o.shelf := by
  cases q with
  | saveTask t => exact absurd rfl (h t)
  | _ => rfl

end Office

/-! ## 3. Offices that calls reach -/

section Opened

variable {shelf : Shelf} {m : OfficeSystem} {n : Nat} {c : Call}

/-- **As far as the engine goes**, an office is a system of the engine alone. -/
theorem Opened.reachable (h : Opened shelf m) : Reachable (m.mapState Office.engine) :=
  Reaches.mapState (S := office) (T := service) (fun _ _ => rfl) (fun _ _ _ => Office.Allows.engine)
    (fun o q x _ => o.after_engine q x) h

end Opened

/-! ## 4. Offices in a smooth world -/

/-- Answers of an office in a smooth world. -/
def Office.smooth (device : Except Failure Unit) (o : Office) (q : EngineRequest) : q.Answer :=
  Engine.smooth o.shelf.find device o.engine q

theorem Office.allows_smooth {device : Except Failure Unit} (o : Office) {q : EngineRequest}
    (hq : pauses q = false) : o.Allows q (o.smooth device q) := by
  have allowed : Engine.Allows o.engine q (o.smooth device q) := Engine.allows_smooth o.engine hq
  cases q with
  | loadTask id => rfl
  | _ => exact allowed

/-- **A call on an office goes on** in a smooth world, up to where it stops or the run waits for the
end of a pause. -/
def Office.proceed (device : Except Failure Unit) (stops : EngineRequest → Bool) (n : Nat) (c : Call)
    (m : OfficeSystem) : OfficeSystem :=
  m.goOn office (Office.smooth device) (fun q => stops q || pauses q) n c

theorem Opened.proceed {shelf : Shelf} {m : OfficeSystem} (h : Opened shelf m)
    (device : Except Failure Unit) (stops : EngineRequest → Bool) (n : Nat) (c : Call) :
    Opened shelf (Office.proceed device stops n c m) :=
  Machine.goOn_steps
    (fun o q hq => o.allows_smooth (by simpa using (Bool.or_eq_false_iff.mp hq).2))
    (fun _ _ h hs => Reaches.step h trivial hs) c h

end TaskReplay.Engine
