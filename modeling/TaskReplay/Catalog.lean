import TaskReplay.Prog
import TaskReplay.Store.Basic

/-!
The calls that manage stored tasks.

What this file fixes:
* `CatalogRequest` lists the indivisible effects of a call: between two of them others may write;
* only tasks without faults are saved, and saving and switching stamp `updatedAt`;
* what a save answers is the task it was given, stamped, and not what the store then holds.
-/

namespace TaskReplay

/-! ## 1. Requests -/

/-- An effect of a call on the catalog. -/
inductive CatalogRequest where
  | find (id : TaskId)
  | all
  | save (task : Task)
  | delete (id : TaskId)
  /-- The date and time. -/
  | now

/-- The answers to a request. -/
abbrev CatalogRequest.Answer : CatalogRequest → Type
  | find _ => Except Failure (Option Task)
  | all => Except Failure (List Task)
  | save _ => Except Failure Task
  | delete _ => Except Failure Unit
  | now => Timestamp

/-- A call on the catalog. -/
abbrev CatalogProg := Prog CatalogRequest CatalogRequest.Answer

/-- Asks one question. -/
def CatalogRequest.ask (q : CatalogRequest) : CatalogProg q.Answer := Prog.request q

namespace Catalog

open CatalogRequest (ask)

/-! ## 2. Calls -/

/-- The time of a change, then the save of the changed task. -/
def stamp (t : Task) : CatalogProg (Except Failure Task) := do
  let now ← ask .now
  ask (.save { t with updatedAt := now })

/-- Saves a task without faults. -/
def save (t : Task) : CatalogProg (Except Failure Task) :=
  match t.validate with
  | .ok () => stamp t
  | .error ps => return .error (.validation ps)

/-- The task with that identifier. -/
def get (id : TaskId) : CatalogProg (Except Failure Task) := do
  match ← ask (.find id) with
  | .ok (some t) => return .ok t
  | .ok none => return .error (Store.missing id)
  | .error e => return .error e

/-- All tasks by name. -/
def list : CatalogProg (Except Failure (List Task)) := ask .all

/-- Switches a task on or off. -/
def setEnabled (id : TaskId) (enabled : Bool) : CatalogProg (Except Failure Task) := do
  match ← get id with
  | .ok t => stamp { t with enabled }
  | .error e => return .error e

/-- Removes a task. -/
def delete (id : TaskId) : CatalogProg (Except Failure Unit) := ask (.delete id)

end Catalog

/-! ## 3. Calls on a store -/

namespace Store

/-- What a store that never fails by itself answers to a request at `now`. -/
def answer (now : Timestamp) (s : Store) : (q : CatalogRequest) → q.Answer × Store
  | .find id => (s.find id, s)
  | .all => (s.all, s)
  | .save t => (.ok t, s.save t)
  | .delete id =>
    match s.delete id with
    | .ok s' => (.ok (), s')
    | .error e => (.error e, s)
  | .now => (now, s)

/-- A whole call at `now`, without others in between. -/
def perform (now : Timestamp) (s : Store) (call : CatalogProg α) : α × Store :=
  call.run (answer now) s

end Store
end TaskReplay
