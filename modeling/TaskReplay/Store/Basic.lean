import TaskReplay.Assoc
import TaskReplay.Problem
import TaskReplay.Settings
import TaskReplay.Store.Row

/-!
The store of tasks and settings.

What this file fixes:
* rows stand under the text of an identifier and keep the place of their first saving;
* saving over a row keeps its `createdAt`; everything else is the new task's;
* tasks are listed by name, by code points; equal names in the order of their places;
* one row that is no task spoils the whole list, but only its own look-up;
* settings are one JSON text; without it the settings are the initial ones.
-/

namespace TaskReplay

/-- Tasks and settings. -/
structure Store where
  rows : Assoc String Store.Row
  settings : Option String
  deriving DecidableEq, Repr

namespace Store

/-- The store without anything. -/
def empty : Store := ⟨.empty, none⟩

instance : Inhabited Store := ⟨empty⟩

/-! ## 1. Tasks -/

/-- A row as a task. -/
def decode (key : String) (row : Row) : Except Failure Task :=
  match row.toTask? key with
  | some t => .ok t
  | none => .error (.storage .unreadableRow)

/-- The task with that identifier. -/
def find (s : Store) (id : TaskId) : Except Failure (Option Task) :=
  match s.rows.get? id.text with
  | some row => (decode id.text row).map some
  | none => .ok none

/-- The rows by name. -/
def sorted (s : Store) : List (String × Row) :=
  s.rows.entries.mergeSort fun a b => a.2.name ≤ b.2.name

/-- All tasks by name. -/
def all (s : Store) : Except Failure (List Task) := s.sorted.mapM fun e => decode e.1 e.2

/-- The row that takes the place of an earlier one. -/
def Row.over (new : Row) : Option Row → Row
  | some old => { new with createdAt := old.createdAt }
  | none => new

/-- The store with a task, in the place of an earlier one with its identifier. -/
def save (s : Store) (t : Task) : Store :=
  { s with rows := s.rows.set t.id.text ((Row.ofTask t).over (s.rows.get? t.id.text)) }

/-- What a look-up of a missing task answers. -/
def missing (id : TaskId) : Failure := .notFound "Task" id.text

/-- The store without a task. -/
def delete (s : Store) (id : TaskId) : Except Failure Store :=
  match s.rows.get? id.text with
  | some _ => .ok { s with rows := s.rows.erase id.text }
  | none => .error (missing id)

/-- A saved task has its row under its identifier; the other rows stay. -/
theorem get?_save (s : Store) (t : Task) (key : String) :
    (s.save t).rows.get? key =
      if key == t.id.text then some ((Row.ofTask t).over (s.rows.get? t.id.text))
      else s.rows.get? key := by
  simp [save]

/-- A deleted row is gone; the others stay. -/
theorem get?_delete {s s' : Store} {id : TaskId} (h : s.delete id = .ok s') (key : String) :
    s'.rows.get? key = if key == id.text then none else s.rows.get? key := by
  simp only [delete] at h
  split at h
  · simp only [Except.ok.injEq] at h
    subst h
    simp
  · simp at h

/-! ## 2. Settings -/

/-- The stored settings. -/
def loadSettings (s : Store) : Except Failure Settings :=
  match s.settings with
  | none => .ok .initial
  | some text =>
    match Json.readAs? Settings.shape Settings.ofJson? text with
    | some settings => .ok settings
    | none => .error (.storage .unreadableSettings)

/-- The store with other settings. -/
def saveSettings (s : Store) (settings : Settings) : Store :=
  { s with settings := some settings.toJson.print }

end Store
end TaskReplay
