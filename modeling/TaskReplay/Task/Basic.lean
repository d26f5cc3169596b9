import TaskReplay.Action.Check
import TaskReplay.Time.Timestamp
import TaskReplay.Uuid

/-!
Tasks: named scripts with the record of their runs.

What this file fixes:
* `Task.walk` is every step of the script, depth first;
* `Task.problems` lists all faults: of the name, then of each step in the order of `walk`, first of
  its id and then of its fields; two sets of ids tell which ids were seen before and which of them
  were reported already (`Met`);
* `recordRun` is the whole effect of a run on a task.
-/

namespace TaskReplay

/-- A named script and what became of its runs. -/
structure Task where
  id : TaskId
  name : String
  description : Option String
  enabled : Bool
  actions : List Action
  createdAt : Timestamp
  updatedAt : Timestamp
  runCount : UInt64
  lastRunAt : Option Timestamp
  lastRunSuccess : Option Bool

namespace Task

/-! ## 1. Faults -/

/-- Every step of the script. -/
def walk (t : Task) : List Action := Action.walkAll t.actions

/-- The ids that a walk has met: those it has seen, and those it has reported as not the first of
their kind. -/
structure Met where
  seen : List String
  reported : List String

/-- A walk that has not begun. -/
def Met.nothing : Met := ⟨[], []⟩

/-- Looks at the next id: its fault, and what has been met then. A blank id is entered nowhere. -/
def Met.look (m : Met) (id : String) : List Problem × Met :=
  if Text.onlyBlanks id then ([.emptyActionId], m)
  else if id ∉ m.seen then ([], { m with seen := id :: m.seen })
  else if id ∉ m.reported then
    ([.duplicateActionId id], { m with reported := id :: m.reported })
  else ([], m)

/-- The faults of a sequence of steps, by a walk that has met some ids before. -/
def stepProblems (m : Met) : List Action → List Problem
  | [] => []
  | a :: rest => (m.look a.id).1 ++ a.problems ++ stepProblems (m.look a.id).2 rest

/-- Every fault of a task. -/
def problems (t : Task) : List Problem :=
  (if Text.onlyBlanks t.name then [.emptyName] else []) ++ stepProblems .nothing t.walk

/-- A task without faults is valid. -/
def validate (t : Task) : Except (List Problem) Unit :=
  if t.problems.isEmpty then .ok () else .error t.problems

theorem validate_eq_ok_iff (t : Task) : t.validate = .ok () ↔ t.problems = [] := by
  simp only [validate]; split <;> simp_all

/-! ## 2. Runs -/

/-- The task after a run that ended at `now`. -/
def recordRun (t : Task) (success : Bool) (now : Timestamp) : Task :=
  { t with
    runCount := t.runCount + 1
    lastRunAt := some now
    lastRunSuccess := some success
    updatedAt := now }

/-! ## 3. New tasks -/

/-- What is known of a task before it is made. -/
structure Draft where
  id : Option TaskId
  name : Option String
  description : Option String
  enabled : Option Bool
  actions : List Action

/-- Nothing known. -/
def Draft.empty : Draft := ⟨none, none, none, none, []⟩

/-- Makes a task at `now`, under the id `fresh` if none is known. -/
def Draft.build (d : Draft) (fresh : TaskId) (now : Timestamp) : Except (List Problem) Task := do
  let task : Task :=
    { id := d.id.getD fresh
      name := d.name.getD ""
      description := d.description
      enabled := d.enabled.getD true
      actions := d.actions
      createdAt := now
      updatedAt := now
      runCount := 0
      lastRunAt := none
      lastRunSuccess := none }
  task.validate
  return task

/-- A task of which only the steps matter. -/
def ofActions (actions : List Action) : Task where
  id := ⟨0⟩
  name := "sample"
  description := none
  enabled := true
  actions := actions
  createdAt := .epoch
  updatedAt := .epoch
  runCount := 0
  lastRunAt := none
  lastRunSuccess := none

end Task
end TaskReplay
