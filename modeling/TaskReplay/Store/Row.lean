import TaskReplay.Json.Printer
import TaskReplay.Store.Cell
import TaskReplay.Task.Codec

/-!
Tasks as rows of a table.

What this file fixes:
* the steps of a task are one JSON text, its instants are texts, its flags and its counter integers;
* every task has a row (`ofTask`), but a row need not be a task (`toTask?`): its texts must read
  back, its integer columns must hold integers;
* the counter column has a sign, so a count beyond it is kept at its largest value.
-/

namespace TaskReplay.Store

/-- A row; its key is the text of the task's identifier. -/
structure Row where
  name : String
  description : Option String
  enabled : Whole
  actions : String
  createdAt : String
  updatedAt : String
  runCount : Whole
  lastRunAt : Option String
  lastRunSuccess : Option Whole
  deriving DecidableEq, Repr

namespace Row

/-! ## 1. Writing -/

/-- A flag. -/
def flag (b : Bool) : Whole := .integer (if b then 1 else 0)

/-- A counter. -/
def counter (n : UInt64) : Whole := .integer (Int64.ofInt (min n.toNat Width.maxInt64))

/-- An instant. -/
def instant (t : Timestamp) : String := t.textIn "+00:00"

/-- The row of a task. -/
def ofTask (t : Task) : Row :=
  { name := t.name
    description := t.description
    enabled := flag t.enabled
    actions := (Json.array (Action.listJson t.actions)).print
    createdAt := instant t.createdAt
    updatedAt := instant t.updatedAt
    runCount := counter t.runCount
    lastRunAt := t.lastRunAt.map instant
    lastRunSuccess := t.lastRunSuccess.map flag }

/-! ## 2. Reading -/

/-- Every integer other than zero is a raised flag. -/
def flag? (w : Whole) : Option Bool := w.value?.map (· != 0)

/-- A negative counter counts as zero. -/
def counter? (w : Whole) : Option UInt64 := w.value?.map fun n => n.toInt.toNat.toUInt64

/-- A cell that may be empty. -/
def optional (read : α → Option β) : Option α → Option (Option β)
  | none => some none
  | some a => (read a).map some

/-- The task in a row. -/
def toTask? (key : String) (r : Row) : Option Task := do
  return {
    id := ← Uuid.ofText? key
    name := r.name
    description := r.description
    enabled := ← flag? r.enabled
    actions := ← Json.readAs? .whole Action.listOf? r.actions
    createdAt := ← Timestamp.strict? r.createdAt
    updatedAt := ← Timestamp.strict? r.updatedAt
    runCount := ← counter? r.runCount
    lastRunAt := ← optional Timestamp.strict? r.lastRunAt
    lastRunSuccess := ← optional flag? r.lastRunSuccess }

end Row
end TaskReplay.Store
