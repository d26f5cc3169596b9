import TaskReplay.Time.Rfc3339
import TaskReplay.Uuid

/-!
Where runs and the engine stand.

What this file fixes:
* `RunStatus` is the life of one run, `EngineStatus` what the engine is doing;
* `EngineState` is the snapshot that observers get; `clearProgress` forgets the active run but keeps
  the count of runs and the last error.
-/

namespace TaskReplay

/-! ## 1. Runs -/

/-- The life of a run. -/
inductive RunStatus where
  | idle
  | running
  | paused
  | completed
  | failed
  | stopped
  deriving DecidableEq, Repr

namespace RunStatus

/-- Whether a run is over. -/
def isFinished : RunStatus → Bool
  | completed | failed | stopped => true
  | _ => false

/-- Every status with its word. -/
def words : List (RunStatus × String) :=
  [(idle, "idle"), (running, "running"), (paused, "paused"), (completed, "completed"),
   (failed, "failed"), (stopped, "stopped")]

/-- The word for a status. -/
def word (s : RunStatus) : String := (words.lookup s).getD ""

/-- A status in a document. -/
def ofJson? (v : Json) : Option RunStatus := do
  let n ← Json.choice? false (words.map (·.2)) v
  (words[n]?).map (·.1)

/-- A status as it stands in documents. -/
def toJson (s : RunStatus) : Json := .string s.word

end RunStatus

/-! ## 2. The engine -/

/-- What the engine is doing. `stopping` lasts from a stop request until the run has wound down. -/
inductive EngineStatus where
  | idle
  | running
  | paused
  | stopping
  deriving DecidableEq, Repr

namespace EngineStatus

/-- Every status with its word. -/
def words : List (EngineStatus × String) :=
  [(idle, "idle"), (running, "running"), (paused, "paused"), (stopping, "stopping")]

/-- The word for a status. -/
def word (s : EngineStatus) : String := (words.lookup s).getD ""

/-- A status in a document. -/
def ofJson? (v : Json) : Option EngineStatus := do
  let n ← Json.choice? false (words.map (·.2)) v
  (words[n]?).map (·.1)

/-- A status as it stands in documents. -/
def toJson (s : EngineStatus) : Json := .string s.word

end EngineStatus

/-- What observers see of the engine. -/
structure EngineState where
  status : EngineStatus
  taskId : Option TaskId
  index : Option Nat
  total : Option Nat
  startedAt : Option Timestamp
  /-- The number of runs that ended without failing. -/
  executions : UInt64
  /-- Kept until a run starts. -/
  lastError : Option String
  deriving DecidableEq, Repr

namespace EngineState

/-- An engine that has done nothing yet. -/
def initial : EngineState := ⟨.idle, none, none, none, none, 0, none⟩

/-- Forgets the active run. -/
def clearProgress (s : EngineState) : EngineState :=
  { s with taskId := none, index := none, total := none, startedAt := none }

/-- The names of the fields in documents. -/
def names : List String :=
  ["status", "current_task_id", "current_index", "total_actions", "started_at", "execution_count",
    "last_error"]

/-- A snapshot in a document. -/
def ofJson? (v : Json) : Option EngineState := do
  let r ← Json.Record.of? names v
  return {
    status := ← r.required "status" EngineStatus.ofJson?
    taskId := ← r.optional "current_task_id" Uuid.ofJson?
    index := ← r.optional "current_index" fun v => v.uint64?.map UInt64.toNat
    total := ← r.optional "total_actions" fun v => v.uint64?.map UInt64.toNat
    startedAt := ← r.optional "started_at" Timestamp.ofJson?
    executions := ← r.required "execution_count" Json.uint64?
    lastError := ← r.optional "last_error" Json.text? }

/-- A snapshot as it stands in documents. -/
def toJson (s : EngineState) : Json :=
  .object
    [("status", s.status.toJson),
     ("current_task_id", .ofOption Uuid.toJson s.taskId),
     ("current_index", .ofOption .ofNat s.index),
     ("total_actions", .ofOption .ofNat s.total),
     ("started_at", .ofOption Timestamp.toJson s.startedAt),
     ("execution_count", .ofNat s.executions.toNat),
     ("last_error", .ofOption .string s.lastError)]

end EngineState
end TaskReplay
