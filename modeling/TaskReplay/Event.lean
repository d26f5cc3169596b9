import TaskReplay.Time.Rfc3339
import TaskReplay.Uuid

/-!
Notifications about the progress of the engine.

What this file fixes:
* an `Event` is a type, the task it is about and a document with the details;
* a `Record` is an event as it is kept: with an id and the time of its making.
-/

namespace TaskReplay

/-- What an event tells. -/
inductive EventType where
  | statusChanged
  | stepStarted
  | stepCompleted
  | stepFailed
  | runFinished
  deriving DecidableEq, Repr, Inhabited

namespace EventType

/-- Every type with its word. -/
def words : List (EventType × String) :=
  [(statusChanged, "status_changed"), (stepStarted, "step_started"),
   (stepCompleted, "step_completed"), (stepFailed, "step_failed"), (runFinished, "run_finished")]

/-- The word for a type. -/
def word (t : EventType) : String := (words.lookup t).getD ""

/-- A type in a document. -/
def ofJson? (v : Json) : Option EventType := do
  let n ← Json.choice? false (words.map (·.2)) v
  (words[n]?).map (·.1)

/-- A type as it stands in documents. -/
def toJson (t : EventType) : Json := .string t.word

end EventType

/-- A notification. -/
structure Event where
  type : EventType
  taskId : Option TaskId
  data : Json
  deriving Inhabited

namespace Event

/-- An event as it is kept. -/
structure Record where
  id : Uuid
  event : Event
  timestamp : Timestamp

/-- The names of the fields in documents. -/
def Record.names : List String := ["id", "event_type", "task_id", "data", "timestamp"]

/-- A kept event in a document. -/
def Record.ofJson? (v : Json) : Option Record := do
  let r ← Json.Record.of? names v
  return {
    id := ← r.required "id" Uuid.ofJson?
    event := {
      type := ← r.required "event_type" EventType.ofJson?
      taskId := ← r.optional "task_id" Uuid.ofJson?
      data := ← r.required "data" Json.canonical? }
    timestamp := ← r.required "timestamp" Timestamp.ofJson? }

/-- A kept event as it stands in documents. -/
def Record.toJson (r : Record) : Json :=
  .object
    [("id", r.id.toJson),
     ("event_type", r.event.type.toJson),
     ("task_id", .ofOption Uuid.toJson r.event.taskId),
     ("data", r.event.data),
     ("timestamp", r.timestamp.toJson)]

end Event
end TaskReplay
