import TaskReplay.Action.Codec
import TaskReplay.Task.Basic
import TaskReplay.Time.Rfc3339

/-!
Tasks in documents.

What this file fixes:
* a task is written with every field, apart from a missing description;
* a task file is what people write: name, description and steps, without id and record of runs.
-/

namespace TaskReplay.Task

/-! ## 1. Stored tasks -/

/-- The names of the fields in documents. -/
def names : List String :=
  ["id", "name", "description", "enabled", "actions", "created_at", "updated_at", "run_count",
    "last_run_at", "last_run_success"]

/-- A task in a document. -/
def ofJson? (v : Json) : Option Task := do
  let r ← Json.Record.of? names v
  return {
    id := ← r.required "id" Uuid.ofJson?
    name := ← r.required "name" Json.text?
    description := ← r.lenient "description" Json.text?
    enabled := ← r.required "enabled" Json.bool?
    actions := ← r.required "actions" Action.listOf?
    createdAt := ← r.required "created_at" Timestamp.ofJson?
    updatedAt := ← r.required "updated_at" Timestamp.ofJson?
    runCount := ← r.defaulted "run_count" 0 Json.uint64?
    lastRunAt := ← r.lenient "last_run_at" Timestamp.ofJson?
    lastRunSuccess := ← r.lenient "last_run_success" Json.bool? }

/-- A task as it stands in documents. -/
def toJson (t : Task) : Json :=
  .object (
    [("id", t.id.toJson), ("name", .string t.name)] ++
    unlessNone "description" .string t.description ++
    [("enabled", .bool t.enabled),
     ("actions", .array (Action.listJson t.actions)),
     ("created_at", t.createdAt.toJson),
     ("updated_at", t.updatedAt.toJson),
     ("run_count", .ofNat t.runCount.toNat),
     ("last_run_at", .ofOption Timestamp.toJson t.lastRunAt),
     ("last_run_success", .ofOption .bool t.lastRunSuccess)])

/-! ## 2. Task files -/

/-- The names of the fields of a task file. -/
def Draft.names : List String := ["name", "description", "actions"]

/-- A task file. -/
def Draft.ofJson? (v : Json) : Option Draft := do
  let r ← Json.Record.of? names v
  return { Draft.empty with
    name := some (← r.required "name" Json.text?)
    description := ← r.lenient "description" Json.text?
    actions := ← r.required "actions" Action.listOf? }

/-- The text of a task file. -/
def Draft.ofText? (text : String) : Option Draft := Json.readAs? (.flat names) ofJson? text

end TaskReplay.Task
