import TaskReplay.Store.Basic

/-!
Stores as texts.

What this file fixes:
* the text of a store is a JSON array of its settings and its rows, each an array of its cells;
* `ofText?` reads what `toText` writes.
-/

namespace TaskReplay.Store

/-! ## 1. Writing -/

/-- An integer cell. -/
def Whole.toJson : Whole → Json
  | integer n => .ofInt n.toInt
  | text s => .string s

/-- A row under its key. -/
def rowJson (e : String × Row) : Json :=
  let r := e.2
  .array [.string e.1, .string r.name, .ofOption .string r.description, r.enabled.toJson,
    .string r.actions, .string r.createdAt, .string r.updatedAt, r.runCount.toJson,
    .ofOption .string r.lastRunAt, .ofOption Whole.toJson r.lastRunSuccess]

/-- The text of a store. -/
def toText (s : Store) : String :=
  (Json.array (.ofOption .string s.settings :: s.rows.entries.map rowJson)).print

/-! ## 2. Reading -/

/-- An integer cell. -/
def Whole.ofJson? : Json → Option Whole
  | .string s => some (.text s)
  | v => (v.int? Width.minInt64 Width.maxInt64).map fun n => .integer (Int64.ofInt n)

/-- A row under its key. -/
def rowOfJson? : Json → Option (String × Row)
  | .array
      [key, name, description, enabled, actions, created, updated, count, lastAt, success] => do
    return (← key.text?, {
      name := ← name.text?
      description := ← Json.nullable Json.text? description
      enabled := ← Whole.ofJson? enabled
      actions := ← actions.text?
      createdAt := ← created.text?
      updatedAt := ← updated.text?
      runCount := ← Whole.ofJson? count
      lastRunAt := ← Json.nullable Json.text? lastAt
      lastRunSuccess := ← Json.nullable Whole.ofJson? success })
  | _ => none

/-- The store that a text stands for; an empty text is an empty store. -/
def ofText? (text : String) : Option Store :=
  if text.isEmpty then some .empty
  else match Json.parse text with
    | some (.array (settings :: rows)) => do
      let rows ← rows.mapM rowOfJson?
      if (rows.map (·.1)).Nodup then
        return ⟨⟨rows⟩, ← Json.nullable Json.text? settings⟩
      else none
    | _ => none

end TaskReplay.Store
