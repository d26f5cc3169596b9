import TaskReplay.Store.Basic

/-!
Values written into columns past the store's own operations.

What this file fixes:
* a patch writes one value into one column of every row, or is refused and changes nothing;
* it is refused for no value in a column that needs one, and for one key in two rows.
-/

namespace TaskReplay.Store

/-! ## 1. Columns -/

/-- A column of the table of tasks. -/
inductive Column where
  | id
  | name
  | description
  | enabled
  | actions
  | createdAt
  | updatedAt
  | runCount
  | lastRunAt
  | lastRunSuccess
  deriving DecidableEq, Repr

/-- The column of that name, in either case. -/
def Column.ofName? (name : String) : Option Column :=
  [("id", id), ("name", .name), ("description", description), ("enabled", enabled),
   ("actions", actions), ("created_at", createdAt), ("updated_at", updatedAt),
   ("run_count", runCount), ("last_run_at", lastRunAt),
   ("last_run_success", lastRunSuccess)].lookup (name.map Char.toLower)

/-! ## 2. Patches -/

/-- A row under its key with a value in one column, unless the column needs one and gets none. -/
def patched (c : Column) (v : Raw) (e : String × Row) : Option (String × Row) :=
  let (key, r) := e
  match c with
  | .id => v.asText?.map fun s => (s, r)
  | .name => v.asText?.map fun s => (key, { r with name := s })
  | .description => some (key, { r with description := v.asText? })
  | .enabled => v.asWhole?.map fun w => (key, { r with enabled := w })
  | .actions => v.asText?.map fun s => (key, { r with actions := s })
  | .createdAt => v.asText?.map fun s => (key, { r with createdAt := s })
  | .updatedAt => v.asText?.map fun s => (key, { r with updatedAt := s })
  | .runCount => v.asWhole?.map fun w => (key, { r with runCount := w })
  | .lastRunAt => some (key, { r with lastRunAt := v.asText? })
  | .lastRunSuccess => some (key, { r with lastRunSuccess := v.asWhole? })

/-- The store with a value in one column of every row. -/
def patch (s : Store) (c : Column) (v : Raw) : Option Store := do
  let entries ← s.rows.entries.mapM (patched c v)
  if (entries.map (·.1)).Nodup then some { s with rows := ⟨entries⟩ } else none

/-- The store with another text for its settings, if it has one. -/
def patchSettings (s : Store) (v : Raw) : Option Store :=
  match s.settings, v.asText? with
  | none, _ => some s
  | some _, some text => some { s with settings := some text }
  | some _, none => none

end TaskReplay.Store
