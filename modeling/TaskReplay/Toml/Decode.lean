import TaskReplay.Toml.Basic

/-!
Reading TOML values as data of the library.

What this file fixes:
* a record is a table or an array of its fields in their order; a date or time is a record without
  fields; unknown names and spare items are passed over;
* every field may be absent; one that is there must read.
-/

namespace TaskReplay.Toml

/-! ## 1. Leaves -/

/-- A text. -/
def text? : Toml → Option String
  | .string s => some s
  | _ => none

/-- A whole number of 64 bits without sign. -/
def uint64? : Toml → Option UInt64
  | .integer n => if 0 ≤ n then some n.toUInt64 else none
  | _ => none

/-- A whole number of 32 bits with sign. -/
def int32? : Toml → Option Int32
  | .integer n =>
    if Int32.minValue.toInt ≤ n.toInt ∧ n.toInt ≤ Int32.maxValue.toInt then some n.toInt32 else none
  | _ => none

/-- A single. -/
def float32? : Toml → Option Float32
  | .integer n => some n.toFloat32
  | .float x => some x.toFloat32
  | _ => none

/-- The entries of a table. -/
def entries? : Toml → Option (List (String × Toml))
  | .table entries => some entries
  | _ => none

/-! ## 2. Records -/

/-- The fields of a record whose field names are `names`. -/
def record? (names : List String) : Toml → Option (List (String × Toml))
  | .table entries => some entries
  | .array items => some (names.zip items)
  | .moment => some []
  | _ => none

/-- A field that may be absent. -/
def defaulted (fields : List (String × Toml)) (name : String) (absent : α)
    (read : Toml → Option α) : Option α :=
  match fields.lookup name with
  | some v => read v
  | none => some absent

/-- A field with no value when it is absent. -/
def optional (fields : List (String × Toml)) (name : String) (read : Toml → Option α) :
    Option (Option α) :=
  defaulted fields name none fun v => (read v).map some

end TaskReplay.Toml
