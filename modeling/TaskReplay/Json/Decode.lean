import TaskReplay.Json.Number
import TaskReplay.Json.Parser

/-!
Reading JSON values as data of the library.

What this file fixes:
* each reader of a leaf accepts one kind of value: no number is read as a text, no `1.0` as a whole
  number, and `null` only where `nullable` says so;
* a `Record` is an object with no known name twice, or an array of the fields in their order;
  unknown names are passed over;
* `required`, `optional` and `defaulted` are the three ways a field may be absent;
* `readable` is what a reader of a text demands of the parts it looks at: at most 127 arrays and
  objects open, no number out of range, no garbled string.
-/

namespace TaskReplay.Json

/-! ## 1. Leaves -/

/-- The number of a value. -/
def number? : Json → Option Number
  | .number n => n.number?
  | _ => none

/-- A whole number between two bounds. -/
def int? (low high : Int) (v : Json) : Option Int := do
  let n ← (← v.number?).toInt?
  if low ≤ n ∧ n ≤ high then some n else none

/-- A whole number of 64 bits without sign. -/
def uint64? (v : Json) : Option UInt64 := (v.int? 0 Width.maxUInt64).map fun n => n.toNat.toUInt64

/-- A whole number of 32 bits without sign. -/
def uint32? (v : Json) : Option UInt32 := (v.int? 0 Width.maxUInt32).map fun n => n.toNat.toUInt32

/-- A whole number of 8 bits without sign. -/
def uint8? (v : Json) : Option UInt8 := (v.int? 0 255).map fun n => n.toNat.toUInt8

/-- A whole number of 32 bits with sign. -/
def int32? (v : Json) : Option Int32 := (v.int? Width.minInt32 Width.maxInt32).map Int32.ofInt

/-- A double. -/
def float? (v : Json) : Option Float := v.number?.map Number.toFloat

/-- A single. -/
def float32? (v : Json) : Option Float32 := v.number?.map Number.toFloat32

/-- A text. -/
def text? : Json → Option String
  | .string s => some s
  | _ => none

/-- A truth value. -/
def bool? : Json → Option Bool
  | .bool b => some b
  | _ => none

/-- A text of exactly one character. -/
def char? : Json → Option Char
  | .string s =>
    match s.toList with
    | [c] => some c
    | _ => none
  | _ => none

/-- The items of an array. -/
def items? : Json → Option (List Json)
  | .array items => some items
  | _ => none

/-- A list of values of one kind. -/
def list? (read : Json → Option α) (v : Json) : Option (List α) := do (← v.items?).mapM read

/-- A value or `null`. -/
def nullable (read : Json → Option α) : Json → Option (Option α)
  | .null => some none
  | v => (read v).map some

/-! ## 2. Names out of a fixed list -/

/-- The place of a name in a list of names. -/
def place? (names : List String) (name : String) : Option Nat := names.findIdx? (· == name)

/-- A name out of a list, given as a text or as an object with that one member, which holds `null`.
Within `buffered` values the member may also hold the empty object. -/
def choice? (buffered : Bool) (names : List String) : Json → Option Nat
  | .string s => place? names s
  | .object [(s, .null)] => place? names s
  | .object [(s, .object [])] => if buffered then place? names s else none
  | _ => none

/-- The tag of a tagged value: a name out of a list or, within `buffered` values, its place. -/
def tag? (buffered : Bool) (names : List String) : Json → Option Nat
  | .string s => place? names s
  | .number n =>
    if buffered then
      match n.number? with
      | some (.natural k) => if k.toNat < names.length then some k.toNat else none
      | _ => none
    else none
  | _ => none

/-! ## 3. Records -/

/-- The fields of a record, by name. -/
structure Record where
  positional : Bool
  fields : List (String × Json)

namespace Record

/-- The record in a value, if its field names are `names`. -/
def of? (names : List String) : Json → Option Record
  | .object members =>
    let known := members.filter fun m => names.contains m.1
    if (known.map (·.1)).Nodup then some ⟨false, known⟩ else none
  | .array items => if items.length ≤ names.length then some ⟨true, names.zip items⟩ else none
  | _ => none

/-- The record in an object. -/
def ofMembers? (names : List String) : Json → Option Record
  | .object members => of? names (.object members)
  | _ => none

/-- The field of that name. -/
def get? (r : Record) (name : String) : Option Json := r.fields.lookup name

/-- A field that must be there. -/
def required (r : Record) (name : String) (read : Json → Option α) : Option α :=
  (r.get? name).bind read

/-- A field that may be `null`, and absent from an object but not from an array. -/
def optional (r : Record) (name : String) (read : Json → Option α) : Option (Option α) :=
  match r.get? name with
  | some v => nullable read v
  | none => if r.positional then none else some none

/-- A field that may be absent. -/
def defaulted (r : Record) (name : String) (absent : α) (read : Json → Option α) : Option α :=
  match r.get? name with
  | some v => read v
  | none => some absent

/-- A field that may be absent or `null`. -/
def lenient (r : Record) (name : String) (read : Json → Option α) : Option (Option α) :=
  r.defaulted name none (nullable read)

end Record

/-- The tag and the fields of a tagged value: an object with one member `type`, or an array whose
first item is the tag. -/
def tagged? (buffered : Bool) (kinds : List String) : Json → Option (Nat × Json)
  | .object members =>
    match members.filter (·.1 == "type") with
    | [(_, t)] => (tag? buffered kinds t).map fun kind => (kind, .object members)
    | _ => none
  | .array (t :: fields) => (tag? buffered kinds t).map fun kind => (kind, .array fields)
  | _ => none

/-! ## 4. Any value -/

mutual

/-- The value with each number in its written form and the last of equally named members only;
`none` for numbers out of range and garbled strings. -/
def canonical? : Json → Option Json
  | .number n => n.number?.map ofNumber
  | .garbled => none
  | .array items => (canonicalItems? items).map .array
  | .object members => (canonicalMembers? members).map fun ms => .object (lastWins ms)
  | v => some v

def canonicalItems? : List Json → Option (List Json)
  | [] => some []
  | v :: rest =>
    match canonical? v, canonicalItems? rest with
    | some v, some rest => some (v :: rest)
    | _, _ => none

def canonicalMembers? : List (String × Json) → Option (List (String × Json))
  | [] => some []
  | (name, v) :: rest =>
    match canonical? v, canonicalMembers? rest with
    | some v, some rest => some ((name, v) :: rest)
    | _, _ => none

end

/-! ## 5. Reading texts -/

/-- Which members a reader looks at: all of them, or the named ones of a record. -/
inductive Shape where
  | whole
  | record (fields : List (String × Shape))

/-- The shape of a record whose fields are read whole. -/
def Shape.flat (names : List String) : Shape := .record (names.map fun n => (n, .whole))

mutual

/-- Whether a reader gets through a value with `room` levels of nesting left. -/
def readable (s : Shape) (room : Nat) : Json → Bool
  | .number n => n.number?.isSome
  | .garbled => false
  | .array items => 0 < room && readableItems s room items
  | .object members => 0 < room && readableMembers s room members
  | _ => true

def readableItems (s : Shape) (room : Nat) : List Json → Bool
  | [] => true
  | v :: rest =>
    match s with
    | .record ((_, first) :: fields) =>
      readable first (room - 1) v && readableItems (.record fields) room rest
    | _ => readable .whole (room - 1) v && readableItems s room rest

def readableMembers (s : Shape) (room : Nat) : List (String × Json) → Bool
  | [] => true
  | (name, v) :: rest =>
    (match s with
      | .whole => readable .whole (room - 1) v
      | .record fields =>
        match fields.lookup name with
        | some field => readable field (room - 1) v
        | none => true) && readableMembers s room rest

end

/-- The number of arrays and objects that may be open in a text. -/
def maxDepth : Nat := 127

/-- Reads a text of a given shape. -/
def readAs? (s : Shape) (read : Json → Option α) (text : String) : Option α := do
  let v ← parse text
  if readable s maxDepth v then read v else none

end TaskReplay.Json
