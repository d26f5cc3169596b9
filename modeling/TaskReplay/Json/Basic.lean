/-!
JSON values as they stand in a text.

What this file fixes:
* a number keeps its digits (`Numeral`), because which number it is depends on who reads it;
* an object keeps every member in order, equal names included, because refusing a repeated name is
  the reader's affair;
* `garbled` stands for a string with an unpaired surrogate: it is allowed wherever nobody looks;
* `depth` counts open arrays and objects.
-/

namespace TaskReplay

/-! ## 1. Values -/

/-- A number as written: `-whole.fraction e exponent`. -/
structure Numeral where
  negative : Bool
  whole : Nat
  fraction : List Nat
  exponent : Option Int
  deriving DecidableEq, Repr

/-- A JSON value. -/
inductive Json where
  | null
  | bool (value : Bool)
  | number (numeral : Numeral)
  | string (text : String)
  | garbled
  | array (items : List Json)
  | object (members : List (String × Json))
  deriving Repr, Inhabited

namespace Json

/-- A whole number without fraction and exponent. -/
def ofInt (n : Int) : Json := .number ⟨n < 0, n.natAbs, [], none⟩

/-- A natural number. -/
def ofNat (n : Nat) : Json := .number ⟨false, n, [], none⟩

/-- A value or `null`. -/
def ofOption (write : α → Json) : Option α → Json
  | none => .null
  | some a => write a

/-- A list of values. -/
def ofList (write : α → Json) (items : List α) : Json := .array (items.map write)

/-! ## 2. Nesting -/

mutual

/-- The largest number of arrays and objects open at one place. -/
def depth : Json → Nat
  | .array items => 1 + depthItems items
  | .object members => 1 + depthMembers members
  | _ => 0

/-- The largest depth of a list of values. -/
def depthItems : List Json → Nat
  | [] => 0
  | v :: rest => max (depth v) (depthItems rest)

/-- The largest depth of the members of an object. -/
def depthMembers : List (String × Json) → Nat
  | [] => 0
  | (_, v) :: rest => max (depth v) (depthMembers rest)

end

/-! ## 3. Members -/

/-- The first member of that name. -/
def member? (name : String) : Json → Option Json
  | .object members => members.lookup name
  | _ => none

/-- Of members with one name, the last. -/
def lastWins (members : List (String × Json)) : List (String × Json) :=
  members.foldr (fun m kept => if kept.any (·.1 == m.1) then kept else m :: kept) []

mutual

/-- The value with the last of equally named members only, at every depth. -/
def settled : Json → Json
  | .array items => .array (settledItems items)
  | .object members => .object (lastWins (settledMembers members))
  | v => v

def settledItems : List Json → List Json
  | [] => []
  | v :: rest => settled v :: settledItems rest

def settledMembers : List (String × Json) → List (String × Json)
  | [] => []
  | (name, v) :: rest => (name, settled v) :: settledMembers rest

end

end Json
end TaskReplay
