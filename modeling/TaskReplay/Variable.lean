import TaskReplay.Assoc
import TaskReplay.Decimal.Layout
import TaskReplay.Geometry

/-!
Variables of a run.

What this file fixes:
* a `Value` is nothing, a truth value, a number, a text or a point, told apart in documents by form;
* `Value.display` is the text that conditions compare with: whole numbers have no point, a point is
  `x,y`, and nothing is `null`;
* a `Scope` is a finite map from names to values, and a variable never written reads as `null`.
-/

namespace TaskReplay

/-! ## 1. Values -/

/-- What a variable may hold. -/
inductive Value where
  | null
  | bool (value : Bool)
  | number (value : Float)
  | text (value : String)
  | point (value : Point)
  deriving DecidableEq

namespace Value

/-- A point, or nothing. -/
def ofLocation : Option Point → Value
  | some p => .point p
  | none => .null

/-- The point a value is. -/
def point? : Value → Option Point
  | .point p => some p
  | _ => none

/-- The text that conditions compare with. A whole number beyond 64 bits shows as the end of that
range. -/
def display : Value → String
  | .null => "null"
  | .bool b => if b then "true" else "false"
  | .number x =>
    if x.isFinite && x.floor == x then toString x.toInt64.toInt else Decimal.ofFloat x
  | .text s => s
  | .point p => p.pair

/-- A value in a document. -/
def ofJson? : Json → Option Value
  | .null => some .null
  | .bool b => some (.bool b)
  | .number n => n.number?.map fun n => .number n.toFloat
  | .string s => some (.text s)
  | v => (Point.ofJson? v).map .point

/-- A value as it stands in documents. -/
def toJson : Value → Json
  | .null => .null
  | .bool b => .bool b
  | .number x => .ofFloat x
  | .text s => .string s
  | .point p => p.toJson

end Value

/-! ## 2. Scopes -/

/-- The variables of a run. -/
abbrev Scope := Assoc String Value

namespace Scope

/-- The value of a variable, with nothing for one never written. -/
def value (s : Scope) (name : String) : Value := (s.get? name).getD .null

/-- The point in a variable. -/
def point? (s : Scope) (name : String) : Option Point := (s.get? name).bind Value.point?

/-- The text of a variable in comparisons. -/
def display (s : Scope) (name : String) : String := (s.value name).display

/-- Variables in a document; of equal names the last counts. -/
def ofJson? : Json → Option Scope
  | .object members =>
    members.foldlM (fun s m => (Value.ofJson? m.2).map (s.set m.1)) .empty
  | _ => none

/-- Variables as they stand in documents. -/
def toJson (s : Scope) : Json := .object (s.entries.map fun e => (e.1, e.2.toJson))

end Scope
end TaskReplay
