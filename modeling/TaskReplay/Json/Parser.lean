import TaskReplay.Json.Token

/-!
The value a token sequence stands for.

What this file fixes:
* `Parse` is the state between two tokens: what is due next, over the containers still open;
* `Parse.step?` is a function of state and token alone, so nesting costs list cells, not stack;
* `parse` accepts exactly one value with nothing after it, of any depth.
-/

namespace TaskReplay.Json

/-! ## 1. The state between two tokens -/

/-- A container still open: what it holds so far, latest first. -/
inductive Frame where
  | array (items : List Json)
  | object (members : List (String × Json)) (name : String)
  deriving Repr

/-- What is due next. -/
inductive Parse where
  | dueValue (outer : List Frame)
  | firstItem (outer : List Frame)
  | dueName (members : List (String × Json)) (outer : List Frame)
  | firstName (outer : List Frame)
  | dueColon (members : List (String × Json)) (name : String) (outer : List Frame)
  | after (value : Json) (outer : List Frame)
  deriving Repr

/-- The value or container that a token opens where a value is due. -/
def Parse.begin? (outer : List Frame) : Token → Option Parse
  | .openArray => some (.firstItem outer)
  | .openObject => some (.firstName outer)
  | .null => some (.after .null outer)
  | .bool b => some (.after (.bool b) outer)
  | .number n => some (.after (.number n) outer)
  | .string s => some (.after (.string s) outer)
  | .garbled => some (.after .garbled outer)
  | _ => none

/-- What one token does. -/
def Parse.step? : Parse → Token → Option Parse
  | .dueValue outer, t => Parse.begin? outer t
  | .firstItem outer, .closeArray => some (.after (.array []) outer)
  | .firstItem outer, t => Parse.begin? (.array [] :: outer) t
  | .firstName outer, .closeObject => some (.after (.object []) outer)
  | .firstName outer, .string s => some (.dueColon [] s outer)
  | .dueName members outer, .string s => some (.dueColon members s outer)
  | .dueColon members name outer, .colon => some (.dueValue (.object members name :: outer))
  | .after v (.array items :: outer), .comma => some (.dueValue (.array (v :: items) :: outer))
  | .after v (.array items :: outer), .closeArray =>
    some (.after (.array (v :: items).reverse) outer)
  | .after v (.object members name :: outer), .comma =>
    some (.dueName ((name, v) :: members) outer)
  | .after v (.object members name :: outer), .closeObject =>
    some (.after (.object ((name, v) :: members).reverse) outer)
  | _, _ => none

/-- The state after a sequence of tokens. -/
def Parse.run (p : Parse) : List Token → Option Parse
  | [] => some p
  | t :: ts =>
    match p.step? t with
    | none => none
    | some p => p.run ts

/-! ## 2. Reading a text -/

/-- The value of a token sequence. -/
def ofTokens? (ts : List Token) : Option Json :=
  match Parse.run (.dueValue []) ts with
  | some (.after v []) => some v
  | _ => none

/-- The value of a text. -/
def parse (text : String) : Option Json := (scan text.toList).bind ofTokens?

end TaskReplay.Json
