import TaskReplay.Action.Basic
import TaskReplay.Json.Decode

/-!
Steps in documents.

What this file fixes:
* a step is one object: the fields of its header, a member `type` and the fields of that kind side
  by side; inner steps stand in arrays of such objects;
* absent optional fields are left out, but the length of a wait is written as `null`;
* a reader passes over unknown members, and refuses a known one that comes twice;
* where the whole value was buffered first (inside an action), a `type` may also be its place in the
  list of kinds.
-/

namespace TaskReplay

/-! ## 1. Click targets -/

namespace ClickTarget

/-- The kinds of target. -/
def kinds : List String := ["coordinates", "image", "variable"]

/-- The target of a kind, from its fields. -/
def ofFields? (kind : Nat) (v : Json) : Option ClickTarget :=
  match kind with
  | 0 => do
    let r ← Json.Record.of? ["x", "y"] v
    return coordinates (← r.required "x" Json.int32?) (← r.required "y" Json.int32?)
  | 1 => do
    let r ← Json.Record.of? ["template"] v
    return image (← r.required "template" Json.text?)
  | _ => do
    let r ← Json.Record.of? ["name"] v
    return stored (← r.required "name" Json.text?)

/-- A target in a document. -/
def ofJson? (buffered : Bool) (v : Json) : Option ClickTarget := do
  let (kind, fields) ← Json.tagged? buffered kinds v
  ofFields? kind fields

/-- A target as it stands in documents. -/
def toJson : ClickTarget → Json
  | coordinates x y =>
    .object [("type", .string "coordinates"), ("x", .ofInt x.toInt), ("y", .ofInt y.toInt)]
  | image template => .object [("type", .string "image"), ("template", .string template)]
  | stored name => .object [("type", .string "variable"), ("name", .string name)]

end ClickTarget

/-! ## 2. Clicks and words -/

namespace Click

/-- The names of a click's fields. -/
def names : List String := ["target", "offset_x", "offset_y", "random_offset"]

/-- A click from its fields. -/
def ofRecord? (buffered : Bool) (r : Json.Record) : Option Click := do
  return {
    target := ← r.required "target" (ClickTarget.ofJson? buffered)
    offsetX := ← r.defaulted "offset_x" 0 Json.int32?
    offsetY := ← r.defaulted "offset_y" 0 Json.int32?
    randomOffset := ← r.defaulted "random_offset" 0 Json.uint32? }

/-- A click in a document. -/
def ofJson? (v : Json) : Option Click := do ofRecord? false (← Json.Record.of? names v)

/-- The fields of a click. -/
def members (c : Click) : List (String × Json) :=
  [("target", c.target.toJson), ("offset_x", .ofInt c.offsetX.toInt),
   ("offset_y", .ofInt c.offsetY.toInt), ("random_offset", .ofNat c.randomOffset.toNat)]

end Click

/-- The words for kinds of click, in order. -/
def ClickKind.names : List String := ["single", "double", "right"]

/-- The kind of click of a place in the list. -/
def ClickKind.ofPlace : Nat → ClickKind
  | 0 => single
  | 1 => double
  | _ => right

/-- A kind of click in a document. -/
def ClickKind.ofJson? (v : Json) : Option ClickKind := (Json.choice? false names v).map ofPlace

/-- A kind of click as it stands in documents. -/
def ClickKind.toJson : ClickKind → Json
  | single => .string "single"
  | double => .string "double"
  | right => .string "right"

/-- The words for predicates, in order. -/
def Predicate.names : List String := ["image_visible", "image_not_visible", "variable_equals"]

/-- The predicate of a place in the list. -/
def Predicate.ofPlace : Nat → Predicate
  | 0 => imageVisible
  | 1 => imageNotVisible
  | _ => variableEquals

/-- A predicate in a document. -/
def Predicate.ofJson? (buffered : Bool) (v : Json) : Option Predicate :=
  (Json.choice? buffered names v).map ofPlace

/-- A predicate as it stands in documents. -/
def Predicate.toJson : Predicate → Json
  | imageVisible => .string "image_visible"
  | imageNotVisible => .string "image_not_visible"
  | variableEquals => .string "variable_equals"

/-- The words for kinds of loop, in order. -/
def LoopKind.names : List String :=
  ["count", "while_image_visible", "until_image_visible", "infinite"]

/-- The kind of loop of a place in the list. -/
def LoopKind.ofPlace : Nat → LoopKind
  | 0 => count
  | 1 => whileImageVisible
  | 2 => untilImageVisible
  | _ => infinite

/-- A kind of loop in a document. -/
def LoopKind.ofJson? (buffered : Bool) (v : Json) : Option LoopKind :=
  (Json.choice? buffered names v).map ofPlace

/-- A kind of loop as it stands in documents. -/
def LoopKind.toJson : LoopKind → Json
  | count => .string "count"
  | whileImageVisible => .string "while_image_visible"
  | untilImageVisible => .string "until_image_visible"
  | infinite => .string "infinite"

/-! ## 3. Writing steps -/

/-- A member that is left out when there is nothing to write. -/
def unlessNone (name : String) (write : α → Json) : Option α → List (String × Json)
  | none => []
  | some a => [(name, write a)]

/-- A delay as it stands in documents. -/
def delayJson (ms : UInt64) : Json := .ofNat ms.toNat

namespace Header

/-- The fields of a header. -/
def members (h : Header) : List (String × Json) :=
  ("id", .string h.id) :: unlessNone "description" .string h.description ++
    unlessNone "delay_before_ms" delayJson h.delayBefore ++
    unlessNone "delay_after_ms" delayJson h.delayAfter ++
    [("continue_on_error", .bool h.continueOnError)]

end Header

/-- The kind and the fields of a step without inner steps. -/
def Deed.members : Deed → List (String × Json)
  | .click kind place =>
    ("type", .string (match kind with
      | .single => "click"
      | .double => "double_click"
      | .right => "right_click")) :: place.members
  | .typeText text keyDelay =>
    ("type", .string "type") :: ("text", .string text) ::
      unlessNone "inter_key_delay_ms" delayJson keyDelay
  | .pressKey key => [("type", .string "press_key"), ("key", .string key)]
  | .hotkey keys => [("type", .string "hotkey"), ("keys", .ofList .string keys)]
  | .wait duration variation =>
    [("type", .string "wait"), ("duration_ms", .ofOption delayJson duration),
     ("random_variation_ms", delayJson variation)]
  | .findImage template confidence region storeInto =>
    ("type", .string "find_image") :: ("template", .string template) ::
      unlessNone "confidence" .ofFloat32 confidence ++ unlessNone "region" Region.toJson region ++
      unlessNone "store_into" .string storeInto
  | .waitForImage template timeout confidence disappear storeInto =>
    ("type", .string "wait_for_image") :: ("template", .string template) ::
      ("timeout_ms", .ofOption delayJson timeout) ::
      unlessNone "confidence" .ofFloat32 confidence ++
      ("wait_for_disappearance", .bool disappear) :: unlessNone "store_into" .string storeInto

/-- The fields of a test. -/
def Test.members (t : Test) : List (String × Json) :=
  ("predicate", t.predicate.toJson) :: unlessNone "template" .string t.template ++
    unlessNone "variable" .string t.variableName ++ unlessNone "expected" .string t.expected

/-- The fields of a loop's rule. -/
def LoopRule.members (r : LoopRule) : List (String × Json) :=
  ("loop_kind", r.kind.toJson) :: unlessNone "count" (fun n => .ofNat n.toNat) r.count ++
    unlessNone "template" .string r.template ++
    unlessNone "max_iterations" (fun n => .ofNat n.toNat) r.maxIterations

namespace Action

mutual

/-- The kind and the fields of a step, its header left aside. -/
def kindMembers : Action → List (String × Json)
  | simple _ d => d.members
  | condition _ t a b =>
    ("type", .string "condition") :: t.members ++
      [("then_actions", .array (listJson a)), ("else_actions", .array (listJson b))]
  | loop _ r b => ("type", .string "loop") :: r.members ++ [("actions", .array (listJson b))]

/-- Steps as they stand in documents. -/
def listJson : List Action → List Json
  | [] => []
  | a :: rest => .object (a.header.members ++ kindMembers a) :: listJson rest

end

/-- A step as it stands in documents. -/
def toJson (a : Action) : Json := .object (a.header.members ++ a.kindMembers)

/-- The kind of a step as it stands alone in documents. -/
def kindJson (a : Action) : Json := .object a.kindMembers

/-! ## 4. Reading steps -/

/-- The kinds of step. -/
def kinds : List String :=
  ["click", "double_click", "right_click", "type", "press_key", "hotkey", "wait", "find_image",
    "wait_for_image", "condition", "loop"]

/-- The names of the fields of each kind. -/
def fieldNames : Nat → List String
  | 0 | 1 | 2 => Click.names
  | 3 => ["text", "inter_key_delay_ms"]
  | 4 => ["key"]
  | 5 => ["keys"]
  | 6 => ["duration_ms", "random_variation_ms"]
  | 7 => ["template", "confidence", "region", "store_into"]
  | 8 => ["template", "timeout_ms", "confidence", "wait_for_disappearance", "store_into"]
  | 9 => ["predicate", "template", "variable", "expected", "then_actions", "else_actions"]
  | _ => ["loop_kind", "count", "template", "max_iterations", "actions"]

/-- A step of a kind without inner steps, from its fields. -/
def deed? (kind : Nat) (r : Json.Record) : Option Deed :=
  match kind with
  | 0 | 1 | 2 => do return .click (ClickKind.ofPlace kind) (← Click.ofRecord? true r)
  | 3 => do
    return .typeText (← r.required "text" Json.text?)
      (← r.lenient "inter_key_delay_ms" Json.uint64?)
  | 4 => do return .pressKey (← r.required "key" Json.text?)
  | 5 => do return .hotkey (← r.required "keys" (Json.list? Json.text?))
  | 6 => do
    return .wait (← r.lenient "duration_ms" Json.uint64?)
      (← r.defaulted "random_variation_ms" 0 Json.uint64?)
  | 7 => do
    return .findImage (← r.required "template" Json.text?) (← r.lenient "confidence" Json.float32?)
      (← r.lenient "region" Region.ofJson?) (← r.lenient "store_into" Json.text?)
  | 8 => do
    return .waitForImage (← r.required "template" Json.text?)
      (← r.lenient "timeout_ms" Json.uint64?) (← r.lenient "confidence" Json.float32?)
      (← r.defaulted "wait_for_disappearance" false Json.bool?)
      (← r.lenient "store_into" Json.text?)
  | _ => none

/-- The test of a condition, from its fields. -/
def test? (r : Json.Record) : Option Test := do
  return ⟨← r.required "predicate" (Predicate.ofJson? true), ← r.lenient "template" Json.text?,
    ← r.lenient "variable" Json.text?, ← r.lenient "expected" Json.text?⟩

/-- The rule of a loop, from its fields. -/
def rule? (r : Json.Record) : Option LoopRule := do
  return ⟨← r.required "loop_kind" (LoopKind.ofJson? true), ← r.lenient "count" Json.uint32?,
    ← r.lenient "template" Json.text?, ← r.lenient "max_iterations" Json.uint32?⟩

/-- A step of a kind from its fields; `inner` gives the inner steps in a field, none if it is
absent. -/
def ofFields? (h : Header) (kind : Nat) (r : Json.Record) (inner : String → Option (List Action)) :
    Option Action :=
  match kind with
  | 9 => do return condition h (← test? r) (← inner "then_actions") (← inner "else_actions")
  | 10 => do return loop h (← rule? r) (← inner "actions")
  | _ => do return simple h (← deed? kind r)

/-- Inner steps of a field that may be absent: none then. -/
def innerOf (bodies : List (String × Option (List Action))) (name : String) :
    Option (List Action) :=
  match bodies.lookup name with
  | some body => body
  | none => some []

/-- The names of a header's fields. -/
def headerNames : List String :=
  ["id", "description", "delay_before_ms", "delay_after_ms", "continue_on_error"]

/-- A header from its fields. -/
def header? (r : Json.Record) : Option Header := do
  return {
    id := ← r.required "id" Json.text?
    description := ← r.lenient "description" Json.text?
    delayBefore := ← r.lenient "delay_before_ms" Json.uint64?
    delayAfter := ← r.lenient "delay_after_ms" Json.uint64?
    continueOnError := ← r.defaulted "continue_on_error" false Json.bool? }

/-- A step from the members of its object and the inner steps that each member would hold. -/
def assemble? (members : List (String × Json)) (bodies : List (String × Option (List Action))) :
    Option Action := do
  let h ← header? (← Json.Record.ofMembers? headerNames (.object members))
  let (kind, fields) ← Json.tagged? true kinds (.object members)
  let r ← Json.Record.of? (fieldNames kind) fields
  ofFields? h kind r (innerOf bodies)

mutual

/-- A step in a document. -/
def ofJson? : Json → Option Action
  | .object members => assemble? members (bodiesOf members)
  | _ => none

/-- What each member is when read as a sequence of steps. -/
def bodiesOf : List (String × Json) → List (String × Option (List Action))
  | [] => []
  | (name, v) :: rest => (name, listOf? v) :: bodiesOf rest

/-- A sequence of steps in a document. -/
def listOf? : Json → Option (List Action)
  | .array items => itemsOf? items
  | _ => none

/-- Steps in a list of values. -/
def itemsOf? : List Json → Option (List Action)
  | [] => some []
  | v :: rest =>
    match ofJson? v, itemsOf? rest with
    | some a, some as => some (a :: as)
    | _, _ => none

end

/-- The kind of a step that stands alone in a document, under a given header. -/
def ofKindJson? (h : Header) (v : Json) : Option Action := do
  let (kind, fields) ← Json.tagged? false kinds v
  let r ← Json.Record.of? (fieldNames kind) fields
  ofFields? h kind r (innerOf (bodiesOf r.fields))

end Action
end TaskReplay
