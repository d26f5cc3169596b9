import TaskReplay.Geometry

/-!
Steps of a script.

What this file fixes:
* an `Action` is a `Header`, the same for all, around a `Deed` without inner steps, a condition with
  two branches or a loop with a body, so a script is a tree;
* `children` lists the inner sequences, `walk` every step of the tree in the order of execution.
-/

namespace TaskReplay

/-! ## 1. Leaves -/

/-- Where a click lands. -/
inductive ClickTarget where
  /-- A fixed point. -/
  | coordinates (x y : Int32)
  /-- The centre of a template's match. -/
  | image (template : String)
  /-- A point stored earlier in the run. -/
  | stored (name : String)
  deriving DecidableEq, Repr

/-- How the button is pressed. -/
inductive ClickKind where
  | single
  | double
  | right
  deriving DecidableEq, Repr

/-- Place of a click: a target, a fixed offset and a random one. -/
structure Click where
  target : ClickTarget
  offsetX : Int32
  offsetY : Int32
  randomOffset : UInt32
  deriving DecidableEq, Repr

/-- A click at the target itself. -/
def Click.on (target : ClickTarget) : Click := ⟨target, 0, 0, 0⟩

/-- A step without inner steps. Delays are milliseconds. -/
inductive Deed where
  | click (kind : ClickKind) (place : Click)
  | typeText (text : String) (keyDelay : Option UInt64)
  | pressKey (key : String)
  | hotkey (keys : List String)
  | wait (duration : Option UInt64) (variation : UInt64)
  | findImage (template : String) (confidence : Option Float32) (region : Option Region)
      (storeInto : Option String)
  | waitForImage (template : String) (timeout : Option UInt64) (confidence : Option Float32)
      (disappear : Bool) (storeInto : Option String)
  deriving DecidableEq

/-! ## 2. Branching -/

/-- What a condition looks at. -/
inductive Predicate where
  | imageVisible
  | imageNotVisible
  | variableEquals
  deriving DecidableEq, Repr

/-- The test of a condition. Which fields it needs depends on the predicate. -/
structure Test where
  predicate : Predicate
  template : Option String
  variableName : Option String
  expected : Option String
  deriving DecidableEq, Repr

/-- What keeps a loop going. -/
inductive LoopKind where
  | count
  | whileImageVisible
  | untilImageVisible
  | infinite
  deriving DecidableEq, Repr

/-- The rule of a loop. -/
structure LoopRule where
  kind : LoopKind
  count : Option UInt32
  template : Option String
  maxIterations : Option UInt32
  deriving DecidableEq, Repr

/-- The bound of a loop that sets none. -/
def LoopRule.defaultLimit : Nat := 1000

/-- The bound of a loop. -/
def LoopRule.limit (r : LoopRule) : Nat :=
  match r.maxIterations with
  | some n => n.toNat
  | none => defaultLimit

/-! ## 3. Actions -/

/-- What every step carries. -/
structure Header where
  id : String
  description : Option String
  delayBefore : Option UInt64
  delayAfter : Option UInt64
  continueOnError : Bool
  deriving DecidableEq, Repr

/-- A header with a name and nothing else. -/
def Header.named (id : String) : Header := ⟨id, none, none, none, false⟩

/-- A step of a script. -/
inductive Action where
  | simple (header : Header) (deed : Deed)
  | condition (header : Header) (test : Test) (thenBranch elseBranch : List Action)
  | loop (header : Header) (rule : LoopRule) (body : List Action)

namespace Action

/-- The common part of a step. -/
def header : Action → Header
  | simple h _ => h
  | condition h _ _ _ => h
  | loop h _ _ => h

/-- The same step with another common part. -/
def withHeader (h : Header) : Action → Action
  | simple _ d => simple h d
  | condition _ t a b => condition h t a b
  | loop _ r b => loop h r b

@[simp] theorem header_withHeader (h : Header) (a : Action) : (a.withHeader h).header = h := by
  cases a <;> rfl

/-- The name of a step. -/
def id (a : Action) : String := a.header.id

/-- The inner sequences, in order. -/
def children : Action → List (List Action)
  | simple _ _ => []
  | condition _ _ a b => [a, b]
  | loop _ _ b => [b]

/-- The button and place of a click. -/
def click? : Action → Option (ClickKind × Click)
  | simple _ (.click kind place) => some (kind, place)
  | _ => none

mutual

/-- A step and all its inner steps, in the order of execution. -/
def walk : Action → List Action
  | simple h d => [simple h d]
  | condition h t a b => condition h t a b :: (walkAll a ++ walkAll b)
  | loop h r b => loop h r b :: walkAll b

/-- The steps of a sequence and all their inner steps. -/
def walkAll : List Action → List Action
  | [] => []
  | a :: rest => walk a ++ walkAll rest

end

end Action
end TaskReplay
