import TaskReplay.Action.Basic
import TaskReplay.Problem
import TaskReplay.Text.Blank

/-!
What a step must have to be run.

What this file fixes:
* `Action.problems` lists the faults of one step, inner steps left aside, in the order of its
  fields;
* a required text must have a character that is not blank, a confidence must lie between 0 and 1,
  and a loop must allow at least one iteration.
-/

namespace TaskReplay

/-! ## 1. Conditions on fields -/

/-- Whether a text is missing or has nothing but blanks in it. -/
def absent : Option String → Bool
  | none => true
  | some s => Text.onlyBlanks s

/-- Whether a confidence lies between 0 and 1. NaN does not. -/
def validConfidence (c : Float32) : Bool := 0 ≤ c && c ≤ 1

/-- The fault of an optional confidence. -/
def confidenceProblems (id : String) : Option Float32 → List Problem
  | none => []
  | some c => if validConfidence c then [] else [.confidenceRange id]

/-- A fault if a field is missing. -/
def missingIf (condition : Bool) (id : String) (field : Field) : List Problem :=
  if condition then [.missingField id field] else []

/-! ## 2. Faults of a step -/

/-- The faults of a click target. -/
def ClickTarget.problems (id : String) : ClickTarget → List Problem
  | .coordinates _ _ => []
  | .image template => missingIf (Text.onlyBlanks template) id .targetTemplate
  | .stored name => missingIf (Text.onlyBlanks name) id .targetName

/-- The faults of a step without inner steps. -/
def Deed.problems (id : String) : Deed → List Problem
  | .click _ place => place.target.problems id
  | .typeText _ _ => []
  | .pressKey key => missingIf (Text.onlyBlanks key) id .key
  | .hotkey keys => missingIf (keys.all Text.onlyBlanks) id .keys
  | .wait duration _ => missingIf duration.isNone id .duration
  | .findImage template confidence _ _ =>
    missingIf (Text.onlyBlanks template) id .template ++ confidenceProblems id confidence
  | .waitForImage template timeout confidence _ _ =>
    missingIf (Text.onlyBlanks template) id .template ++
      missingIf timeout.isNone id .timeout ++ confidenceProblems id confidence

/-- The faults of a condition's test. -/
def Test.problems (id : String) (t : Test) : List Problem :=
  match t.predicate with
  | .imageVisible | .imageNotVisible => missingIf (absent t.template) id .template
  | .variableEquals =>
    missingIf (absent t.variableName) id .variableName ++ missingIf t.expected.isNone id .expected

/-- The faults of a loop's rule. -/
def LoopRule.problems (id : String) (r : LoopRule) : List Problem :=
  (match r.kind with
    | .count => missingIf r.count.isNone id .count
    | .whileImageVisible | .untilImageVisible => missingIf (absent r.template) id .template
    | .infinite => []) ++
  if r.maxIterations = some 0 then [.noIterations id] else []

/-- The faults of a step, inner steps left aside. -/
def Action.problems : Action → List Problem
  | .simple h d => d.problems h.id
  | .condition h t _ _ => t.problems h.id
  | .loop h r _ => r.problems h.id

end TaskReplay
