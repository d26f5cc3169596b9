import Mathlib.Data.List.TakeWhile
import TaskReplay.Action.Check

/-!
# What a step requires

What a step must have to be run, said without the checks, and that the checks find exactly what is
missing:

* `Text.Filled` -- a text with more in it than blanks; `onlyBlanks_eq_true_iff` -- its counterpart;
* `Action.Complete` -- **a step has what its kind requires**, one definition per kind;
* `Action.problems_eq_nil_iff` -- a step has no faults of its own iff it is complete;
* `Problem.ofStep` -- the faults that are a step's own; `Action.filter_problems` -- no others are
  found by looking at one step.
-/

namespace TaskReplay

/-! ## 1. Texts -/

namespace Text

/-- A text with more in it than blanks. -/
def Filled (s : String) : Prop := trim s ≠ ""

instance (s : String) : Decidable (Filled s) := inferInstanceAs (Decidable (trim s ≠ ""))

theorem trimmed_eq_nil_iff (cs : List Char) : trimmed cs = [] ↔ ∀ c ∈ cs, isBlank c = true := by
  rw [trimmed, List.reverse_eq_nil_iff, List.dropWhile_eq_nil_iff]
  constructor
  · intro h c hc
    rw [← List.takeWhile_append_dropWhile (p := isBlank) (l := cs), List.mem_append] at hc
    rcases hc with hc | hc
    · exact List.mem_takeWhile_imp hc
    · exact h c (List.mem_reverse.mpr hc)
  · intro h c hc
    exact h c ((List.dropWhile_suffix _).subset (List.mem_reverse.mp hc))

/-- A text of blanks only is one that is not filled. -/
theorem onlyBlanks_eq_true_iff (s : String) : onlyBlanks s = true ↔ ¬ Filled s := by
  rw [onlyBlanks_iff, ← trimmed_eq_nil_iff, Filled, Classical.not_not, ← String.toList_eq_nil_iff,
    toList_trim]

@[simp] theorem onlyBlanks_eq_false_iff (s : String) : onlyBlanks s = false ↔ Filled s := by
  rw [← Bool.not_eq_true, onlyBlanks_eq_true_iff, Classical.not_not]

end Text

open Text

/-! ## 2. What a step requires -/

/-- A text that is given and filled. -/
def Given (o : Option String) : Prop := ∃ s, o = some s ∧ Filled s

/-- A confidence that is left out or lies between 0 and 1. -/
def Confident (o : Option Float32) : Prop := ∀ c, o = some c → 0 ≤ c ∧ c ≤ 1

/-- A click on a template or a variable names it. -/
def ClickTarget.Complete : ClickTarget → Prop
  | .coordinates _ _ => True
  | .image template => Filled template
  | .stored name => Filled name

/-- A step without inner steps has what its kind requires. -/
def Deed.Complete : Deed → Prop
  | .click _ place => place.target.Complete
  | .typeText _ _ => True
  | .pressKey key => Filled key
  | .hotkey keys => ∃ key ∈ keys, Filled key
  | .wait duration _ => ∃ ms, duration = some ms
  | .findImage template confidence _ _ => Filled template ∧ Confident confidence
  | .waitForImage template timeout confidence _ _ =>
    Filled template ∧ (∃ ms, timeout = some ms) ∧ Confident confidence

/-- A test has what its predicate looks at. -/
def Test.Complete (t : Test) : Prop :=
  match t.predicate with
  | .imageVisible | .imageNotVisible => Given t.template
  | .variableEquals => Given t.variableName ∧ ∃ text, t.expected = some text

/-- A loop has what its kind looks at, and may go round. -/
def LoopRule.Complete (r : LoopRule) : Prop :=
  (match r.kind with
    | .count => ∃ n, r.count = some n
    | .whileImageVisible | .untilImageVisible => Given r.template
    | .infinite => True) ∧ r.maxIterations ≠ some 0

/-- **A step has what its kind requires**, inner steps left aside. -/
def Action.Complete : Action → Prop
  | .simple _ d => d.Complete
  | .condition _ t _ _ => t.Complete
  | .loop _ r _ => r.Complete

/-! ## 3. The faults of one step -/

/-- Whether a fault is one of a step's own, not one of a name or an id. -/
def Problem.ofStep : Problem → Bool
  | .missingField _ _ | .confidenceRange _ | .noIterations _ => true
  | .emptyName | .emptyActionId | .duplicateActionId _ => false

section Step

variable {id : String} {field : Field}

@[simp] theorem missingIf_eq_nil_iff (b : Bool) : missingIf b id field = [] ↔ b = false := by
  cases b <;> simp [missingIf]

@[simp] theorem filter_missingIf (b : Bool) :
    (missingIf b id field).filter Problem.ofStep = missingIf b id field := by
  cases b <;> rfl

@[simp] theorem absent_eq_false_iff (o : Option String) : absent o = false ↔ Given o := by
  cases o <;> simp [absent, Given]

@[simp] theorem confidenceProblems_eq_nil_iff (o : Option Float32) :
    confidenceProblems id o = [] ↔ Confident o := by
  cases o <;> simp [confidenceProblems, Confident, validConfidence]

@[simp] theorem filter_confidenceProblems (o : Option Float32) :
    (confidenceProblems id o).filter Problem.ofStep = confidenceProblems id o := by
  cases o with
  | none => rfl
  | some c =>
      simp only [confidenceProblems]
      split <;> rfl

theorem ClickTarget.problems_eq_nil_iff (t : ClickTarget) : t.problems id = [] ↔ t.Complete := by
  cases t <;> simp [ClickTarget.problems, ClickTarget.Complete]

theorem Deed.problems_eq_nil_iff (d : Deed) : d.problems id = [] ↔ d.Complete := by
  cases d with
  | click kind place => exact place.target.problems_eq_nil_iff
  | hotkey keys =>
      simp only [Deed.problems, Deed.Complete, missingIf_eq_nil_iff, List.all_eq_false]
      exact exists_congr fun key => and_congr_right fun _ => by simp
  | _ => simp [Deed.problems, Deed.Complete, Option.isSome_iff_exists]

theorem Test.problems_eq_nil_iff (t : Test) : t.problems id = [] ↔ t.Complete := by
  obtain ⟨predicate, template, name, expected⟩ := t
  cases predicate <;> simp [Test.problems, Test.Complete, Option.isSome_iff_exists]

theorem LoopRule.problems_eq_nil_iff (r : LoopRule) : r.problems id = [] ↔ r.Complete := by
  obtain ⟨kind, count, template, rounds⟩ := r
  cases kind <;> simp [LoopRule.problems, LoopRule.Complete, Option.isSome_iff_exists]

/-- A step has no faults of its own iff it has what its kind requires. -/
theorem Action.problems_eq_nil_iff (a : Action) : a.problems = [] ↔ a.Complete := by
  cases a with
  | simple h d => exact d.problems_eq_nil_iff
  | condition h t x y => exact t.problems_eq_nil_iff
  | loop h r b => exact r.problems_eq_nil_iff

theorem ClickTarget.filter_problems (t : ClickTarget) :
    (t.problems id).filter Problem.ofStep = t.problems id := by
  cases t <;> simp [ClickTarget.problems]

theorem Deed.filter_problems (d : Deed) : (d.problems id).filter Problem.ofStep = d.problems id := by
  cases d with
  | click kind place => exact place.target.filter_problems
  | _ => simp [Deed.problems]

theorem Test.filter_problems (t : Test) : (t.problems id).filter Problem.ofStep = t.problems id := by
  obtain ⟨predicate, template, name, expected⟩ := t
  cases predicate <;> simp [Test.problems]

theorem LoopRule.filter_problems (r : LoopRule) :
    (r.problems id).filter Problem.ofStep = r.problems id := by
  have rounds : (if r.maxIterations = some 0 then [Problem.noIterations id] else []).filter
      Problem.ofStep = if r.maxIterations = some 0 then [Problem.noIterations id] else [] := by
    split <;> rfl
  rw [LoopRule.problems, List.filter_append, rounds]
  cases r.kind <;> simp

/-- The faults of a step are all of a step's own. -/
@[simp] theorem Action.filter_problems (a : Action) :
    a.problems.filter Problem.ofStep = a.problems := by
  cases a with
  | simple h d => exact d.filter_problems
  | condition h t x y => exact t.filter_problems
  | loop h r b => exact r.filter_problems

end Step

end TaskReplay
