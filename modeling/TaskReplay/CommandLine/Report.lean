import TaskReplay.Task.Basic

/-!
What the program prints.

What this file fixes:
* `Trouble.report` prints what went wrong and below it the causes, the nearest first, numbered if
  there are several; further lines of a cause are indented like its first;
* `listing` prints a line for every task, its columns padded by characters.
-/

namespace TaskReplay.CommandLine

/-! ## 1. Endings -/

/-- How the program ends. -/
structure Exit where
  code : UInt32
  output : String
  errors : String
  deriving DecidableEq, Repr

/-- What went wrong, and why. -/
structure Trouble where
  headline : String
  causes : List String
  deriving DecidableEq, Repr

/-! ## 2. Causes -/

/-- A failure and what it wraps. -/
def failureChain (f : Failure) : List String :=
  f.message :: match f with
    | .storage fault => [fault.message]
    | .device text => [text]
    | .validation _ | .notFound _ _ => []

/-- A step's failure and what it wraps. -/
def stepChain (e : StepError) : List String :=
  e.message :: match e with
    | .dispatch cause => failureChain cause
    | _ => []

/-- Why a start gave no outcome. -/
def engineChain : EngineError → List String
  | .run f => f.message :: stepChain f.cause
  | .storage cause => failureChain cause
  | e => [e.message]

namespace Trouble

/-- Trouble that is a failure. -/
def ofFailure (f : Failure) : Trouble := ⟨f.message, (failureChain f).tail⟩

/-! ## 3. Reports -/

/-- Spaces in front of a text up to a width. -/
def padLeft (width : Nat) (s : String) : String :=
  String.ofList (List.replicate (width - s.length) ' ') ++ s

/-- Spaces behind a text up to a width. -/
def padRight (width : Nat) (s : String) : String :=
  s ++ String.ofList (List.replicate (width - s.length) ' ')

/-- A text with every line after the first indented. -/
def indentRest (width : Nat) (s : String) : String :=
  String.ofList (s.toList.flatMap fun c => if c = '\n' then c :: List.replicate width ' ' else [c])

/-- The lines of causes. -/
def causeLines : List String → String
  | [] => ""
  | [cause] => "\n    " ++ indentRest 4 cause
  | causes => String.join (causes.zipIdx.map fun (cause, n) =>
      "\n" ++ padLeft 5 (toString n) ++ ": " ++ indentRest 7 cause)

/-- The report. -/
def report (t : Trouble) : String :=
  "Error: " ++ t.headline ++
    (if t.causes.isEmpty then "" else "\n\nCaused by:" ++ causeLines t.causes) ++ "\n"

/-- The end that trouble makes. -/
def exit (t : Trouble) : Exit := ⟨1, "", t.report⟩

end Trouble

/-! ## 4. Lists -/

/-- What became of the last run of a task. -/
def lastRun : Option Bool → String
  | some true => "ok"
  | some false => "failed"
  | none => "never run"

/-- The line of a task. -/
def taskLine (t : Task) : String :=
  t.id.text ++ "  " ++ Trouble.padRight 24 t.name ++ " " ++
    Trouble.padLeft 3 (toString t.actions.length) ++ " steps  " ++
    Trouble.padLeft 4 (toString t.runCount.toNat) ++ " runs  " ++ lastRun t.lastRunSuccess ++
    (if t.enabled then "" else "  (disabled)") ++ "\n"

/-- The lines of all tasks. -/
def listing (ts : List Task) : String :=
  if ts.isEmpty then "no tasks stored\n" else String.join (ts.map taskLine)

end TaskReplay.CommandLine
