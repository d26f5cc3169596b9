import TaskReplay.Uuid

/-!
Why something was refused or failed.

What this file fixes:
* a `Problem` is one fault of a task; a `Failure` is what a device or a store answers; a `StepError`
  is why a step failed, a `RunFailure` why a run did, an `EngineError` why a start gave no result;
* every cause has one `message`, and a cause that wraps another ends with the inner message.
-/

namespace TaskReplay

/-! ## 1. Faults of a task -/

/-- A field that a step cannot do without. -/
inductive Field where
  | targetTemplate
  | targetName
  | key
  | keys
  | duration
  | template
  | timeout
  | variableName
  | expected
  | count
  deriving DecidableEq, Repr

/-- The name of a field in documents. -/
def Field.name : Field → String
  | targetTemplate => "target.template"
  | targetName => "target.name"
  | key => "key"
  | keys => "keys"
  | duration => "duration_ms"
  | template => "template"
  | timeout => "timeout_ms"
  | variableName => "variable"
  | expected => "expected"
  | count => "count"

/-- One fault of a task. -/
inductive Problem where
  | emptyName
  | emptyActionId
  | duplicateActionId (id : String)
  | missingField (id : String) (field : Field)
  | confidenceRange (id : String)
  | noIterations (id : String)
  deriving DecidableEq, Repr

/-- The text of a fault. -/
def Problem.message : Problem → String
  | emptyName => "task name must not be empty"
  | emptyActionId => "action id must not be empty"
  | duplicateActionId id => "action id " ++ id ++ " is used more than once"
  | missingField id field => "action " ++ id ++ " is missing required field " ++ field.name
  | confidenceRange id => "action " ++ id ++ " has invalid confidence: must be between 0 and 1"
  | noIterations id => "action " ++ id ++ " has invalid max_iterations: must be greater than zero"

/-- The text of all faults of a task. -/
def Problem.summary (ps : List Problem) : String :=
  "task is invalid: " ++ String.intercalate "; " (ps.map message)

/-! ## 2. Failures of devices and stores -/

/-- What keeps a store from answering. -/
inductive StorageFault where
  /-- A row that does not read as a task. -/
  | unreadableRow
  /-- Settings that do not read as settings. -/
  | unreadableSettings
  /-- A fault reported by whoever provides the store. -/
  | reported (text : String)
  deriving DecidableEq, Repr

/-- The text of a fault. -/
def StorageFault.message : StorageFault → String
  | unreadableRow => "database error"
  | unreadableSettings => "JSON serialization error"
  | reported text => text

/-- What a device or a store answers instead of doing its work. -/
inductive Failure where
  | validation (problems : List Problem)
  | notFound (entity id : String)
  | storage (fault : StorageFault)
  | device (text : String)
  deriving DecidableEq, Repr

/-- The text of a failure. -/
def Failure.message : Failure → String
  | validation ps => Problem.summary ps
  | notFound entity id => entity ++ " not found: " ++ id
  | storage fault => "storage error: " ++ fault.message
  | device text => "device error: " ++ text

/-! ## 3. Failures of steps and runs -/

/-- Why a step failed. -/
inductive StepError where
  | targetNotFound (template : String)
  | timeout (template : String) (ms : UInt64) (disappear : Bool)
  | invalidVariable (name : String)
  | unknownKey (keys : List String)
  | dispatch (cause : Failure)
  /-- A stop was seen while the step waited. -/
  | interrupted
  deriving DecidableEq, Repr

namespace StepError

/-- The text of a step's failure. -/
def message : StepError → String
  | targetNotFound template => "image not found on screen: " ++ template
  | timeout template ms disappear =>
    "timed out after " ++ toString ms.toNat ++ "ms waiting for " ++ template ++ " to " ++
      if disappear then "disappear" else "appear"
  | invalidVariable name => "variable " ++ name ++ " is missing or is not a point"
  | unknownKey keys => "no known key in [" ++ String.intercalate ", " keys ++ "]"
  | dispatch cause => "dispatch failed: " ++ cause.message
  | interrupted => "run was stopped"

/-- Whether the failure is a stop. -/
def isInterrupted : StepError → Bool
  | interrupted => true
  | _ => false

end StepError

/-- A step at top level failed and ended the run. -/
structure RunFailure where
  index : Nat
  actionId : String
  cause : StepError
  deriving DecidableEq, Repr

/-- The text of a run's failure. -/
def RunFailure.message (f : RunFailure) : String :=
  "action " ++ f.actionId ++ " (step " ++ toString f.index ++ ") failed: " ++ f.cause.message

/-- How a run ended without a failure. -/
inductive RunOutcome where
  | completed
  /-- Stopped before step `index` began, or while it ran. -/
  | stopped (index : Nat)
  deriving DecidableEq, Repr

/-- The word for an outcome. -/
def RunOutcome.name : RunOutcome → String
  | completed => "completed"
  | stopped _ => "stopped"

/-- The end of a run. -/
abbrev RunResult := Except RunFailure RunOutcome

/-- Why a start gave no outcome. -/
inductive EngineError where
  | alreadyRunning
  | taskNotFound (id : TaskId)
  | taskDisabled (id : TaskId)
  | invalid (problems : List Problem)
  | storage (cause : Failure)
  | run (failure : RunFailure)
  deriving DecidableEq, Repr

/-- The text of an engine error. -/
def EngineError.message : EngineError → String
  | alreadyRunning => "a task is already running"
  | taskNotFound id => "task not found: " ++ id.text
  | taskDisabled id => "task is disabled: " ++ id.text
  | invalid ps => Problem.summary ps
  | storage cause => cause.message
  | run failure => failure.message

end TaskReplay
