import TaskReplay.Action.Summary
import TaskReplay.Engine.State
import TaskReplay.Run.Runner

/-!
What the calls on an engine do.

What this file fixes:
* `EngineRequest` lists the indivisible effects of a call: between two of them other calls may act;
* a start checks, loads, checks again by claiming, runs the task, records the run and finishes; a
  refused start has made no move;
* every move that is made is told to observers, and a publisher that fails only leaves a line in the
  log.
-/

namespace TaskReplay

/-! ## 1. Requests -/

/-- An effect of a call on the engine. -/
inductive EngineRequest where
  /-- Whether a run holds the engine or its status is not idle. -/
  | busy
  | loadTask (id : TaskId)
  | loadSettings
  | saveTask (task : Task)
  /-- The date and time. -/
  | now
  /-- A move; the answer is the snapshot after it, unless it was refused. -/
  | transition (move : Engine.Transition)
  | publish (event : Event)
  | log (notice : Notice)
  /-- An effect of a run. -/
  | run (number : Nat) (request : Request)

/-- The answers to a request. -/
abbrev EngineRequest.Answer : EngineRequest → Type
  | busy => Bool
  | loadTask _ => Except Failure (Option Task)
  | loadSettings => Except Failure Settings
  | saveTask _ => Except Failure Unit
  | now => Timestamp
  | transition _ => Option EngineState
  | publish _ => Except Failure Unit
  | log _ => Unit
  | run _ request => request.Answer

/-- A call on the engine. -/
abbrev EngineProg := Prog EngineRequest EngineRequest.Answer

/-- Asks one question. -/
def EngineRequest.ask (q : EngineRequest) : EngineProg q.Answer := Prog.request q

namespace Engine

open EngineRequest (ask)

/-! ## 2. Telling observers -/

/-- Publishes an event. -/
def publish (type : EventType) (task : Option TaskId) (data : Json) : EngineProg Unit := do
  match ← ask (.publish ⟨type, task, data⟩) with
  | .ok () => pure ()
  | .error e => ask (.log (.publishFailed e type))

/-- Publishes a snapshot. -/
def broadcast (s : EngineState) : EngineProg Unit := publish .statusChanged s.taskId s.toJson

/-- Makes a move and tells observers; gives whether it was made. -/
def move (t : Transition) : EngineProg Bool := do
  match ← ask (.transition t) with
  | some s =>
    broadcast s
    return true
  | none => return false

/-- What an event about a step tells. -/
def stepData (index total : Nat) (a : Action) : List (String × Json) :=
  [("index", .ofNat index), ("total", .ofNat total), ("action_id", .string a.id),
   ("action", .string a.display)]

/-- Tells observers what a run tells. A completed step is no longer the current one. -/
def progress (task : TaskId) : StepNews → EngineProg Unit
  | .paused _ => pure ()
  | .step index total a .started => do
    let _ ← move (.advance index)
    publish .stepStarted (some task) (.object (stepData index total a))
  | .step index total a .completed => do
    let _ ← move (.advance (index + 1))
    publish .stepCompleted (some task) (.object (stepData index total a))
  | .step index total a (.failed error continued) =>
    publish .stepFailed (some task) (.object (stepData index total a ++
      [("error", .string error.message), ("continued", .bool continued)]))

/-! ## 3. Control calls -/

/-- Asks the active run to pause. -/
def pause : EngineProg Bool := move .pause

/-- Lets a paused run go on. -/
def resume : EngineProg Bool := move .resume

/-- Asks the active run to stop. -/
def stop : EngineProg Bool := move .stop

/-- Stops whatever runs and puts the engine at rest with an error. -/
def emergencyStop : EngineProg Unit := do
  let snapshot ← ask (.transition .emergencyStop)
  ask (.log .emergencyStop)
  match snapshot with
  | some s => broadcast s
  | none => pure ()

/-! ## 4. Starting a task -/

/-- The effects of run `number`: its news are heard and passed on to observers, the rest goes to the
world. -/
def runEffect (number : Nat) (task : TaskId) : (q : Request) → EngineProg q.Answer
  | .tell news => do
    ask (.run number (.tell news))
    progress task news
  | q => ask (.run number q)

/-- Writes the record of a run into the store. -/
def recordRun (task : TaskId) (success : Bool) : EngineProg Unit := do
  match ← ask (.loadTask task) with
  | .ok (some t) =>
    let now ← ask .now
    match ← ask (.saveTask (t.recordRun success now)) with
    | .ok () => pure ()
    | .error e => ask (.log (.saveFailed task e))
  | .ok none => ask (.log (.taskVanished task))
  | .error e => ask (.log (.reloadFailed task e))

/-- The text of a run's failure. -/
def errorOf : RunResult → Option String
  | .ok _ => none
  | .error f => some f.message

/-- What the last event of a run tells. -/
def finishData : RunResult → Json
  | .ok outcome => .object [("outcome", .string outcome.name)]
  | .error f =>
    .object [("outcome", .string "failed"), ("index", .ofNat f.index),
      ("action_id", .string f.actionId), ("error", .string f.message)]

/-- Gives the engine back and tells observers how the run ended. -/
def finish (task : TaskId) (result : RunResult) : EngineProg Unit := do
  let _ ← move (.finish (errorOf result))
  match result with
  | .ok _ => pure ()
  | .error f => ask (.log (.runFailed f))
  publish .runFinished (some task) (finishData result)

/-- What a start needs once its task is loaded. -/
def accept (id : TaskId) (task : Task) : ExceptT EngineError EngineProg (Task × Settings) := do
  if task.enabled then
    match task.validate with
    | .ok () =>
      match ← ask .loadSettings with
      | .ok settings => return (task, settings)
      | .error e => throw (.storage e)
    | .error ps => throw (.invalid ps)
  else throw (.taskDisabled id)

/-- What a start needs before it may claim the engine. -/
def prepare (id : TaskId) : ExceptT EngineError EngineProg (Task × Settings) := do
  if ← ask .busy then throw .alreadyRunning
  else
    match ← ask (.loadTask id) with
    | .ok (some task) => accept id task
    | .ok none => throw (.taskNotFound id)
    | .error e => throw (.storage e)

/-- Runs a claimed task to its end. -/
def runClaimed (number : Nat) (id : TaskId) (task : Task) (settings : Settings) :
    EngineProg RunResult := do
  let result ← (task.run settings).expand (runEffect number id)
  recordRun id result.isOk
  finish id result
  return result

/-- Runs a stored task to its end, as run `number`. -/
def start (number : Nat) (id : TaskId) : EngineProg (Except EngineError RunOutcome) := do
  match ← (prepare id).run with
  | .error e => return .error e
  | .ok (task, settings) =>
    let now ← ask .now
    match ← ask (.transition (.claim number id task.actions.length now)) with
    | none => return .error .alreadyRunning
    | some s =>
      broadcast s
      let result ← runClaimed number id task settings
      return result.mapError .run

end Engine
end TaskReplay
