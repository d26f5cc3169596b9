import TaskReplay.Run.Step
import TaskReplay.Task.Basic

/-!
A run: the steps of a task, one after the other.

What this file fixes:
* before each step a run waits while a pause is pending and ends at a stop;
* a step that fails ends the run unless it says `continueOnError`; a stop seen by a step ends the
  run without a failure;
* after a step that did not fail comes a pause, its own or that of the settings, with a random part.
-/

namespace TaskReplay

open Script

/-! ## 1. Around a step -/

/-- A step with the delay before it. -/
def Action.perform (s : Settings) (a : Action) : Script Unit := do
  pauseFor a.header.delayBefore
  a.execute s

/-- The pause after a step. -/
def Action.recover (s : Settings) (a : Action) : Script Unit := do
  let base := a.header.delayAfter.getD s.delay
  if base = 0 then sleep 0
  else sleep (Delay.postStep base.toNat (← draw s.delayVariation))

/-! ## 2. The sequence -/

/-- Notes a status. -/
def note (s : RunStatus) : RunProg Unit := Request.ask (.mark (.status s))

/-- Ends a run at a stop before step `index`. -/
def endStopped (index : Nat) : RunProg RunResult := do
  note .stopped
  return .ok (.stopped index)

/-- Waits before step `index` while a pause is pending. -/
def holdBefore (index : Nat) : RunProg Unit := do
  if ← Request.ask .pausePending then
    note .paused
    Request.ask (.tell (.paused index))
    let _ ← Request.ask .awaitResume
    note .running

/-- What follows a step that was performed; gives the end of the run if it ends here. -/
def closeStep (s : Settings) (total index : Nat) (a : Action) :
    Except StepError Unit → RunProg (Option RunResult)
  | .ok () => do
    Request.ask (.tell (.step index total a .completed))
    match ← (a.recover s).run with
    | .ok () => return none
    | .error _ => return some (← endStopped (index + 1))
  | .error .interrupted => do return some (← endStopped index)
  | .error e => do
    if a.header.continueOnError then
      Request.ask (.log (.continuing index a.id e))
      Request.ask (.tell (.step index total a (.failed e true)))
      return none
    else
      Request.ask (.tell (.step index total a (.failed e false)))
      let failure : RunFailure := ⟨index, a.id, e⟩
      Request.ask (.mark (.failure failure))
      return some (.error failure)

/-- One step of the walk through a task; gives the end of the run if it ends here. -/
def walkStep (s : Settings) (total index : Nat) (a : Action) : RunProg (Option RunResult) := do
  Request.ask (.mark (.index index))
  holdBefore index
  if ← Request.ask .stopped then return some (← endStopped index)
  else
    Request.ask (.tell (.step index total a .started))
    closeStep s total index a (← (a.perform s).run)

/-- Runs the steps from `index` on. -/
def runFrom (s : Settings) (total : Nat) : (index : Nat) → List Action → RunProg RunResult
  | _, [] => do
    note .completed
    return .ok .completed
  | index, a :: rest => do
    match ← walkStep s total index a with
    | some result => return result
    | none => runFrom s total (index + 1) rest

/-- Runs a task. -/
def Task.run (s : Settings) (t : Task) : RunProg RunResult := do
  note .running
  runFrom s t.actions.length 0 t.actions

end TaskReplay
