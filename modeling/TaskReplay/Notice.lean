import TaskReplay.Event
import TaskReplay.Problem

/-!
What the library has to say to whoever keeps a log.

What this file fixes:
* a `Notice` is a cause with its data; its level, message and fields are functions of it.
-/

namespace TaskReplay

/-- How grave a notice is. -/
inductive Level where
  | warning
  | error
  deriving DecidableEq, Repr

/-- Something worth a line in a log. -/
inductive Notice where
  | loopLimit (actionId : String) (limit : Nat)
  | unknownHotkey (key : String)
  | continuing (index : Nat) (actionId : String) (error : StepError)
  | emergencyStop
  | publishFailed (error : Failure) (type : EventType)
  | taskVanished (id : TaskId)
  | reloadFailed (id : TaskId) (error : Failure)
  | saveFailed (id : TaskId) (error : Failure)
  | runFailed (failure : RunFailure)
  deriving DecidableEq, Repr

namespace Notice

/-- How grave it is. -/
def level : Notice → Level
  | reloadFailed _ _ | saveFailed _ _ | runFailed _ => .error
  | _ => .warning

/-- The sentence. -/
def message : Notice → String
  | loopLimit _ _ => "loop reached its iteration limit"
  | unknownHotkey _ => "skipping unknown hotkey key"
  | continuing _ _ _ => "step failed, continuing"
  | emergencyStop => "emergency stop activated"
  | publishFailed _ _ => "failed to publish event"
  | taskVanished _ => "task vanished before its statistics were recorded"
  | reloadFailed _ _ => "failed to reload task statistics"
  | saveFailed _ _ => "failed to save task statistics"
  | runFailed _ => "run failed"

/-- The data beside the sentence, as text. -/
def fields : Notice → List (String × String)
  | loopLimit id limit => [("action_id", id), ("limit", toString limit)]
  | unknownHotkey key => [("key", key)]
  | continuing index id error =>
    [("index", toString index), ("action_id", id), ("error", error.message)]
  | emergencyStop => []
  | publishFailed error type => [("error", error.message), ("event_type", type.word)]
  | taskVanished id => [("task_id", id.text)]
  | reloadFailed id error => [("task_id", id.text), ("error", error.message)]
  | saveFailed id error => [("task_id", id.text), ("error", error.message)]
  | runFailed failure => [("error", failure.message)]

end Notice
end TaskReplay
