import TaskReplay.Control
import TaskReplay.Run.Request
import TaskReplay.Settings
import TaskReplay.Virtual.Screen

/-!
The devices of a rehearsal: a simulated screen and input that can be told to fail, and to let
somebody act in the middle of a call.

What this file fixes:
* calls are counted by kind; a `Fault` or a `Hook` waits for the n-th call of a kind or for each;
* a `Command` is what somebody outside a run may do; an `Entry` is a line of the rehearsal's log.
-/

namespace TaskReplay.Rehearsal

/-! ## 1. Commands -/

/-- What somebody outside a run may do. -/
inductive Command where
  | pause
  | resume
  | stop
  | checkpoint
  | state
  | emergencyStop
  | status
  | screen (command : Screen.Command)
  /-- Deletes a task from the store. -/
  | forget (task : TaskId)
  /-- Enables or disables a stored task. -/
  | enable (task : TaskId) (enabled : Bool)
  /-- Replaces the stored settings. -/
  | replace (settings : Settings)

/-- What a command gives. -/
inductive CommandAnswer where
  | nothing
  | flag (value : Bool)
  | checked (error : Option StepError)

/-- What can be seen after a command. -/
inductive View where
  | nothing
  | control (control : Control)
  | engine (state : EngineState)

/-! ## 2. The log -/

/-- A line of the log. -/
inductive Entry where
  | call (call : DeviceCall)
  | found (template : String) (confidence : Float32) (area : Option Region)
      (answer : Except Failure Match)
  | command (command : Command) (answer : CommandAnswer) (view : View)
  | notice (notice : Notice)
  | news (news : StepNews)
  | event (event : Event)
  | began (number : Nat)
  | ended (number : Nat) (result : Except EngineError RunOutcome)

/-! ## 3. Calls -/

/-- The kinds of call that faults and hooks wait for. -/
inductive CallKind where
  | click
  | doubleClick
  | rightClick
  | type
  | keyDown
  | keyUp
  | pressKey
  | find
  | publish
  | loadTask
  | saveTask
  | loadSettings
  | stepStarted
  | stepCompleted
  | stepFailed
  | paused
  deriving DecidableEq, Repr

/-- The kind of a call on mouse or keyboard. -/
def CallKind.ofDevice? : DeviceCall → Option CallKind
  | .click .single _ => some click
  | .click .double _ => some doubleClick
  | .click .right _ => some rightClick
  | .typeText _ _ => some type
  | .keyDown _ => some keyDown
  | .keyUp _ => some keyUp
  | .pressKey _ => some pressKey
  | .moveTo _ _ | .drag _ _ | .scroll _ => none

/-- The kind of an observer's call. -/
def CallKind.ofNews : StepNews → CallKind
  | .paused _ => paused
  | .step _ _ _ .started => stepStarted
  | .step _ _ _ .completed => stepCompleted
  | .step _ _ _ (.failed _ _) => stepFailed

/-- Which calls something waits for: the n-th of a kind, counted from one, or each. -/
structure Occasion where
  kind : CallKind
  nth : Option Nat
  deriving DecidableEq, Repr

/-- Whether a call is waited for. -/
def Occasion.fits (o : Occasion) (kind : CallKind) (n : Nat) : Bool :=
  o.kind == kind && (o.nth.isNone || o.nth == some n)

/-- A call that fails. -/
structure Fault where
  occasion : Occasion
  message : String

/-- A call during which somebody acts. -/
structure Hook where
  occasion : Occasion
  commands : List Command

/-! ## 4. The bench -/

/-- Simulated devices with what is planned for them. -/
structure Bench where
  screen : Screen
  input : Recorder
  faults : List Fault
  hooks : List Hook
  calls : Assoc CallKind Nat
  /-- The number that every draw comes nearest to. -/
  luck : Int

namespace Bench

/-- Devices at rest with nothing planned. -/
def idle : Bench := ⟨.blank, .idle, [], [], .empty, 0⟩

/-- Counts a call; gives its number. -/
def count (b : Bench) (kind : CallKind) : Nat × Bench :=
  let n := (b.calls.get? kind).getD 0 + 1
  (n, { b with calls := b.calls.set kind n })

/-- What is done during a call. -/
def hooked (b : Bench) (kind : CallKind) (n : Nat) : List Command :=
  (b.hooks.filter fun h => h.occasion.fits kind n).flatMap Hook.commands

/-- The message of a call that fails. -/
def fault? (b : Bench) (kind : CallKind) (n : Nat) : Option String :=
  (b.faults.find? fun f => f.occasion.fits kind n).map Fault.message

end Bench
end TaskReplay.Rehearsal
