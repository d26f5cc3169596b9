import TaskReplay.Assoc
import TaskReplay.Control
import TaskReplay.Status

/-!
The state of the engine and the moves it can make.

What this file fixes:
* the engine has a snapshot for observers, the run that holds it and the wishes about every run;
* a `Transition` is one indivisible move; `Engine.apply` refuses it with `none` or makes it whole;
* only a claim gives the engine to a run, and only a finish takes it away: an emergency stop leaves
  it with the run that still winds down.
-/

namespace TaskReplay

/-! ## 1. State -/

/-- The engine. -/
structure Engine where
  state : EngineState
  /-- The run that holds the engine. -/
  current : Option Nat
  controls : Assoc Nat Control

namespace Engine

/-- An engine that has done nothing yet. -/
def initial : Engine := ⟨.initial, none, .empty⟩

/-- The wishes about a run. -/
def control (e : Engine) (run : Nat) : Control := (e.controls.get? run).getD .fresh

/-- The engine with other wishes about a run. -/
def withControl (e : Engine) (run : Nat) (c : Control) : Engine :=
  { e with controls := e.controls.set run c }

@[simp] theorem control_withControl (e : Engine) (run other : Nat) (c : Control) :
    (e.withControl run c).control other = if other = run then c else e.control other := by
  simp only [control, withControl, Assoc.get?_set, beq_iff_eq]
  split <;> rfl

@[simp] theorem current_withControl (e : Engine) (run : Nat) (c : Control) :
    (e.withControl run c).current = e.current := rfl

/-- Whether a start has no chance. -/
def busy (e : Engine) : Bool := e.current.isSome || e.state.status != .idle

/-! ## 2. Moves -/

/-- The error that an emergency stop leaves behind. -/
def emergencyMessage : String := "Emergency stop activated"

/-- A move of the engine. -/
inductive Transition where
  /-- A run takes the engine. -/
  | claim (run : Nat) (task : TaskId) (total : Nat) (startedAt : Timestamp)
  | pause
  | resume
  | stop
  | emergencyStop
  /-- The active run has come to a step. -/
  | advance (index : Nat)
  /-- The active run gives the engine back, with an error if it failed. -/
  | finish (error : Option String)
  deriving DecidableEq, Repr

/-- Stops the run that holds the engine, if there is one. -/
def stopCurrent (e : Engine) : Engine :=
  match e.current with
  | some run => e.withControl run (e.control run).stop
  | none => e

@[simp] theorem current_stopCurrent (e : Engine) : e.stopCurrent.current = e.current := by
  unfold stopCurrent
  split <;> simp_all

theorem control_stopCurrent (e : Engine) (run : Nat) :
    e.stopCurrent.control run =
      if e.current = some run then (e.control run).stop else e.control run := by
  unfold stopCurrent
  cases hc : e.current with
  | none => simp
  | some held =>
    rw [control_withControl]
    by_cases h : run = held
    · subst h; simp
    · simp [h, Ne.symm h]

/-- The engine after a move, unless the move is refused. -/
def apply (e : Engine) : Transition → Option Engine
  | .claim run task total startedAt =>
    if e.busy then none
    else some { e with
      current := some run
      state := { e.state with
        status := .running
        taskId := some task
        index := some 0
        total := some total
        startedAt := some startedAt
        lastError := none } }
  | .pause =>
    match e.current, e.state.status with
    | some run, .running =>
      some { e.withControl run (e.control run).pause.1 with
        state := { e.state with status := .paused } }
    | _, _ => none
  | .resume =>
    match e.current, e.state.status with
    | some run, .paused =>
      some { e.withControl run (e.control run).resume.1 with
        state := { e.state with status := .running } }
    | _, _ => none
  | .stop =>
    match e.current, e.state.status with
    | some _, .running | some _, .paused =>
      some { e.stopCurrent with state := { e.state with status := .stopping }.clearProgress }
    | _, _ => none
  | .emergencyStop =>
    some { e.stopCurrent with
      state := { { e.state with status := .idle }.clearProgress with
        lastError := some emergencyMessage } }
  | .advance index =>
    match e.state.status with
    | .running | .paused => some { e with state := { e.state with index := some index } }
    | _ => none
  | .finish error =>
    let state := { e.state with status := .idle }.clearProgress
    some { e with
      current := none
      state := match error with
        | none => { state with executions := state.executions + 1 }
        | some message => { state with lastError := some message } }

end Engine
end TaskReplay
