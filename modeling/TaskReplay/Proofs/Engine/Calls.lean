import TaskReplay.Engine.Program
import TaskReplay.Proofs.Conversation.Machine
import TaskReplay.Proofs.Run.Script

/-!
# Calls on one engine

The engine as a service: calls of any number and kind, each a program whose questions the engine and
the world around it answer. What a call may ask depends on where it stands:

* `Call`, `service` -- the five calls, and how the engine answers;
* `Reachable`, `ReachableInTurn` -- what calls reach, acting at any time, and changing places only
  where they wait; `Resting` -- nobody is about to go on;
* `Phase` -- a call has not claimed the engine yet, holds it, or has given it back; one that holds it
  stands at a step of its task (`Stage`);
* `Call.may` -- the questions that are in order in a phase, and who may ask them.
-/

namespace TaskReplay

/-! ## 1. Kinds of questions -/

namespace EngineRequest

/-- Whether a call can be left waiting at a question: at stores, publishers, devices, searches and
waits, but not at the engine's own locks, wishes and clock. -/
def waits : EngineRequest → Bool
  | .loadTask _ | .loadSettings | .saveTask _ | .publish _ => true
  | .run _ q =>
    match q with
    | .device _ | .search _ _ _ | .settle _ | .sleep _ | .awaitResume => true
    | _ => false
  | _ => false

/-- Telling observers and the log. -/
def tells : EngineRequest → Bool
  | .publish _ | .log _ => true
  | _ => false

/-- Writing the record of a run. -/
def records : EngineRequest → Bool
  | .loadTask _ | .saveTask _ | .now | .log _ => true
  | _ => false

/-- What a start needs before it claims the engine. -/
def prepares : EngineRequest → Bool
  | .busy | .loadTask _ | .loadSettings => true
  | _ => false

end EngineRequest

namespace Engine

open Machine (Reaches anyone inTurn phaseAt)

/-! ## 2. The service -/

/-- A call on the engine. -/
inductive Call where
  | start (task : TaskId)
  | pause
  | resume
  | stop
  | emergencyStop
  deriving DecidableEq

/-- What a call returns. -/
inductive Reply where
  | ended (result : Except EngineError RunOutcome)
  | changed (made : Bool)
  | nothing

/-- What a call does, under its number. -/
def Call.program (number : Nat) : Call → EngineProg Reply
  | start task => (Engine.start number task).bind fun r => .done (.ended r)
  | pause => Engine.pause.bind fun b => .done (.changed b)
  | resume => Engine.resume.bind fun b => .done (.changed b)
  | stop => Engine.stop.bind fun b => .done (.changed b)
  | emergencyStop => Engine.emergencyStop.bind fun _ => .done .nothing

/-- The answers that an engine allows. Stores, observers, devices and clocks answer as they like; a
run learns of the wishes about it as they stand, and a sleep runs to its end exactly if no stop is
wished when it ends. -/
def Allows (e : Engine) : (q : EngineRequest) → q.Answer → Prop
  | .busy, x => x = e.busy
  | .transition t, x => x = (e.apply t).map (·.state)
  | .run n (.sleep _), full => full = !(e.control n).stopped
  | .run n .stopped, x => x = (e.control n).stopped
  | .run n .pausePending, x => x = (e.control n).pausePending
  | .run n .awaitResume, _ => (e.control n).pausePending = false
  | _, _ => True

/-- The engine after a question. Only moves change it. -/
def after (e : Engine) : EngineRequest → Engine
  | .transition t => (e.apply t).getD e
  | _ => e

/-- The engine after run `n` has claimed it. -/
def claimed (e : Engine) (n : Nat) (task : TaskId) (total : Nat) (startedAt : Timestamp) : Engine :=
  { e with
    current := some n
    state := { e.state with
      status := .running
      taskId := some task
      index := some 0
      total := some total
      startedAt := some startedAt
      lastError := none } }

/-- **The engine as a service.** -/
def service : Service Call EngineRequest EngineRequest.Answer Reply Engine where
  program := Call.program
  allows := Allows
  after e q _ := e.after q

/-- An engine with the calls on it. -/
abbrev System := Machine Call EngineRequest EngineRequest.Answer Reply Engine

/-- A line of the log of a system. -/
abbrev Line := Entry Call EngineRequest EngineRequest.Answer

/-- A system that calls reach from a fresh engine, in any order of their steps. -/
def Reachable (m : System) : Prop := Reaches service anyone (Machine.initial Engine.initial) m

/-- Calls change places only where they wait. -/
abbrev turns : Nat → System → Prop := inTurn EngineRequest.waits

/-- A system that calls reach from a fresh engine, changing places only where they wait. -/
def ReachableInTurn (m : System) : Prop :=
  Reaches service turns (Machine.initial Engine.initial) m

theorem ReachableInTurn.reachable {m : System} (h : ReachableInTurn m) : Reachable m :=
  Reaches.anyone h

/-- Whether no call is about to go on: each has returned or waits. -/
def Resting (m : System) : Prop := ∀ k, m.AtRest EngineRequest.waits k

/-! ## 3. Phases of a call -/

/-- The step at which a run stands. -/
inductive Stage where
  /-- No step has begun. -/
  | fresh
  /-- The step has begun and is not completed. -/
  | begun (index : Nat)
  /-- The step was completed. -/
  | completed (index : Nat)
  deriving DecidableEq, Repr

/-- The index of the step last begun, one more once it is completed, and 0 before any. -/
def Stage.index : Stage → Nat
  | fresh => 0
  | begun i => i
  | completed i => i + 1

/-- A call that holds the engine. -/
structure Hold where
  task : TaskId
  /-- The number of steps. -/
  total : Nat
  stage : Stage
  /-- The stage that the run has told and the engine has not noted down yet. -/
  told : Option Stage
  /-- No stop was wished when the run looked last, and it did not wait since. -/
  clear : Bool

namespace Hold

/-- A run that has not begun. -/
def begin (task : TaskId) (total : Nat) : Hold := ⟨task, total, .fresh, none, false⟩

/-- The stage that news bring. -/
def stageOf : StepNews → Option Stage
  | .step i _ _ .started => some (.begun i)
  | .step i _ _ .completed => some (.completed i)
  | _ => none

/-- The engine takes note of the stage that was told. -/
def heed (h : Hold) : Hold := { h with stage := h.told.getD h.stage, told := none }

/-- A run after one of its own questions. -/
def ask (h : Hold) : (q : Request) → q.Answer → Hold
  | .tell news, _ => { h with told := stageOf news, clear := false }
  | .stopped, x => { h with clear := !x }
  | _, _ => { h with clear := false }

end Hold

/-- Where a call stands. -/
inductive Phase where
  /-- It has not claimed the engine. -/
  | outside
  /-- It claimed the engine and has not given it back. -/
  | holding (h : Hold)
  /-- It has given the engine back. -/
  | ended

/-- Where a call stands after a question and its answer. -/
def Phase.step : Phase → (q : EngineRequest) → q.Answer → Phase
  | .outside, .transition (.claim _ task total _), some _ => .holding (.begin task total)
  | .holding h, .transition (.advance _), _ => .holding { h.heed with clear := false }
  | .holding _, .transition (.finish _), _ => .ended
  | .holding h, .run _ q, x => .holding (h.ask q x)
  | .holding h, _, _ => .holding { h with clear := false }
  | φ, _, _ => φ

/-- Where call `n` stands, read off the log of a system. -/
def phase (n : Nat) (log : List Line) : Phase := phaseAt Phase.step .outside n log

/-- **Call `n` holds the engine**: between its claim and its finish. -/
def Holds (n : Nat) (log : List Line) : Prop := ∃ h, phase n log = .holding h

/-! ## 4. Questions in order -/

/-- The news that a run may tell: a step begins only right after a look that saw no stop, and is
completed only if it is the step last begun. -/
def Hold.mayTell (h : Hold) : StepNews → Prop
  | .step i _ _ .started => h.clear = true ∧ i < h.total
  | .step i _ _ .completed => h.stage = .begun i ∧ i < h.total
  | _ => True

/-- The questions that a run may ask. -/
def Hold.mayAsk (h : Hold) : Request → Prop
  | .tell news => h.mayTell news
  | _ => True

/-- The questions that are in order for start `n` of a task. -/
def startMay (n : Nat) (task : TaskId) : Phase → EngineRequest → Prop
  | .outside, .busy | .outside, .loadTask _ | .outside, .loadSettings | .outside, .now => True
  | .outside, .transition (.claim m t _ _) => m = n ∧ t = task
  | .holding h, .transition (.advance i) => ∃ s, h.told = some s ∧ i = s.index
  | .holding h, .transition (.finish _) => h.told = none
  | .holding h, .run m q => m = n ∧ h.told = none ∧ h.mayAsk q
  | .holding h, .loadTask _ | .holding h, .saveTask _ | .holding h, .now | .holding h, .publish _
  | .holding h, .log _ => h.told = none
  | .ended, .publish _ | .ended, .log _ => True
  | _, _ => False

/-- The questions that are in order for a command: its one move, and telling of it. -/
def commandMay (t : Transition) : Phase → EngineRequest → Prop
  | .outside, .transition t' => t' = t
  | .outside, .publish _ | .outside, .log _ => True
  | _, _ => False

/-- The questions that are in order for call `n`. -/
def Call.may (n : Nat) : Call → Phase → EngineRequest → Prop
  | start task => startMay n task
  | pause => commandMay .pause
  | resume => commandMay .resume
  | stop => commandMay .stop
  | emergencyStop => commandMay .emergencyStop

section Asking

variable {n run : Nat} {c : Call} {φ : Phase}

/-- Requests of a run come from the start that holds the engine. -/
theorem Call.holding_of_run {q : Request} (may : c.may n φ (.run run q)) :
    run = n ∧ ∃ h, φ = .holding h ∧ h.told = none ∧ h.mayAsk q := by
  cases c with
  | start task =>
      cases φ with
      | holding h =>
          obtain ⟨rfl, told, may⟩ := may
          exact ⟨rfl, h, rfl, told, may⟩
      | _ => exact may.elim
  | _ => cases φ <;> exact may.elim

/-- A finish comes from the start that holds the engine. -/
theorem Call.holding_of_finish {error : Option String}
    (may : c.may n φ (.transition (.finish error))) : ∃ h, φ = .holding h := by
  cases c with
  | start task =>
      cases φ with
      | holding h => exact ⟨h, rfl⟩
      | _ => exact may.elim
  | _ => cases φ <;> cases may

/-- A start claims the engine for itself. -/
theorem Call.own_of_claim {task : TaskId} {total : Nat} {startedAt : Timestamp}
    (may : c.may n φ (.transition (.claim run task total startedAt))) : run = n := by
  cases c with
  | start id =>
      cases φ with
      | outside => exact may.1
      | _ => exact may.elim
  | _ => cases φ <;> cases may

end Asking

end Engine
end TaskReplay
