import TaskReplay.Notice
import TaskReplay.Prog
import TaskReplay.Status
import TaskReplay.Time.Delay
import TaskReplay.Variable
import TaskReplay.Virtual.Input

/-!
What a run asks of the world around it.

What this file fixes:
* `Request` lists every effect of a run, `Request.Answer` what comes back; waiting is an effect too;
* a `Context` is the state that a run owns: its variables and how far it has come;
* a `Script` is a program of requests that may fail with a step's error.
-/

namespace TaskReplay

/-! ## 1. State of a run -/

/-- What a run owns. -/
structure Context where
  scope : Scope
  index : Nat
  status : RunStatus
  error : Option String

/-- A run that has not begun. -/
def Context.fresh : Context := ⟨.empty, 0, .idle, none⟩

instance : Inhabited Context := ⟨Context.fresh⟩

/-- What a run notes down about itself. -/
inductive Mark where
  | status (status : RunStatus)
  | index (index : Nat)
  | failure (failure : RunFailure)
  deriving DecidableEq, Repr

/-- The state after a note. -/
def Context.note (c : Context) : Mark → Context
  | .status s => { c with status := s }
  | .index i => { c with index := i }
  | .failure f => { c with status := .failed, error := some f.message }

/-! ## 2. What observers of a run hear -/

/-- A moment in the course of a run. -/
inductive Moment where
  | started
  | completed
  | failed (error : StepError) (continued : Bool)

/-- What observers hear: the moment of a step, or that the run waits before one. -/
inductive StepNews where
  | step (index total : Nat) (action : Action) (moment : Moment)
  | paused (index : Nat)

/-! ## 3. Requests -/

/-- An effect of a run. Times are milliseconds. -/
inductive Request where
  /-- A call on mouse or keyboard. -/
  | device (call : DeviceCall)
  /-- A search for a template on the screen. -/
  | search (template : String) (confidence : Float32) (area : Option Region)
  /-- A wait that nothing cuts short. -/
  | settle (ms : Nat)
  /-- A wait that a stop cuts short; the answer tells whether it was not. -/
  | sleep (ms : Nat)
  /-- Whether a stop is wished. -/
  | stopped
  /-- Whether a pause is pending. -/
  | pausePending
  /-- A wait until no pause is pending; the answer tells whether there was one. -/
  | awaitResume
  /-- A random number. -/
  | draw (range : Nat)
  /-- The time. -/
  | clock
  /-- The value of a variable, if it was written. -/
  | read (name : String)
  /-- Writes a variable. -/
  | write (name : String) (value : Value)
  /-- Notes down how far the run has come. -/
  | mark (mark : Mark)
  /-- Tells the log. -/
  | log (notice : Notice)
  /-- Tells observers. -/
  | tell (news : StepNews)

/-- The answers to a request. -/
abbrev Request.Answer : Request → Type
  | device _ => Except Failure Unit
  | search _ _ _ => Except Failure Match
  | settle _ => Unit
  | sleep _ => Bool
  | stopped => Bool
  | pausePending => Bool
  | awaitResume => Bool
  | draw range => Delay.Draw range
  | clock => Nat
  | read _ => Option Value
  | write _ _ => Unit
  | mark _ => Unit
  | log _ => Unit
  | tell _ => Unit

/-- A program of requests. -/
abbrev RunProg := Prog Request Request.Answer

/-- Asks one question. -/
def Request.ask (q : Request) : RunProg q.Answer := Prog.request q

/-- A program of requests that may fail as a step fails. -/
abbrev Script := ExceptT StepError RunProg

namespace Script

/-! ## 4. Requests as scripts -/

/-- Asks one question. -/
def ask (q : Request) : Script q.Answer := ExceptT.lift q.ask

/-- The value of an answer that may be a failure. -/
def orFail : Except Failure α → Script α
  | .ok a => pure a
  | .error f => throw (.dispatch f)

/-- Makes a call on mouse or keyboard. -/
def device (call : DeviceCall) : Script Unit := do orFail (← ask (.device call))

/-- Fails if a stop is wished. -/
def checkpoint : Script Unit := do
  if ← ask .stopped then throw .interrupted

/-- Waits, or fails at a stop. -/
def sleep (ms : Nat) : Script Unit := do
  if !(← ask (.sleep ms)) then throw .interrupted

/-- Waits for a delay, if there is one. -/
def pauseFor : Option UInt64 → Script Unit
  | some ms => sleep ms.toNat
  | none => pure ()

/-- A random number from `-range` to `range`; no chance is taken for a range of zero. -/
def draw (range : UInt64) : Script Int :=
  if range = 0 then pure 0 else do return (← ask (.draw (Delay.drawRange range))).val

end Script
end TaskReplay
