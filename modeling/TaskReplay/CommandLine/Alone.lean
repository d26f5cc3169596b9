import TaskReplay.Engine.Program
import TaskReplay.Store.Basic
import TaskReplay.Virtual.Screen

/-!
An engine that nobody but its own run touches.

What this file fixes:
* `Alone` is a store, a simulated screen and input, and an engine; every request is answered at once
  and waits take virtual time only;
* with nobody else there, no pause and no stop is ever wished, and events find no reader;
* chance is left out: a draw changes nothing.
-/

namespace TaskReplay.CommandLine

/-- What a run works with. -/
structure Alone where
  store : Store
  screen : Screen
  input : Recorder
  engine : Engine
  context : Context
  /-- Milliseconds since the beginning. -/
  now : Nat
  /-- What the clock shows. -/
  clock : Timestamp

namespace Alone

/-- A store and a screen before a run. -/
def start (store : Store) (screen : Screen) (clock : Timestamp) : Alone :=
  ⟨store, screen, .idle, .initial, .fresh, 0, clock⟩

/-- The state a while later. -/
def later (s : Alone) (ms : Nat) : Alone := { s with now := s.now + ms }

/-- The answer to a request of the run. -/
def effect (s : Alone) : (q : Request) → q.Answer × Alone
  | .device call => (.ok (), { s.later call.duration with input := s.input.record call })
  | .search template confidence area =>
    let (m, screen) := s.screen.find template (some confidence) area
    (.ok m, { s with screen })
  | .settle ms => ((), s.later ms)
  | .sleep ms => (true, s.later ms)
  | .stopped => (false, s)
  | .pausePending => (false, s)
  | .awaitResume => (false, s)
  | .draw range => (Delay.Draw.zero range, s)
  | .clock => (s.now, s)
  | .read name => (s.context.scope.get? name, s)
  | .write name value =>
    ((), { s with context := { s.context with scope := s.context.scope.set name value } })
  | .mark mark => ((), { s with context := s.context.note mark })
  | .log _ => ((), s)
  | .tell _ => ((), s)

/-- The answer to a request of the engine. -/
def answer (s : Alone) : (q : EngineRequest) → q.Answer × Alone
  | .busy => (s.engine.busy, s)
  | .loadTask id => (s.store.find id, s)
  | .loadSettings => (s.store.loadSettings, s)
  | .saveTask task => (.ok (), { s with store := s.store.save task })
  | .now => (s.clock, s)
  | .transition t =>
    match s.engine.apply t with
    | some engine => (some engine.state, { s with engine })
    | none => (none, s)
  | .publish _ => (.ok (), s)
  | .log _ => ((), s)
  | .run _ q => s.effect q

/-- Runs a stored task to its end. -/
def run (s : Alone) (id : TaskId) : Except EngineError RunOutcome × Alone :=
  (Engine.start 0 id).run answer s

end Alone
end TaskReplay.CommandLine
