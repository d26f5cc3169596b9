import TaskReplay.Bus
import TaskReplay.Engine.Program
import TaskReplay.Rehearsal.Stage

/-!
How a rehearsal answers an engine.

What this file fixes:
* `EngineStage` holds the engine, a store in memory, a bus with one reader and the devices;
* `EngineStage.answerWith` answers every request of a call on the engine; during calls somebody may
  act on the engine, to a bounded depth;
* `EngineStage.rehearse` goes through scheduled steps; at most one call waits at a time, because
  only the run that holds the engine waits.
-/

namespace TaskReplay.Rehearsal

/-! ## 1. State -/

/-- The state of a rehearsal with an engine. -/
structure EngineStage where
  now : Nat
  /-- What the clock shows. -/
  clock : Timestamp
  engine : Engine
  contexts : Assoc Nat Context
  tasks : Assoc TaskId Task
  settings : Settings
  bus : Bus Event
  bench : Bench
  /-- Lines with their times, latest first. -/
  log : List (Nat × Entry)

namespace EngineStage

/-- A stage at the beginning of time. -/
def fresh (clock : Timestamp) (tasks : List Task) (settings : Settings) (capacity : Nat)
    (bench : Bench) : EngineStage :=
  { now := 0
    clock
    engine := .initial
    contexts := .empty
    tasks := tasks.foldl (fun m t => m.set t.id t) .empty
    settings
    bus := (Bus.empty capacity).subscribe.2
    bench
    log := [] }

/-- Adds a line to the log. -/
def write (e : Entry) (s : EngineStage) : EngineStage := { s with log := (s.now, e) :: s.log }

/-- The state of a run. -/
def context (s : EngineStage) (run : Nat) : Context := (s.contexts.get? run).getD .fresh

/-- How a wait of a run ends. -/
def wake? (run : Nat) (wait : Suspension) (s : EngineStage) : Option (Nat × Bool) :=
  wait.wake? (s.engine.control run) s.now

/-! ## 2. Requests -/

/-- Where the parts are that run `run` touches, when `perform` is what commands do. -/
def stage (perform : List Command → EngineStage → EngineStage) (run : Nat) :
    Stage EngineStage where
  now := now
  control s := s.engine.control run
  context s := s.context run
  bench := bench
  setContext c s := { s with contexts := s.contexts.set run c }
  setBench b s := { s with bench := b }
  write := write
  perform := perform
  observed _ := false

/-- A call that may fail and during which somebody may act. -/
def interrupted (perform : List Command → EngineStage → EngineStage) (kind : CallKind)
    (s : EngineStage) : Option String × EngineStage :=
  let st := stage perform 0
  let (n, s) := st.count kind s
  let s := st.act kind n s
  (s.bench.fault? kind n, s)

/-- The failure of a store. -/
def storeFailure (message : String) : Failure := .storage (.reported message)

/-- The answer to a request. -/
def answerWith (perform : List Command → EngineStage → EngineStage) :
    (q : EngineRequest) → EngineStage → Reply q.Answer EngineStage
  | .busy, s => .answered s.engine.busy s
  | .loadTask id, s =>
    let (fault, s) := interrupted perform .loadTask s
    match fault with
    | some message => .answered (.error (storeFailure message)) s
    | none => .answered (.ok (s.tasks.get? id)) s
  | .loadSettings, s =>
    let (fault, s) := interrupted perform .loadSettings s
    match fault with
    | some message => .answered (.error (storeFailure message)) s
    | none => .answered (.ok s.settings) s
  | .saveTask task, s =>
    let (fault, s) := interrupted perform .saveTask s
    match fault with
    | some message => .answered (.error (storeFailure message)) s
    | none => .answered (.ok ()) { s with tasks := s.tasks.set task.id task }
  | .now, s => .answered s.clock s
  | .transition t, s =>
    match s.engine.apply t with
    | some engine => .answered (some engine.state) { s with engine }
    | none => .answered none s
  | .publish event, s =>
    let (fault, s) := interrupted perform .publish (s.write (.event event))
    match fault with
    | some message => .answered (.error (.device message)) s
    | none => .answered (.ok ()) { s with bus := s.bus.send event }
  | .log notice, s => .answered () (s.write (.notice notice))
  | .run number q, s => (stage perform number).answer q s

/-- A world for run `run` in which commands do `perform`. -/
def worldWith (perform : List Command → EngineStage → EngineStage) (run : Nat) :
    World EngineRequest EngineRequest.Answer EngineStage where
  answer := answerWith perform
  wake? := wake? run
  moveTo t s := { s with now := t }

/-! ## 3. Commands -/

/-- Plays a control call to its end; such calls do not wait. -/
def call (perform : List Command → EngineStage → EngineStage) (p : EngineProg α)
    (s : EngineStage) : Option α × EngineStage :=
  match (worldWith perform 0).advance s.now p s with
  | .finished a s => (some a, s)
  | .suspended _ s => (none, s)

/-- The answer of a control call that tells whether it did something. -/
def flagged : Option Bool × EngineStage → CommandAnswer × EngineStage
  | (b, s) => (.flag (b.getD false), s)

/-- The effect of a command, when commands during its calls do `perform`. -/
def effect (perform : List Command → EngineStage → EngineStage) (s : EngineStage) :
    Command → CommandAnswer × EngineStage
  | .pause => flagged (call perform Engine.pause s)
  | .resume => flagged (call perform Engine.resume s)
  | .stop => flagged (call perform Engine.stop s)
  | .emergencyStop => (.nothing, (call perform Engine.emergencyStop s).2)
  | .screen command =>
    (.nothing, { s with bench := { s.bench with screen := s.bench.screen.apply command } })
  | .forget id =>
    (.flag (s.tasks.get? id).isSome, { s with tasks := s.tasks.erase id })
  | .enable id enabled =>
    match s.tasks.get? id with
    | some task => (.nothing, { s with tasks := s.tasks.set id { task with enabled } })
    | none => (.nothing, s)
  | .replace settings => (.nothing, { s with settings })
  | .checkpoint | .state | .status => (.nothing, s)

/-- Commands one after the other, each with its line in the log. `depth` bounds how often somebody
may act during what somebody does. -/
def perform : (depth : Nat) → List Command → EngineStage → EngineStage
  | 0, _, s => s
  | depth + 1, cs, s =>
    cs.foldl (fun s c =>
      let (answer, s) := s.effect (perform depth) c
      s.write (.command c answer (.engine s.engine.state))) s

/-- The depth to which somebody may act. -/
def depth : Nat := 64

/-- The world of run `run`. -/
def world (run : Nat) : World EngineRequest EngineRequest.Answer EngineStage :=
  worldWith (perform depth) run

/-! ## 4. Rehearsing -/

/-- The result of a start. -/
abbrev StartResult := Except EngineError RunOutcome

/-- A step of a rehearsal. -/
inductive Step where
  | start (task : TaskId)
  | command (command : Command)

/-- A call that waits: the number of its run. -/
structure Waiting where
  number : Nat
  program : Suspended EngineRequest EngineRequest.Answer StartResult

/-- A rehearsal under way: the stage, the call that waits, the number of starts and their results,
latest first. -/
structure Performance where
  stage : EngineStage
  waiting : List Waiting
  starts : Nat
  results : List (Nat × StartResult)

namespace Performance

/-- The rehearsal after a call came as far as it could. -/
def settle (r : Performance) (number : Nat) :
    Course EngineRequest EngineRequest.Answer StartResult EngineStage → Performance
  | .finished a s =>
    { r with stage := s.write (.ended number a), results := (number, a) :: r.results }
  | .suspended p s => { r with stage := s, waiting := r.waiting ++ [⟨number, p⟩] }

/-- Takes the calls that wait up to a time. -/
def advanceTo (r : Performance) (target : Nat) : Performance :=
  r.waiting.foldl (fun r w => r.settle w.number ((world w.number).resume target w.program r.stage))
    { r with waiting := [] }

/-- Moves the time. -/
def moveTo (r : Performance) (t : Nat) : Performance :=
  { r with stage := { r.stage with now := t } }

/-- Does a step. -/
def step (r : Performance) : Step → Performance
  | .command c => { r with stage := perform depth [c] r.stage }
  | .start id =>
    let number := r.starts
    let s := r.stage.write (.began number)
    let r := { r with starts := number + 1 }
    r.settle number ((world number).advance s.now (Engine.start number id) s)

/-- Goes through the steps, each at its time; after a step the waiting calls that it woke go on
before the next time, and at `limit` all is given up. -/
def conduct (limit : Nat) : List (Nat × List Step) → Performance → Performance
  | [], r => r.advanceTo limit
  | (time, steps) :: rest, r =>
    if time < limit then
      let r := (r.advanceTo time).moveTo time
      conduct limit rest ((steps.foldl step r).advanceTo time)
    else r.advanceTo limit

end Performance

/-- A rehearsal from its beginning. -/
def rehearse (limit : Nat) (steps : List (Nat × List Step)) (s : EngineStage) : Performance :=
  Performance.conduct limit steps ⟨s, [], 0, []⟩

end EngineStage
end TaskReplay.Rehearsal
