import TaskReplay.Rehearsal.Bench
import TaskReplay.Rehearsal.Course

/-!
How a rehearsal answers a run.

What this file fixes:
* a `Stage` says where a state keeps what a run touches, and what commands do to it;
* `Stage.answer` is the answer to every request of a run: a call is counted and written into the
  log, somebody may act, then the call fails or has its effect; a search lets somebody act first;
* `RunStage` is the state for runs without an engine.
-/

namespace TaskReplay.Rehearsal

/-! ## 1. What a run touches -/

/-- Where a state keeps what a run touches, and what commands do to it. -/
structure Stage (σ : Type) where
  now : σ → Nat
  control : σ → Control
  context : σ → Context
  bench : σ → Bench
  setContext : Context → σ → σ
  setBench : Bench → σ → σ
  write : Entry → σ → σ
  perform : List Command → σ → σ
  /-- Whether somebody observes the run's news. -/
  observed : σ → Bool

namespace Stage

variable {σ : Type}

/-- Counts a call and gives its number. -/
def count (st : Stage σ) (kind : CallKind) (s : σ) : Nat × σ :=
  let (n, b) := (st.bench s).count kind
  (n, st.setBench b s)

/-- Lets those act who waited for a call. -/
def act (st : Stage σ) (kind : CallKind) (n : Nat) (s : σ) : σ :=
  st.perform ((st.bench s).hooked kind n) s

/-- A call on mouse or keyboard. -/
def device (st : Stage σ) (call : DeviceCall) (s : σ) : Reply (Except Failure Unit) σ :=
  let s := st.write (.call call) s
  let (failure, s) := match CallKind.ofDevice? call with
    | none => (none, s)
    | some kind =>
      let (n, s) := st.count kind s
      let s := st.act kind n s
      ((st.bench s).fault? kind n, s)
  match failure with
  | some message => .answered (.error (.device message)) s
  | none =>
    let b := st.bench s
    let s := st.setBench { b with input := b.input.record call } s
    if call.duration = 0 then .answered (.ok ()) s
    else .waiting (.settle (st.now s + call.duration)) (fun _ => .ok ()) s

/-- A search. -/
def search (st : Stage σ) (template : String) (confidence : Float32) (area : Option Region)
    (s : σ) : Except Failure Match × σ :=
  let (n, s) := st.count .find s
  let s := st.act .find n s
  let b := st.bench s
  match b.fault? .find n with
  | some message =>
    let answer := .error (.device message)
    (answer, st.write (.found template confidence area answer) s)
  | none =>
    let (m, screen) := b.screen.find template (some confidence) area
    let s := st.setBench { b with screen } s
    (.ok m, st.write (.found template confidence area (.ok m)) s)

/-- News for observers. -/
def tell (st : Stage σ) (news : StepNews) (s : σ) : σ :=
  if st.observed s then
    let kind := CallKind.ofNews news
    let (n, s) := st.count kind (st.write (.news news) s)
    st.act kind n s
  else s

/-- The answer to a request. -/
def answer (st : Stage σ) : (q : Request) → σ → Reply q.Answer σ
  | .device call, s => st.device call s
  | .search template confidence area, s =>
    let (m, s) := st.search template confidence area s
    .answered m s
  | .settle ms, s =>
    if ms = 0 then .answered () s else .waiting (.settle (st.now s + ms)) (fun _ => ()) s
  | .sleep ms, s =>
    let stopped := (st.control s).stopped
    if ms = 0 ∨ stopped then .answered (!stopped) s
    else .waiting (.sleep (st.now s + ms)) (fun full => full) s
  | .stopped, s => .answered (st.control s).stopped s
  | .pausePending, s => .answered (st.control s).pausePending s
  | .awaitResume, s =>
    if (st.control s).pausePending then .waiting (.resume (st.now s)) (fun _ => true) s
    else .answered false s
  | .draw range, s => .answered (Delay.Draw.nearest range (st.bench s).luck) s
  | .clock, s => .answered (st.now s) s
  | .read name, s => .answered ((st.context s).scope.get? name) s
  | .write name value, s =>
    let c := st.context s
    .answered () (st.setContext { c with scope := c.scope.set name value } s)
  | .mark mark, s => .answered () (st.setContext ((st.context s).note mark) s)
  | .log notice, s => .answered () (st.write (.notice notice) s)
  | .tell news, s => .answered () (st.tell news s)

end Stage

/-! ## 2. Runs without an engine -/

/-- The state of a rehearsal without an engine. -/
structure RunStage where
  now : Nat
  control : Control
  context : Context
  bench : Bench
  observed : Bool
  /-- Lines with their times, latest first. -/
  log : List (Nat × Entry)

namespace RunStage

/-- A stage at the beginning of time. -/
def fresh (bench : Bench) (observed : Bool) : RunStage :=
  ⟨0, .fresh, .fresh, bench, observed, []⟩

/-- Adds a line to the log. -/
def write (e : Entry) (s : RunStage) : RunStage := { s with log := (s.now, e) :: s.log }

/-- The effect of a command. -/
def effect (s : RunStage) : Command → CommandAnswer × RunStage
  | .pause =>
    let (c, changed) := s.control.pause
    (.flag changed, { s with control := c })
  | .resume =>
    let (c, changed) := s.control.resume
    (.flag changed, { s with control := c })
  | .stop => (.nothing, { s with control := s.control.stop })
  | .checkpoint => (.checked (if s.control.stopped then some .interrupted else none), s)
  | .screen command =>
    (.nothing, { s with bench := { s.bench with screen := s.bench.screen.apply command } })
  | _ => (.nothing, s)

/-- A command with its line in the log. -/
def command (s : RunStage) (c : Command) : RunStage :=
  let (answer, s) := s.effect c
  let view := match c with
    | .screen _ => .nothing
    | _ => .control s.control
  s.write (.command c answer view)

/-- Commands one after the other. -/
def perform (cs : List Command) (s : RunStage) : RunStage := cs.foldl command s

/-- Where the parts are. -/
def stage : Stage RunStage where
  now := now
  control := control
  context := context
  bench := bench
  setContext c s := { s with context := c }
  setBench b s := { s with bench := b }
  write := write
  perform := perform
  observed := observed

/-- The world of a run without an engine. -/
def world : World Request Request.Answer RunStage where
  answer := stage.answer
  wake? wait s := wait.wake? s.control s.now
  moveTo t s := { s with now := t }

/-- A schedule of commands: those of one time together. -/
abbrev Schedule := List (Nat × List Command)

/-- Plays a program under a schedule until `limit`. -/
def play (limit : Nat) (schedule : Schedule) (p : RunProg α) (s : RunStage) :
    World.End (List Command) α RunStage :=
  world.play limit perform schedule p s

/-- Plays programs one after the other until one is given up; gives each result with its time. -/
def playAll (limit : Nat) :
    Schedule → List (RunProg α) → RunStage → List (α × Nat) × Bool × RunStage
  | _, [], s => ([], true, s)
  | schedule, p :: rest, s =>
    let e := play limit schedule p s
    match e.result with
    | none => ([], false, e.state)
    | some a =>
      let (as, done, s) := playAll limit e.rest rest e.state
      ((a, e.state.now) :: as, done, s)

end RunStage
end TaskReplay.Rehearsal
