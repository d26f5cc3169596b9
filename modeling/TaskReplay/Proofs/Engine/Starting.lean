import TaskReplay.Proofs.Conversation.Solo
import TaskReplay.Proofs.Engine.Calls

/-!
# From a start to its first step

A start asks whether the engine is busy, loads its task, loads the settings, claims the engine and
runs. Before the claim it has made no move and can be left waiting at two places:

* `atTask`, `atSettings` -- a start that waits for its task, and for the settings;
* `start_program` -- these are the places, in this order;
* `begins_alone` -- a start that waits for the settings with a task that has a step goes on to begin
  that step, if the engine is not busy then and nothing is wished of its run;
* `smooth`, `proceedIn` -- a world in which stores and observers work, and calls that go on in it, as
  a computation.
-/

namespace TaskReplay.Engine

section Forms

variable (n : Nat) (id : TaskId)

/-! ## 1. Where a start waits -/

/-- A start once its claim was answered. -/
def afterClaim (t : Task) (st : Settings) : Option EngineState → EngineProg Reply
  | none => .done (.ended (.error .alreadyRunning))
  | some s => (broadcast s).bind fun _ => (runClaimed n id t st).bind fun r =>
      .done (.ended (r.mapError .run))

/-- A start that claims the engine. -/
def atClaim (t : Task) (st : Settings) (now : Timestamp) : EngineProg Reply :=
  .ask (.transition (.claim n id t.actions.length now)) (afterClaim n id t st)

/-- A start that has prepared, or has failed to. -/
def prepared : Except EngineError (Task × Settings) → EngineProg Reply
  | .ok (t, st) => .ask .now (atClaim n id t st)
  | .error e => .done (.ended (.error e))

/-- A start that waits for the settings. -/
def atSettings (t : Task) : EngineProg Reply :=
  .ask .loadSettings fun
    | .ok st => prepared n id (.ok (t, st))
    | .error e => prepared n id (.error (.storage e))

/-- A start whose task was loaded. -/
def loaded (t : Task) : EngineProg Reply :=
  if t.enabled then
    match t.validate with
    | .ok () => atSettings n id t
    | .error ps => prepared n id (.error (.invalid ps))
  else prepared n id (.error (.taskDisabled id))

/-- A start that waits for its task. -/
def atTask : EngineProg Reply :=
  .ask (.loadTask id) fun
    | .ok (some t) => loaded n id t
    | .ok none => prepared n id (.error (.taskNotFound id))
    | .error e => prepared n id (.error (.storage e))

theorem accept_bind (t : Task) : (accept id t).run.bind (prepared n id) = loaded n id t := by
  unfold accept loaded
  split
  · cases t.validate with
    | ok u =>
        show Prog.ask EngineRequest.loadSettings _ = Prog.ask EngineRequest.loadSettings _
        congr 1
        funext x
        cases x <;> rfl
    | error ps => rfl
  · rfl

theorem prepare_bind : (prepare id).run.bind (prepared n id) =
    .ask .busy fun b => if b then prepared n id (.error .alreadyRunning) else atTask n id := by
  show Prog.ask EngineRequest.busy _ = Prog.ask EngineRequest.busy _
  congr 1
  funext b
  cases b with
  | true => rfl
  | false =>
      show Prog.ask (EngineRequest.loadTask id) _ = Prog.ask (EngineRequest.loadTask id) _
      congr 1
      funext x
      cases x with
      | error e => rfl
      | ok found =>
          cases found with
          | none => rfl
          | some t => exact accept_bind n id t

/-- **What a start does**: it looks whether the engine is busy, then waits for its task. -/
theorem start_program : Call.program n (.start id) =
    .ask .busy fun b => if b then prepared n id (.error .alreadyRunning) else atTask n id := by
  -- a start goes on from what it has prepared as `prepared` does, on either outcome
  rw [← prepare_bind]
  show (Prog.bind _ _).bind _ = _
  rw [Prog.bind_assoc]
  congr 1
  funext r
  cases r with
  | error e => rfl
  | ok found =>
      obtain ⟨t, st⟩ := found
      show Prog.ask EngineRequest.now _ = Prog.ask EngineRequest.now _
      congr 1
      funext now
      show Prog.ask (EngineRequest.transition _) _ = Prog.ask (EngineRequest.transition _) _
      congr 1
      funext x
      cases x with
      | none => rfl
      | some s =>
          show Prog.bind ((broadcast s).bind fun _ => (runClaimed n id t st).bind _) _ = _
          rw [Prog.bind_assoc]
          congr 1
          funext u
          exact Prog.bind_assoc _ _ _

end Forms

/-! ## 2. To the first step -/

section Begin

variable {n : Nat} {t : Task} {e : Engine}

/-- A claim that finds the engine free is made. -/
theorem apply_claim (n : Nat) (id : TaskId) (t : Task) (now : Timestamp) (free : e.current = none)
    (idle : e.state.status = .idle) :
    e.apply (.claim n id t.actions.length now) = some (e.claimed n id t.actions.length now) := by
  simp [apply, busy, free, idle, claimed]

/-- A start that finds the engine free waits for its task. -/
theorem waits_alone (n : Nat) (id : TaskId) (free : e.busy = false) :
    Alone service n e (Call.program n (.start id)) [.answered n .busy false] e (atTask n id) := by
  rw [start_program]
  have asks : Alone service n e (.ask .busy fun b => if b then
      prepared n id (.error .alreadyRunning) else atTask n id) [] e (.ask .busy _) := .here
  exact asks.answer false free.symm

/-- A start that waits for the settings goes on to claim the engine, if that is free. -/
theorem claims_alone (n : Nat) (id : TaskId) (t : Task) (free : e.current = none)
    (idle : e.state.status = .idle) :
    ∃ newer s, Alone service n e (atSettings n id t) newer
      (e.claimed n id t.actions.length .epoch) (afterClaim n id t .initial (some s)) := by
  have loads : Alone service n e (atSettings n id t) [] e (.ask .loadSettings _) := .here
  have reads : Alone service n e (atSettings n id t) _ e (.ask .now _) :=
    loads.answer (.ok .initial) trivial
  have claims : Alone service n e (atSettings n id t) _ e
      (.ask (.transition (.claim n id t.actions.length .epoch)) _) := reads.answer .epoch trivial
  have made := apply_claim n id t .epoch free idle
  have claimed : Alone service n e (atSettings n id t) _
      (e.after (.transition (.claim n id t.actions.length .epoch))) _ :=
    claims.answer (some (e.claimed n id t.actions.length .epoch).state)
      (by show _ = _; rw [made]; rfl)
  have state : e.after (.transition (.claim n id t.actions.length .epoch)) =
      e.claimed n id t.actions.length .epoch := by rw [after, made]; rfl
  rw [state] at claimed
  exact ⟨_, _, claimed⟩

/-- A start that has claimed the engine goes on to its first step, if nothing is wished of its
run. -/
theorem begins_of_claimed (id : TaskId) (st : Settings) (s : EngineState) {a : Action}
    {as : List Action} (ht : t.actions = a :: as) (calm : e.control n = .fresh) :
    ∃ newer e' p', Alone service n e (afterClaim n id t st (some s))
      (.answered n (.run n (.tell (.step 0 t.actions.length a .started))) () :: newer) e' p' := by
  have run : t.run st =
      .ask (.mark (.status .running)) fun _ => runFrom st t.actions.length 0 (a :: as) := by
    rw [← ht]
    rfl
  have told : Alone service n e (afterClaim n id t st (some s)) [] e (.ask (.publish _) _) := .here
  have claimed : Alone service n e (afterClaim n id t st (some s)) _ e
      ((runClaimed n id t st).bind _) := told.answer (.ok ()) trivial
  rw [runClaimed, run] at claimed
  have runs : Alone service n e (afterClaim n id t st (some s)) _ e
      (.ask (.run n (.mark (.status .running))) _) := claimed
  have walks : Alone service n e _ _ e (.ask (.run n (.mark (.index 0))) _) :=
    runs.answer () trivial
  have looks : Alone service n e _ _ e (.ask (.run n .pausePending) _) := walks.answer () trivial
  have passes : Alone service n e _ _ e (.ask (.run n .stopped) _) :=
    looks.answer false (by show _ = (e.control n).pausePending; rw [calm]; rfl)
  have begins : Alone service n e _ _ e (.ask (.run n (.tell (.step 0 _ a .started))) _) :=
    passes.answer false (by show _ = (e.control n).stopped; rw [calm]; rfl)
  exact ⟨_, _, _, begins.answer () trivial⟩

/-- **A start that waits for the settings goes on to its first step**, if the engine is free, nothing
is wished of the run and the task has a step. -/
theorem begins_alone (id : TaskId) {a : Action} {as : List Action} (ht : t.actions = a :: as)
    (free : e.current = none) (idle : e.state.status = .idle) (calm : e.control n = .fresh) :
    ∃ newer e' p', Alone service n e (atSettings n id t)
      (.answered n (.run n (.tell (.step 0 t.actions.length a .started))) () :: newer) e' p' := by
  obtain ⟨first, s, claims⟩ := claims_alone n id t free idle
  have still : (e.claimed n id t.actions.length .epoch).control n = .fresh := calm
  obtain ⟨newer, e', p', begins⟩ := begins_of_claimed id .initial s ht still
  exact ⟨newer ++ first, e', p', claims.trans begins⟩

end Begin

/-! ## 3. Steps that begin -/

/-- A line of the log that tells that a step of a task begins. -/
def Begins (n : Nat) (line : Line) : Prop :=
  ∃ run i total a, line = .answered n (.run run (.tell (.step i total a .started))) ()

/-- A task with one step that the engine accepts. -/
def oneStep : Task := .ofActions [.simple (.named "a") (.wait (some 0) 0)]

section Waits

variable {n : Nat} {id : TaskId} {p : EngineProg Reply} {e : Engine}

/-- A start that waits can go on to begin a step, if the engine is free and nothing is wished of its
run: a task that it still waits for may turn out to have one. -/
theorem begins_of_waits (free : e.current = none) (idle : e.state.status = .idle)
    (calm : e.control n = .fresh)
    (hp : p = atTask n id ∨ ∃ t, p = atSettings n id t ∧ t.actions ≠ []) :
    ∃ mid line e' p', Alone service n e p (line :: mid) e' p' ∧ Begins n line := by
  rcases hp with rfl | ⟨t, rfl, ht⟩
  · have waits : Alone service n e (atTask n id) [] e (.ask (.loadTask id) _) := .here
    have loads : Alone service n e (atTask n id) _ e (atSettings n id oneStep) :=
      waits.answer (.ok (some oneStep)) trivial
    obtain ⟨mid, e', p', begins⟩ := begins_alone id (t := oneStep) rfl free idle calm
    exact ⟨_, _, e', p', loads.trans begins, _, _, _, _, rfl⟩
  · obtain ⟨a, as, has⟩ := List.exists_cons_of_ne_nil ht
    obtain ⟨mid, e', p', begins⟩ := begins_alone id has free idle calm
    exact ⟨mid, _, e', p', begins, _, _, _, _, rfl⟩

end Waits

/-! ## 4. A smooth world -/

/-- Answers of a world in which stores and observers work, tasks are found as `find` says, and devices
answer `device`. -/
def smooth (find : TaskId → Option Task) (device : Except Failure Unit) (e : Engine) :
    (q : EngineRequest) → q.Answer
  | .busy => e.busy
  | .loadTask id => .ok (find id)
  | .loadSettings => .ok .initial
  | .saveTask _ | .publish _ => .ok ()
  | .now => .epoch
  | .transition t => (e.apply t).map (·.state)
  | .log _ => ()
  | .run n q =>
    match q with
    | .device _ => device
    | .search _ _ _ => .ok .notFound
    | .sleep _ => !(e.control n).stopped
    | .stopped => (e.control n).stopped
    | .pausePending => (e.control n).pausePending
    | .awaitResume => false
    | .draw range => Delay.Draw.zero range
    | .clock => 0
    | .read _ => none
    | .settle _ | .write _ _ | .mark _ | .log _ | .tell _ => ()

/-- A task that clicks once. -/
def clickTask : Task := .ofActions [.simple (.named "a") (.click .single (.on (.coordinates 1 0)))]

/-- A wait for the end of a pause. -/
def pauses : EngineRequest → Bool
  | .run _ .awaitResume => true
  | _ => false

/-- An engine allows the answers of a smooth world, unless a run waits for the end of a pause. -/
theorem allows_smooth {find : TaskId → Option Task} {device : Except Failure Unit} (e : Engine)
    {q : EngineRequest} (hq : pauses q = false) : Allows e q (smooth find device e q) := by
  cases q with
  | run n q => cases q <;> first | rfl | trivial
  | _ => first | rfl | trivial

/-- **A call goes on** in a smooth world, up to where it stops or the run waits for the end of a
pause. -/
def proceedIn (find : TaskId → Option Task) (device : Except Failure Unit)
    (stops : EngineRequest → Bool) (n : Nat) (c : Call) (m : System) : System :=
  m.goOn service (smooth find device) (fun q => stops q || pauses q) n c

/-- The same where every task clicks once. -/
abbrev proceed : (EngineRequest → Bool) → Nat → Call → System → System :=
  proceedIn (fun _ => some clickTask) (.ok ())

section Proceeding

variable {find : TaskId → Option Task} {device : Except Failure Unit} {m : System} {n : Nat}

/-- What every step of the call keeps is kept. -/
theorem proceed_keeps {P : System → Prop} (step : ∀ m m', P m → m.Step service n m' → P m')
    (stops : EngineRequest → Bool) (c : Call) (h : P m) : P (proceedIn find device stops n c m) :=
  Machine.goOn_steps
    (fun e q hq => allows_smooth e (by simpa using (Bool.or_eq_false_iff.mp hq).2)) step c h

theorem Reachable.proceed (h : Reachable m) (stops : EngineRequest → Bool) (n : Nat) (c : Call) :
    Reachable (proceedIn find device stops n c m) :=
  proceed_keeps (fun _ _ h hs => Machine.Reaches.step h trivial hs) stops c h

/-- A call whose turn it is keeps it. -/
theorem ReachableInTurn.proceed (h : ReachableInTurn m) (turn : turns n m)
    (stops : EngineRequest → Bool) (c : Call) :
    ReachableInTurn (proceedIn find device stops n c m) ∧
      turns n (proceedIn find device stops n c m) := by
  refine proceed_keeps (P := fun m => ReachableInTurn m ∧ turns n m) (fun m m' hm hs => ?_) stops c
    ⟨h, turn⟩
  refine ⟨hm.1.step hm.2 hs, fun k hk a ha => ?_⟩
  rw [hs.calls_of_ne hk] at ha
  exact hm.2 k hk a ha

end Proceeding

/-- A wait for a task. -/
def awaitsTask : EngineRequest → Bool
  | .loadTask _ => true
  | _ => false

/-- A wait for a device. -/
def awaitsDevice : EngineRequest → Bool
  | .run _ (.device _) => true
  | _ => false

/-- Where a call that goes on to its end stops. -/
def never (_ : EngineRequest) : Bool := false

/-- A run that has come to its click. -/
def clickBegun : System :=
  Machine.initial Engine.initial |> proceed awaitsDevice 0 (.start ⟨0⟩)

/-! ## 5. Systems in which a start waits -/

/-- Nobody is about to go on where all others rest and the one call that acted has come to rest. -/
theorem resting_of_turn {m : System} {n : Nat} {a : Activity Call EngineRequest _ Reply}
    (turn : turns n m) (ha : m.calls n = some a) (rests : a.AtRest EngineRequest.waits) :
    Resting m := by
  intro k b hb
  by_cases hk : k = n
  · subst hk
    rw [ha] at hb
    cases hb
    exact rests
  · exact turn k hk b hb

/-- A system in which a start waits for its task, and nothing else was called. -/
theorem exists_waiting (id : TaskId) : ∃ m : System, ReachableInTurn m ∧ Resting m ∧
    m.state = Engine.initial ∧ m.calls 0 = some ⟨.start id, atTask 0 id⟩ := by
  let m₀ : System := Machine.initial Engine.initial
  have rest (k : Nat) (_ : k ≠ 0) : m₀.AtRest EngineRequest.waits k := fun a ha => nomatch ha
  obtain ⟨m, reached, state, waits, -, stay⟩ := Machine.Reaches.call_alone (S := service)
    (m := m₀) (c := .start id) turns (fun _ hm => Machine.inTurn_of_othersStay hm rest) rfl
    (waits_alone 0 id rfl)
  exact ⟨m, reached, resting_of_turn (Machine.inTurn_of_othersStay stay rest) waits rfl, state, waits⟩

end TaskReplay.Engine
