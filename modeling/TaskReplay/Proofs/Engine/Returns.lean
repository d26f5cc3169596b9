import TaskReplay.Proofs.Engine.SingleRun

/-!
# What a start has done when it returns

A start returns a refusal, or the result of its run. Which of them says what it has done:

* `Stand` -- where a start stands with its run, with the record of that run and with the engine;
* `program_stands` -- every call asks only what is in order where it stands, and **what it returns
  goes with where it stands in the end** (`Reply.Goes`): a start that is refused has never claimed
  the engine, one that is not has given it back with the failure of its run, if there was one;
* `rank_stand` -- stands and phases agree about who holds the engine.
-/

namespace TaskReplay

/-- Whether a start was turned away before it had a run. -/
def EngineError.refusal : EngineError → Bool
  | run _ => false
  | _ => true

namespace Engine

open Machine (phaseAt)

/-! ## 1. Stands -/

/-- Where a start stands. -/
inductive Stand where
  /-- It has not claimed the engine. -/
  | outside
  /-- It holds the engine and has no record in hand. -/
  | holds
  /-- It has read its task again. -/
  | read (t : Task)
  /-- It has dated the record of its run. -/
  | dated (t : Task) (date : Timestamp)
  /-- The record was saved. -/
  | saved (success : Bool)
  /-- It has given the engine back, with an error if its run failed. -/
  | past (error : Option String)

/-- Where a start stands after a question and its answer. -/
def Stand.step : Stand → (q : EngineRequest) → q.Answer → Stand
  | .outside, .transition (.claim _ _ _ _), some _ => .holds
  | .outside, _, _ => .outside
  | .past e, _, _ => .past e
  | _, .transition (.finish e), _ => .past e
  | .holds, .loadTask _, .ok (some t) => .read t
  | .read t, .now, date => .dated t date
  | .dated _ _, .saveTask t, .ok () => .saved (t.lastRunSuccess.getD false)
  | .dated _ _, .saveTask _, .error _ => .holds
  | s, _, _ => s

/-- How far a start has come: the stands of a hold are not told apart. -/
def Stand.rank : Stand → Nat
  | outside => 0
  | holds | read _ | dated _ _ | saved _ => 1
  | past _ => 2

/-- **What a question and its answer can do** to where a start stands. -/
inductive Stand.Moves : Stand → (q : EngineRequest) → q.Answer → Stand → Prop where
  | same (s : Stand) (q : EngineRequest) (x : q.Answer) : Moves s q x s
  | claim (n : Nat) (task : TaskId) (total : Nat) (startedAt : Timestamp) (state : EngineState) :
      Moves .outside (.transition (.claim n task total startedAt)) (some state) .holds
  | read (id : TaskId) (t : Task) : Moves .holds (.loadTask id) (.ok (some t)) (.read t)
  | dated (t : Task) (date : Timestamp) : Moves (.read t) .now date (.dated t date)
  | saved (t : Task) (date : Timestamp) (u : Task) (success : Bool) :
      Moves (.dated t date) (.saveTask u) (.ok ()) (.saved success)
  | unsaved (t : Task) (date : Timestamp) (u : Task) (e : Failure) :
      Moves (.dated t date) (.saveTask u) (.error e) .holds
  | finish (s : Stand) (e : Option String) (x : Option EngineState) (held : s.rank = 1) :
      Moves s (.transition (.finish e)) x (.past e)

theorem Stand.moves (s : Stand) (q : EngineRequest) (x : q.Answer) : s.Moves q x (s.step q x) := by
  cases s with
  | outside =>
      cases q with
      | transition t => cases t <;> cases x <;> constructor
      | _ => exact .same ..
  | past e => cases q <;> exact .same ..
  | _ =>
      cases q with
      | transition t => cases t <;> first | exact .same .. | exact .finish _ _ _ rfl
      | loadTask id => rcases x with e | _ | t <;> constructor
      | saveTask t => cases x <;> constructor
      | now => constructor
      | _ => exact .same ..

/-- What is over stays over. -/
@[simp] theorem Stand.past_step (e : Option String) (q : EngineRequest) (x : q.Answer) :
    (past e).step q x = past e := by
  cases q <;> rfl

/-- Where call `n` stands, read off the log of a system. -/
def stand (n : Nat) (log : List Line) : Stand := phaseAt Stand.step .outside n log

/-- The questions that are in order for start `n` of a task. -/
def startStands (n : Nat) (task : TaskId) : Stand → EngineRequest → Prop
  | .outside, .busy | .outside, .loadSettings | .outside, .now => True
  | .outside, .loadTask id => id = task
  | .outside, .transition (.claim m t _ _) => m = n ∧ t = task
  | .holds, .run m _ => m = n
  | .holds, .publish _ | .holds, .log _ | .holds, .transition (.advance _) => True
  | .holds, .loadTask id => id = task
  | .holds, .transition (.finish e) => ∃ r, e = errorOf r
  | .read _, .now => True
  | .dated t date, .saveTask t' => ∃ success, t' = t.recordRun success date
  | .saved success, .transition (.finish e) => ∃ r, e = errorOf r ∧ success = r.isOk
  | .past _, .publish _ | .past _, .log _ => True
  | _, _ => False

/-- The questions that are in order for a command. -/
def commandStands (t : Transition) : Stand → EngineRequest → Prop
  | .outside, .publish _ | .outside, .log _ => True
  | .outside, .transition t' => t' = t
  | _, _ => False

/-- The questions that are in order for call `n` where it stands. -/
def Call.stands (n : Nat) : Call → Stand → EngineRequest → Prop
  | start task => startStands n task
  | pause => commandStands .pause
  | resume => commandStands .resume
  | stop => commandStands .stop
  | emergencyStop => commandStands .emergencyStop

/-- **What goes with a reply**: a run that is over, or nothing done. -/
def Reply.Goes : Reply → Stand → Prop
  | .ended r, s => (∃ result : RunResult, r = result.mapError .run ∧ s = .past (errorOf result)) ∨
      ∃ e : EngineError, e.refusal = true ∧ r = .error e ∧ s = .outside
  | .changed _, s | .nothing, s => s = .outside

/-! ## 2. Starts -/

/-- What is asked while a run goes on. -/
def Underway (n : Nat) : EngineRequest → Prop
  | .run m _ => m = n
  | .publish _ | .log _ | .transition (.advance _) => True
  | _ => False

section Starts

variable {α : Type} {n : Nat} {task : TaskId} {p : EngineProg α}

/-- **The order of a start.** -/
abbrev startOrder (n : Nat) (task : TaskId) : Protocol EngineRequest EngineRequest.Answer Stand :=
  ⟨startStands n task, Stand.step⟩

theorem plays_of_tells {q : EngineRequest} (h : q.tells = true) : Underway n q := by
  cases q <;> trivial

theorem move_advance_plays (i : Nat) : (move (.advance i)).Asks (Underway n) := by
  refine (move_asks (.advance i)).mono fun q hq => ?_
  rcases hq with tells | rfl
  · exact plays_of_tells tells
  · trivial

theorem runEffect_plays (n : Nat) (task : TaskId) (q : Request) :
    (runEffect n task q).Asks (Underway n) := by
  have tells {type : EventType} {data : Json} :
      (publish type (some task) data).Asks (Underway n) :=
    (publish_asks _ _ _).mono fun _ => plays_of_tells
  cases q with
  | tell news =>
      refine ⟨rfl, fun _ => ?_⟩
      cases news with
      | paused i => trivial
      | step i total a moment =>
          cases moment with
          | started => exact (move_advance_plays i).bind fun _ => tells
          | completed => exact (move_advance_plays (i + 1)).bind fun _ => tells
          | failed e again => exact tells
  | _ => exact ⟨rfl, fun _ => trivial⟩

/-- A start with a run under way holds the engine. -/
theorem plays_stands (hp : p.Asks (Underway n)) :
    p.Follows (startOrder n task) (fun _ s => s = .holds) .holds := by
  refine hp.follows (I := fun s => s = Stand.holds) ?_ ?_ rfl
  · rintro _ q rfl hq
    cases q with
    | transition t => cases t <;> trivial
    | run m q => exact hq
    | publish e => trivial
    | log notice => trivial
    | _ => exact hq.elim
  · rintro _ q x rfl hq
    cases q with
    | transition t => cases t <;> first | rfl | exact hq.elim
    | run m q => rfl
    | publish e => rfl
    | log notice => rfl
    | _ => exact hq.elim

/-- A start that has given the engine back only tells of it. -/
theorem past_stands {e : Option String} (hp : p.Asks fun q => q.tells = true) :
    p.Follows (startOrder n task) (fun _ s => s = .past e) (.past e) := by
  refine hp.follows (I := fun s => s = Stand.past e) ?_ ?_ rfl
  · rintro _ q rfl hq
    cases q <;> trivial
  · rintro _ q x rfl hq
    cases q <;> rfl

/-- Whether the record of a run is saved is left open; the record is one of that run. -/
theorem recordRun_stands (success : Bool) :
    (recordRun task success).Follows (startOrder n task)
      (fun _ s => s = .holds ∨ s = .saved success) .holds := by
  refine ⟨rfl, fun found => ?_⟩
  cases found with
  | error e => exact ⟨trivial, fun _ => .inl rfl⟩
  | ok found =>
      cases found with
      | none => exact ⟨trivial, fun _ => .inl rfl⟩
      | some t =>
          refine ⟨trivial, fun date => ⟨⟨success, rfl⟩, fun kept => ?_⟩⟩
          cases kept with
          | ok u => exact .inr rfl
          | error e => exact ⟨trivial, fun _ => .inl rfl⟩

/-- Giving the engine back, with the record saved or not. -/
theorem finish_stands (r : RunResult) {s : Stand} (hs : s = .holds ∨ s = .saved r.isOk) :
    (finish task r).Follows (startOrder n task) (fun _ s' => s' = .past (errorOf r)) s := by
  have moved : (move (.finish (errorOf r))).Follows (startOrder n task)
      (fun _ s' => s' = .past (errorOf r)) s := by
    rcases hs with rfl | rfl
    · refine ⟨⟨r, rfl⟩, fun x => ?_⟩
      cases x with
      | none => exact rfl
      | some state => exact (past_stands (broadcast_asks state)).bind fun _ _ hs => hs
    · refine ⟨⟨r, rfl, rfl⟩, fun x => ?_⟩
      cases x with
      | none => exact rfl
      | some state => exact (past_stands (broadcast_asks state)).bind fun _ _ hs => hs
  refine moved.bind fun _ s' hs' => ?_
  subst hs'
  cases r with
  | ok outcome => exact past_stands (publish_asks _ _ _)
  | error f => exact ⟨trivial, fun _ => past_stands (publish_asks _ _ _)⟩

/-- A run in the engine. -/
theorem runClaimed_stands (t : Task) (st : Settings) :
    (runClaimed n task t st).Follows (startOrder n task) (fun r s => s = .past (errorOf r))
      .holds := by
  have run : ((t.run st).expand (runEffect n task)).Follows (startOrder n task)
      (fun _ s => s = .holds) .holds :=
    plays_stands (Prog.Asks.expand (runEffect_plays n task) _)
  refine run.bind fun r s hs => ?_
  subst hs
  refine (recordRun_stands r.isOk).bind fun _ s hs => ?_
  exact (finish_stands r hs).bind fun _ s hs => hs

/-- What a start needs before it may claim the engine, and why it is refused if it does not get it. -/
theorem prepare_stands :
    (prepare task).run.Follows (startOrder n task)
      (fun r (s : Stand) => s = .outside ∧ ∀ e, r = .error e → e.refusal = true) .outside := by
  have refused (e : EngineError) (he : e.refusal = true) :
      Prog.Follows (startOrder n task) (fun (r : Except EngineError (Task × Settings)) (s : Stand) =>
        s = .outside ∧ ∀ e, r = .error e → e.refusal = true) (.done (.error e)) .outside :=
    ⟨rfl, fun _ h => by cases h; exact he⟩
  refine ⟨trivial, fun busy => ?_⟩
  cases busy with
  | true => exact refused _ rfl
  | false =>
      refine ⟨rfl, fun found => ?_⟩
      cases found with
      | error e => exact refused _ rfl
      | ok found =>
          cases found with
          | none => exact refused _ rfl
          | some t =>
              show Prog.Follows _ _ (accept task t).run Stand.outside
              unfold accept
              split
              · split
                · refine ⟨trivial, fun settings => ?_⟩
                  cases settings with
                  | ok st => exact ⟨rfl, nofun⟩
                  | error e => exact refused _ rfl
                · exact refused _ rfl
              · exact refused _ rfl

/-- **A start**, from its first question to what it returns. -/
theorem start_stands :
    (start n task).Follows (startOrder n task) (fun r s => Reply.Goes (.ended r) s) .outside := by
  refine prepare_stands.bind fun r s ⟨hs, refusal⟩ => ?_
  subst hs
  cases r with
  | error e => exact .inr ⟨e, refusal e rfl, rfl, rfl⟩
  | ok found =>
      obtain ⟨t, st⟩ := found
      refine ⟨trivial, fun now => ⟨⟨rfl, rfl⟩, fun x => ?_⟩⟩
      cases x with
      | none => exact .inr ⟨.alreadyRunning, rfl, rfl, rfl⟩
      | some state =>
          have told : (broadcast state).Follows (startOrder n task) (fun _ s => s = .holds) .holds :=
            plays_stands ((broadcast_asks state).mono fun _ => plays_of_tells)
          refine told.bind fun _ s hs => ?_
          subst hs
          exact (runClaimed_stands t st).bind fun r s hs => .inl ⟨r, rfl, hs⟩

end Starts

/-! ## 3. All calls -/

/-- **Every call asks only what is in order where it stands**, and what it returns goes with where it
stands in the end. -/
theorem program_stands (n : Nat) (c : Call) :
    (c.program n).Follows ⟨c.stands n, Stand.step⟩ Reply.Goes .outside := by
  have command {β : Type} {t : Transition} {p : EngineProg β} {f : β → Reply}
      (ht : ∀ x, Stand.step .outside (.transition t) x = .outside)
      (hf : ∀ b, (f b).Goes .outside) (hp : p.Asks fun q => q.tells = true ∨ q = .transition t) :
      (p.bind fun b => .done (f b)).Follows ⟨commandStands t, Stand.step⟩ Reply.Goes .outside := by
    have stays : p.Follows ⟨commandStands t, Stand.step⟩ (fun _ s => s = .outside) .outside := by
      refine hp.follows (I := fun s => s = Stand.outside) ?_ ?_ rfl
      · rintro _ q rfl (hq | rfl)
        · cases q <;> trivial
        · exact rfl
      · rintro _ q x rfl (hq | rfl)
        · cases q <;> first | rfl | cases hq
        · exact ht x
    exact stays.bind fun b s hs => by subst hs; exact hf b
  cases c with
  | start task => exact start_stands.bind fun _ _ h => h
  | pause => exact command (fun _ => rfl) (fun _ => rfl) (move_asks .pause)
  | resume => exact command (fun _ => rfl) (fun _ => rfl) (move_asks .resume)
  | stop => exact command (fun _ => rfl) (fun _ => rfl) (move_asks .stop)
  | emergencyStop => exact command (fun _ => rfl) (fun _ => rfl) emergencyStop_asks

/-! ## 4. Stands and phases -/

section Ranks

variable {n : Nat}

/-- Only a claim leads in, and only a finish leads out. -/
theorem Stand.rank_step {φ : Phase} {s : Stand} (h : s.rank = φ.rank) (q : EngineRequest)
    (x : q.Answer) : (s.step q x).rank = (φ.step q x).rank := by
  cases φ with
  | outside =>
      cases s with
      | outside =>
          cases q with
          | transition t => cases t <;> cases x <;> rfl
          | _ => rfl
      | _ => cases h
  | holding hold =>
      -- a record in hand is read, dated and saved within the hold
      cases q with
      | transition t => cases t <;> cases s <;> first | rfl | cases h
      | loadTask id =>
          cases s with
          | holds => rcases x with e | (_ | t) <;> rfl
          | _ => first | rfl | cases h
      | saveTask t =>
          cases s with
          | dated => cases x <;> rfl
          | _ => first | rfl | cases h
      | _ => cases s <;> first | rfl | cases h
  | ended =>
      cases s with
      | past e => cases q <;> rfl
      | _ => cases h

theorem stand_answered (k : Nat) (q : EngineRequest) (x : q.Answer) (older : List Line) :
    stand n (.answered k q x :: older) =
      if k = n then (stand n older).step q x else stand n older := rfl

/-- **Stands and phases agree** about who holds the engine. -/
theorem rank_stand (log : List Line) : (stand n log).rank = (phase n log).rank := by
  induction log with
  | nil => rfl
  | cons line older ih =>
      cases line with
      | called k c => exact ih
      | answered k q x =>
          rw [stand_answered, phase_answered]
          split
          · exact Stand.rank_step ih q x
          · exact ih

theorem holds_iff_stand {log : List Line} : Holds n log ↔ (stand n log).rank = 1 := by
  rw [holds_iff_rank, rank_stand]

end Ranks

/-! ## 5. Stands in reachable systems -/

section Reachable

variable {m : System} {n : Nat} {c : Call}

/-- The question at which a call stands is in order there. -/
theorem Reachable.stands {q : EngineRequest} {next : q.Answer → EngineProg Reply} (h : Reachable m)
    (ha : m.calls n = some ⟨c, .ask q next⟩) : c.stands n (stand n m.log) q :=
  ((Machine.follows_of_reaches program_stands h n).2 _ ha).1

/-- What a call has returned goes with where it stands. -/
theorem Reachable.goes {r : Reply} (h : Reachable m) (ha : m.calls n = some ⟨c, .done r⟩) :
    r.Goes (stand n m.log) := by
  have ended := (Machine.follows_of_reaches program_stands h n).2 _ ha
  exact ended

/-- A call not yet made stands outside. -/
theorem Reachable.stand_of_free (h : Reachable m) (hn : m.calls n = none) :
    stand n m.log = .outside :=
  (Machine.follows_of_reaches program_stands h n).1 hn

/-- A finish tells of the failure of a run, or of none. -/
theorem Call.errorOf_of_finish {s : Stand} {e : Option String}
    (hs : c.stands n s (.transition (.finish e))) : ∃ r, e = errorOf r := by
  cases c with
  | start task =>
      cases s with
      | holds => exact hs
      | saved success =>
          obtain ⟨r, same, -⟩ := hs
          exact ⟨r, same⟩
      | _ => exact hs.elim
  | _ => cases s <;> cases hs

end Reachable
end Engine
end TaskReplay
