import TaskReplay.Proofs.Engine.EmergencyStop

/-!
# Moves and the events that tell of them

A call makes a move and then, in a question of its own, publishes the snapshot after it. Between the
two other calls may go on, so the bus need not see the snapshots in the order of the moves:

* `owes` -- the snapshot that a call has made and not told of yet; `program_tells` -- a call tells of
  every move it makes before it makes the next, and before it returns;
* `made`, `arrived` -- the snapshots in the order of the moves, and the status events in the order in
  which they took effect on the bus, both latest first;
* `Undivided` -- no move was made while another one was still to be told of;
* `own_events`, `all_events` -- each call tells of its own moves in order, and in an undivided system
  the whole bus is in order;
* `status_events_follow_moves` -- so **a call that has returned has told of all its moves**, and once
  all have, the last status event shows the engine as it is, if the system was undivided;
  `status_event_overtaken` -- else it need not.
-/

namespace TaskReplay

/-- Whether a question has nothing to do with moves and events. -/
def EngineRequest.silent : EngineRequest → Bool
  | .transition _ | .publish _ => false
  | _ => true

namespace Engine

open Machine (phaseAt)

/-! ## 1. What a call owes -/

/-- The event that tells of a snapshot. -/
def statusEvent (s : EngineState) : Event := ⟨.statusChanged, s.taskId, s.toJson⟩

/-- The snapshot that a call owes to observers, after a question and its answer. -/
def owes : Option EngineState → (q : EngineRequest) → q.Answer → Option EngineState
  | _, .transition _, some s => some s
  | _, .publish _, _ => none
  | o, _, _ => o

/-- The questions in order for a call that owes a snapshot, or none: it pays its debt before it goes
on, and tells of no status without need. -/
def mayTell : Option EngineState → EngineRequest → Prop
  | some s, .publish e => e = statusEvent s
  | none, .publish e => e.type ≠ .statusChanged
  | _, .log _ => True
  | o, _ => o = none

/-- **A call tells of each move before it goes on.** -/
def telling : Protocol EngineRequest EngineRequest.Answer (Option EngineState) := ⟨mayTell, owes⟩

/-- A program that leaves no debt behind if it had none to begin with. -/
abbrev Pays {α : Type} (p : EngineProg α) : Prop := p.Follows telling (fun _ o => o = none) none

section Pays

variable {α β : Type} {n : Nat} {task : TaskId}

theorem pays_of_silent {p : EngineProg α} (hp : p.Asks fun q => q.silent = true) : Pays p := by
  refine hp.follows (I := fun o => o = none) ?_ ?_ rfl
  · rintro _ q rfl hq
    cases q <;> trivial
  · rintro _ q x rfl hq
    cases q <;> first | rfl | cases hq

theorem Pays.bind {p : EngineProg α} {f : α → EngineProg β} (hp : Pays p) (hf : ∀ a, Pays (f a)) :
    Pays (p.bind f) :=
  Prog.Follows.bind hp fun a _ ho => by subst ho; exact hf a

theorem silent_of_records {q : EngineRequest} (h : q.records = true) : q.silent = true := by
  cases q <;> first | rfl | cases h

theorem silent_of_prepares {q : EngineRequest} (h : q.prepares = true) : q.silent = true := by
  cases q <;> first | rfl | cases h

/-- Publishing something else than a status. -/
theorem publish_pays {type : EventType} (ht : type ≠ .statusChanged) (task : Option TaskId)
    (data : Json) : Pays (publish type task data) := by
  refine ⟨ht, fun x => ?_⟩
  cases x with
  | ok u => exact rfl
  | error e => exact ⟨trivial, fun _ => rfl⟩

/-- Telling of a snapshot pays for it. -/
theorem broadcast_pays (s : EngineState) :
    (broadcast s).Follows telling (fun _ o => o = none) (some s) := by
  refine ⟨rfl, fun x => ?_⟩
  cases x with
  | ok u => exact rfl
  | error e => exact ⟨trivial, fun _ => rfl⟩

theorem move_pays (t : Transition) : Pays (move t) := by
  refine ⟨rfl, fun x => ?_⟩
  cases x with
  | none => exact rfl
  | some s => exact (broadcast_pays s).bind fun _ o ho => ho

theorem emergencyStop_pays : Pays emergencyStop := by
  refine ⟨rfl, fun x => ⟨?_, fun _ => ?_⟩⟩
  · cases x <;> trivial
  · cases x with
    | none => exact rfl
    | some s => exact broadcast_pays s

theorem progress_pays (task : TaskId) (news : StepNews) : Pays (progress task news) := by
  cases news with
  | paused i => exact rfl
  | step i total a moment =>
      cases moment with
      | started => exact (move_pays _).bind fun _ => publish_pays (by decide) _ _
      | completed => exact (move_pays _).bind fun _ => publish_pays (by decide) _ _
      | failed e again => exact publish_pays (by decide) _ _

theorem runEffect_pays (n : Nat) (task : TaskId) (q : Request) : Pays (runEffect n task q) := by
  cases q with
  | tell news => exact ⟨rfl, fun _ => progress_pays task news⟩
  | _ => exact ⟨rfl, fun _ => rfl⟩

theorem runClaimed_pays (n : Nat) (task : TaskId) (t : Task) (st : Settings) :
    Pays (runClaimed n task t st) := by
  -- a run by itself keeps to any order, so each of its questions may be taken apart
  have run : (t.run st).Follows (⟨fun _ _ => True, fun u _ _ => u⟩ : Protocol _ _ Unit)
      (fun _ _ => True) () :=
    (Prog.asks_true _).follows (I := fun _ => True) (fun _ _ _ _ => trivial)
      (fun _ _ _ _ _ => trivial) trivial
  have whole : ((t.run st).expand (runEffect n task)).Follows telling
      (fun _ o => ∃ _ : Unit, True ∧ o = none) none :=
    run.expand (fun _ o => o = none)
      (fun q _ o ho _ => by subst ho; exact runEffect_pays n task q) rfl
  refine whole.bind fun r o ⟨_, _, ho⟩ => ?_
  subst ho
  refine (pays_of_silent ((recordRun_asks task r.isOk).mono fun _ => silent_of_records)).bind
    fun _ => ?_
  refine Pays.bind (p := finish task r) ?_ fun _ => rfl
  refine (move_pays _).bind fun _ => ?_
  cases r with
  | ok outcome => exact publish_pays (by decide) _ _
  | error f => exact ⟨trivial, fun _ => publish_pays (by decide) _ _⟩

theorem start_pays (n : Nat) (task : TaskId) : Pays (start n task) := by
  have prepares := (prepare_asks task).mono fun _ => silent_of_prepares
  refine (pays_of_silent prepares).bind fun r => ?_
  cases r with
  | error e => exact rfl
  | ok loaded =>
      obtain ⟨t, st⟩ := loaded
      refine ⟨rfl, fun now => ⟨rfl, fun x => ?_⟩⟩
      cases x with
      | none => exact rfl
      | some s =>
          refine (broadcast_pays s).bind fun _ o ho => ?_
          subst ho
          exact (runClaimed_pays n task t st).bind fun _ => rfl

/-- **Every call tells of each of its moves** before it makes the next, and owes nothing when it
returns. -/
theorem program_tells (n : Nat) (c : Call) : Pays (c.program n) := by
  cases c with
  | start task => exact (start_pays n task).bind fun _ => rfl
  | pause => exact (move_pays .pause).bind fun _ => rfl
  | resume => exact (move_pays .resume).bind fun _ => rfl
  | stop => exact (move_pays .stop).bind fun _ => rfl
  | emergencyStop => exact emergencyStop_pays.bind fun _ => rfl

end Pays

/-! ## 2. Moves and events of a log -/

/-- What call `n` owes, read off the log of a system. -/
def debt (n : Nat) (log : List Line) : Option EngineState := phaseAt owes none n log

/-- The snapshot that a line made. -/
def snapshot? : Line → Option EngineState
  | .answered _ (.transition _) x => x
  | _ => none

/-- The status event that took effect with a line. -/
def arrival? : Line → Option Event
  | .answered _ (.publish e) _ => if e.type = .statusChanged then some e else none
  | _ => none

/-- The snapshots in the order of the moves that made them, latest first. -/
def made (log : List Line) : List EngineState := log.filterMap snapshot?

/-- The status events in the order in which they took effect on the bus, latest first. -/
def arrived (log : List Line) : List Event := log.filterMap arrival?

/-- Whether a line is about call `n`. -/
def isOf (n : Nat) : Line → Bool
  | .called k _ => k == n
  | .answered k _ _ => k == n

/-- The lines about call `n`. -/
def own (n : Nat) (log : List Line) : List Line := log.filter (isOf n)

/-- **No move was made while another one was still to be told of.** -/
def Undivided (log : List Line) : Prop :=
  ∀ newer line s older, log = newer ++ line :: older → snapshot? line = some s →
    ∀ k, debt k older = none

/-- Whether call `n` has returned; a call that was not made has nothing to return from. -/
def Returned (m : System) (n : Nat) : Prop := ∀ a, m.calls n = some a → ∃ r, a.rest = .done r

/-- Whether all calls have returned. -/
def Quiet (m : System) : Prop := ∀ n, Returned m n

section Logs

variable {m m' : System} {n k : Nat} {line : Line} {log : List Line} {c : Call} {q : EngineRequest}
  {next : q.Answer → EngineProg Reply}

theorem undivided_nil : Undivided [] := by
  intro newer line s older hl
  exact absurd hl (by simp)

theorem undivided_cons : Undivided (line :: log) ↔
    Undivided log ∧ ∀ s, snapshot? line = some s → ∀ k, debt k log = none := by
  constructor
  · intro h
    exact ⟨fun newer line' s older hl => h (line :: newer) line' s older (by rw [hl]; rfl),
      fun s => h [] line s log rfl⟩
  · rintro ⟨h, now⟩ newer line' s older hl
    cases newer with
    | nil =>
        obtain ⟨rfl, rfl⟩ := List.cons.inj hl
        exact now s
    | cons e newer => exact h newer line' s older (List.cons.inj hl).2

/-- A line that makes no move divides nothing. -/
theorem Undivided.silent (h : Undivided log) (hs : snapshot? line = none) :
    Undivided (line :: log) :=
  undivided_cons.mpr ⟨h, fun s made => by rw [hs] at made; cases made⟩

theorem made_cons (line : Line) (log : List Line) :
    made (line :: log) = (snapshot? line).toList ++ made log := by
  cases h : snapshot? line <;> simp [made, h]

theorem arrived_cons (line : Line) (log : List Line) :
    arrived (line :: log) = (arrival? line).toList ++ arrived log := by
  cases h : arrival? line <;> simp [arrived, h]

/-- A question is asked only where what the call owes allows it. -/
theorem Reachable.mayTell (h : Reachable m) (ha : m.calls n = some ⟨c, .ask q next⟩) :
    mayTell (debt n m.log) q :=
  ((Machine.follows_of_reaches program_tells h n).2 _ ha).1

/-- A call that has not begun, or has returned, owes nothing. -/
theorem debt_of_returned (h : Reachable m) (hn : Returned m n) : debt n m.log = none := by
  have follows := Machine.follows_of_reaches program_tells h n
  cases ha : m.calls n with
  | none => exact follows.1 ha
  | some a =>
      obtain ⟨r, hr⟩ := hn a ha
      have paid := follows.2 a ha
      rw [hr] at paid
      exact paid

/-- A call that may move owes nothing. -/
theorem paid_of_mayTell {o : Option EngineState} {t : Transition}
    (may : Engine.mayTell o (.transition t)) : o = none := by
  cases o with
  | none => rfl
  | some s => cases may

/-- **What an answer is worth** to the call that gets it: the snapshot it made is owed or told of. -/
theorem worth_answered (x : q.Answer) (may : Engine.mayTell (debt n log) q) :
    (snapshot? (.answered n q x)).toList.map statusEvent ++ (debt n log).toList.map statusEvent =
      (debt n (.answered n q x :: log)).toList.map statusEvent ++
        (arrival? (.answered n q x)).toList := by
  have after : debt n (.answered n q x :: log) = owes (debt n log) q x := if_pos rfl
  rw [after]
  cases q with
  | transition t =>
      rw [paid_of_mayTell may]
      cases x <;> rfl
  | publish e =>
      cases ho : debt n log with
      | none =>
          rw [ho] at may
          have other : e.type ≠ .statusChanged := may
          simp [snapshot?, arrival?, owes, other]
      | some s =>
          rw [ho] at may
          obtain rfl : e = statusEvent s := may
          simp [snapshot?, arrival?, owes, statusEvent]
  | _ => simp [snapshot?, arrival?, owes]

end Logs

/-! ## 3. Order -/

section Order

variable {m : System} {n k : Nat} {log : List Line} {q : EngineRequest}

theorem own_called (n k : Nat) (c : Call) (log : List Line) :
    own n (.called k c :: log) = if k = n then .called k c :: own n log else own n log := by
  by_cases hk : k = n <;> simp [own, isOf, hk]

@[simp] theorem made_own_called (n k : Nat) (c : Call) (log : List Line) :
    made (own n (.called k c :: log)) = made (own n log) := by
  rw [own_called]
  split <;> rfl

@[simp] theorem arrived_own_called (n k : Nat) (c : Call) (log : List Line) :
    arrived (own n (.called k c :: log)) = arrived (own n log) := by
  rw [own_called]
  split <;> rfl

theorem own_answered (n : Nat) (x : q.Answer) (log : List Line) :
    own n (.answered n q x :: log) = .answered n q x :: own n log := by
  simp [own, isOf]

theorem own_answered_of_ne (hk : k ≠ n) (x : q.Answer) (log : List Line) :
    own n (.answered k q x :: log) = own n log := by
  simp [own, isOf, hk]

/-- **Each call tells of its own moves in order**: its snapshots are its status events, but for the
one it may still owe. -/
theorem own_events (h : Reachable m) (n : Nat) :
    (made (own n m.log)).map statusEvent =
      (debt n m.log).toList.map statusEvent ++ arrived (own n m.log) := by
  induction h with
  | here => rfl
  | @step m m' k h _ hs ih =>
      cases hs with
      | call c free =>
          show (made (own n (.called k c :: m.log))).map _ =
            (debt n (.called k c :: m.log)).toList.map _ ++ arrived (own n (.called k c :: m.log))
          rw [made_own_called, arrived_own_called, ih]
          rfl
      | @answer c q next x asks allowed =>
          show (made (own n (.answered k q x :: m.log))).map _ =
            (debt n (.answered k q x :: m.log)).toList.map _ ++
              arrived (own n (.answered k q x :: m.log))
          by_cases hk : k = n
          · subst hk
            have worth := worth_answered x (Reachable.mayTell h asks)
            rw [own_answered, made_cons, arrived_cons, List.map_append, ih, ← List.append_assoc,
              worth, List.append_assoc]
          · have same : debt n (.answered k q x :: m.log) = debt n m.log := if_neg hk
            rw [own_answered_of_ne hk, same]
            exact ih

/-- **In an undivided system the bus is in order**: at most one call owes a snapshot, and but for that
one the snapshots are the status events. -/
theorem all_events (h : Reachable m) (hu : Undivided m.log) :
    ∃ n, (∀ k, k ≠ n → debt k m.log = none) ∧
      (made m.log).map statusEvent = (debt n m.log).toList.map statusEvent ++ arrived m.log := by
  induction h with
  | here => exact ⟨0, fun _ _ => rfl, rfl⟩
  | @step m m' k h _ hs ih =>
      cases hs with
      | call c free => exact ih (undivided_cons.mp hu).1
      | @answer c q next x asks allowed =>
          obtain ⟨n, others, order⟩ := ih (undivided_cons.mp hu).1
          have may := Reachable.mayTell h asks
          have worth := worth_answered x may
          have same (j : Nat) (hj : j ≠ k) : debt j (.answered k q x :: m.log) = debt j m.log :=
            if_neg hj.symm
          show ∃ n, (∀ j, j ≠ n → debt j (.answered k q x :: m.log) = none) ∧
            (made (.answered k q x :: m.log)).map statusEvent =
              (debt n (.answered k q x :: m.log)).toList.map statusEvent ++
                arrived (.answered k q x :: m.log)
          rw [made_cons, arrived_cons, List.map_append, order]
          cases hs : snapshot? (.answered k q x) with
          | some s =>
              -- nobody owes anything when a move is made, so the mover is the one who owes now
              have paid := (undivided_cons.mp hu).2 s hs
              refine ⟨k, fun j hj => by rw [same j hj, paid], ?_⟩
              rw [paid k, hs] at worth
              rw [paid n, ← List.append_assoc, worth, List.append_assoc]
          | none =>
              rw [hs] at worth
              by_cases hk : k = n
              · subst hk
                refine ⟨k, fun j hj => by rw [same j hj, others j hj], ?_⟩
                rw [← List.append_assoc, worth, List.append_assoc]
              · rw [others k hk] at worth
                obtain ⟨owed, told⟩ := List.append_eq_nil_iff.mp worth.symm
                refine ⟨n, fun j hj => ?_, ?_⟩
                · by_cases hj' : j = k
                  · subst hj'
                    simpa using owed
                  · rw [same j hj', others j hj]
                · rw [same n (Ne.symm hk), told]
                  rfl

/-- The engine shows the snapshot after its latest move. -/
theorem state_of_made (h : Reachable m) : m.state.state = (made m.log).headD .initial := by
  induction h with
  | here => rfl
  | @step m m' k h _ hs ih =>
      cases hs with
      | call c free => exact ih
      | @answer c q next x asks allowed =>
          show (m.state.after q).state = (made (.answered k q x :: m.log)).headD .initial
          rw [made_cons]
          cases q with
          | transition t =>
              obtain rfl : x = (m.state.apply t).map (·.state) := allowed
              cases ht : m.state.apply t with
              | none => simpa [after, snapshot?, ht] using ih
              | some e => simp [after, snapshot?, ht]
          | _ => exact ih

/-- The bus has seen the snapshots of a log in the order of the moves, but for the latest. -/
def InOrder (log : List Line) : Prop :=
  ∃ late, late.length ≤ 1 ∧ (made log).map statusEvent = late ++ arrived log

/-- The last status event shows the engine as it is; if there is none, nothing has moved it. -/
def Shown (m : System) : Prop :=
  match (arrived m.log).head? with
  | some e => e = statusEvent m.state.state
  | none => m.state.state = .initial

theorem inOrder_of_owed {log' : List Line} {o : Option EngineState}
    (h : (made log').map statusEvent = o.toList.map statusEvent ++ arrived log') : InOrder log' :=
  ⟨_, by cases o <;> simp, h⟩

/-- Once nothing is owed, what the bus has seen last is how things are. -/
theorem shown_of_paid (h : Reachable m) (paid : (made m.log).map statusEvent = arrived m.log) :
    Shown m := by
  have state := state_of_made h
  cases hm : made m.log with
  | nil =>
      rw [hm] at state paid
      simpa [Shown, ← paid] using state
  | cons s older =>
      rw [hm] at state paid
      simp [Shown, ← paid, state]

/-- **Status events and moves**: each call tells of its own moves in order, and has told of all when it
returns, whatever other calls are doing. Where no move is made while another is still to be told of,
the whole bus is in order, and once all calls have returned the last status event shows the engine as
it is. -/
theorem status_events_follow_moves (h : Reachable m) :
    (∀ n, InOrder (own n m.log)) ∧
      (∀ n, Returned m n → (made (own n m.log)).map statusEvent = arrived (own n m.log)) ∧
      (Undivided m.log → InOrder m.log ∧ (Quiet m → Shown m)) := by
  refine ⟨fun n => inOrder_of_owed (own_events h n), fun n returned => ?_, fun hu => ?_⟩
  · rw [own_events h n, debt_of_returned h returned]
    rfl
  · obtain ⟨n, -, order⟩ := all_events h hu
    refine ⟨inOrder_of_owed order, fun quiet => shown_of_paid h ?_⟩
    rw [order, debt_of_returned h (quiet n)]
    rfl

/-- **A call that acts while no other owes anything divides nothing.** -/
theorem undivided_step {m' : System} (h : Reachable m) (hs : m.Step service n m')
    (others : ∀ k, k ≠ n → debt k m.log = none) (hu : Undivided m.log) :
    Undivided m'.log ∧ ∀ k, k ≠ n → debt k m'.log = none := by
  cases hs with
  | call c free => exact ⟨hu.silent rfl, others⟩
  | @answer c q next x asks allowed =>
      refine ⟨undivided_cons.mpr ⟨hu, fun s moved k => ?_⟩, fun k hk => ?_⟩
      · by_cases hk : k = n
        · -- the mover itself owes nothing, for it may move
          subst hk
          cases q with
          | transition t => exact paid_of_mayTell (Reachable.mayTell h asks)
          | _ => cases moved
        · exact others k hk
      · exact (if_neg hk.symm).trans (others k hk)

/-- So it may go on for as long as it likes. -/
theorem undivided_proceed (stops : EngineRequest → Bool) (c : Call) (h : Reachable m)
    (others : ∀ k, k ≠ n → debt k m.log = none) (hu : Undivided m.log) :
    Undivided (proceed stops n c m).log ∧
      ∀ k, k ≠ n → debt k (proceed stops n c m).log = none := by
  have kept : Reachable (proceed stops n c m) ∧ Undivided (proceed stops n c m).log ∧
      ∀ k, k ≠ n → debt k (proceed stops n c m).log = none :=
    proceed_keeps (P := fun m => Reachable m ∧ Undivided m.log ∧ ∀ k, k ≠ n → debt k m.log = none)
      (fun m m' hm hs => ⟨hm.1.step trivial hs, undivided_step hm.1 hs hm.2.2 hm.2.1⟩) stops c
      ⟨h, hu, others⟩
  exact kept.2

/-- Where a call has yet to tell of its status. -/
def awaitsBus : EngineRequest → Bool
  | .publish e => e.type = .statusChanged
  | _ => false

/-- A run that was paused and resumed at its click and has yet to tell that the click is done. -/
def resumedRun : System :=
  pausedRun |> proceed never 2 .resume |> proceed awaitsBus 0 (.start ⟨0⟩)

/-- The same run once it has ended. -/
def finishedRun : System := resumedRun |> proceed never 0 (.start ⟨0⟩)

/-- The pause and the resumption have returned and are told of while the run still owes an event; once
it has returned, too, the bus has seen the moves of all three calls in order. -/
theorem status_events_resumed :
    Reachable resumedRun ∧ ¬ Returned resumedRun 0 ∧ Returned resumedRun 1 ∧
      (made (own 1 resumedRun.log)).map statusEvent = arrived (own 1 resumedRun.log) ∧
      (made (own 1 resumedRun.log)).map (·.status) = [.paused] ∧
      (made (own 0 resumedRun.log)).length = (arrived (own 0 resumedRun.log)).length + 1 ∧
    Reachable finishedRun ∧ Undivided finishedRun.log ∧ Quiet finishedRun ∧
      (made finishedRun.log).map (fun s => (s.status, s.index)) =
        [(.idle, none), (.running, some 1), (.running, some 0), (.paused, some 0),
          (.running, some 0), (.running, some 0)] ∧
      (arrived finishedRun.log).length = 6 ∧ InOrder finishedRun.log ∧ Shown finishedRun := by
  have nobody {m : System} {n : Nat} (others : ∀ k, k ≠ n → debt k m.log = none)
      (owed : debt n m.log = none) (k : Nat) : debt k m.log = none := by
    by_cases hk : k = n
    · rw [hk, owed]
    · exact others k hk
  have h₀ : Reachable (Machine.initial Engine.initial) := .here
  have h₁ : Reachable clickBegun := h₀.proceed awaitsDevice 0 _
  have h₂ : Reachable pausedRun := h₁.proceed never 1 _
  have h₃ : Reachable (proceed never 2 .resume pausedRun) := h₂.proceed never 2 _
  have h₄ : Reachable resumedRun := h₃.proceed awaitsBus 0 _
  have h : Reachable finishedRun := h₄.proceed never 0 _
  -- whenever another call takes over, nobody owes anything
  obtain ⟨u₁, o₁⟩ := undivided_proceed awaitsDevice (.start ⟨0⟩) h₀ (n := 0) (fun _ _ => rfl)
    undivided_nil
  obtain ⟨u₂, o₂⟩ := undivided_proceed never .pause h₁ (n := 1) (fun k _ => nobody o₁ rfl k) u₁
  obtain ⟨u₃, o₃⟩ := undivided_proceed never .resume h₂ (n := 2) (fun k _ => nobody o₂ rfl k) u₂
  obtain ⟨u₄, o₄⟩ := undivided_proceed awaitsBus (.start ⟨0⟩) h₃ (n := 0)
    (fun k _ => nobody o₃ rfl k) u₃
  have undivided : Undivided finishedRun.log :=
    (undivided_proceed never (.start ⟨0⟩) h₄ (n := 0) o₄ u₄).1
  have returned : Returned resumedRun 1 := fun a ha => ⟨_, by cases ha; rfl⟩
  have under_way : ¬ Returned resumedRun 0 := fun done => by
    obtain ⟨r, hr⟩ := done _ rfl
    cases hr
  have quiet : Quiet finishedRun := by
    intro k a ha
    match k with
    | 0 => exact ⟨_, by cases ha; rfl⟩
    | 1 => exact ⟨_, by cases ha; rfl⟩
    | 2 => exact ⟨_, by cases ha; rfl⟩
    | k + 3 => cases ha
  obtain ⟨order, shown⟩ := (status_events_follow_moves h).2.2 undivided
  exact ⟨h₄, under_way, returned, (status_events_follow_moves h₄).2.1 1 returned, rfl, rfl, h,
    undivided, quiet, rfl, rfl, order, shown quiet⟩

end Order

/-! ## 4. A finish overtaken by a stop -/

section Overtaken

/-- Snapshots that differ in their error are told of by different events. -/
theorem lastError_of_statusEvent {s s' : EngineState} (h : statusEvent s = statusEvent s') :
    s.lastError = s'.lastError := by
  have data : s.toJson = s'.toJson := congrArg Event.data h
  cases hs : s.lastError <;> cases hs' : s'.lastError <;>
    simp [EngineState.toJson, Json.ofOption, hs, hs'] at data ⊢
  exact data.2.2.2.2.2.2

/-- Where a start has given the engine back and has yet to tell of it. -/
def tellsIdle : EngineRequest → Bool
  | .publish e => e.taskId.isNone
  | _ => false

/-- A run that has given the engine back and has yet to tell of it. -/
def givenBack : System :=
  Machine.initial Engine.initial |> proceed tellsIdle 0 (.start ⟨0⟩)

/-- An emergency stop has come and gone before it tells of that. -/
def overtaken : System :=
  givenBack |> proceed never 1 .emergencyStop |> proceed never 0 (.start ⟨0⟩)

/-- **A status event can be overtaken**: an emergency stop between a finish and the event that tells
of it leaves the bus out of order, and its last status event wrong, for good. -/
theorem status_event_overtaken : ∃ m : System, Reachable m ∧ Quiet m ∧
    ¬ (arrived m.log).Sublist ((made m.log).map statusEvent) ∧ ¬ Shown m := by
  have h : Reachable overtaken :=
    ((Reachable.proceed .here tellsIdle 0 _).proceed never 1 _).proceed never 0 _
  have quiet : Quiet overtaken := by
    intro k a ha
    match k with
    | 0 => exact ⟨_, by cases ha; rfl⟩
    | 1 => exact ⟨_, by cases ha; rfl⟩
    | k + 2 => cases ha
  have differ : statusEvent givenBack.state.state ≠ statusEvent overtaken.state.state := fun same =>
    nomatch lastError_of_statusEvent same
  refine ⟨overtaken, h, quiet, fun order => ?_, fun shown => differ shown⟩
  -- as many events as moves, but the last event tells of the last move but one
  have heads := congrArg List.head? (order.eq_of_length rfl)
  have last : some (statusEvent givenBack.state.state) =
    some (statusEvent overtaken.state.state) := heads
  exact differ (Option.some.inj last)

end Overtaken
end Engine
end TaskReplay
