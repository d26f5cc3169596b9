import TaskReplay.Proofs.Engine.Calls
import TaskReplay.Proofs.Run.Walk

/-!
# Calls keep to their order

Whatever stores, observers, devices and other calls do, a call on the engine asks only what is in
order where it stands:

* `run_follows` -- a run by itself: it begins a step only right after a look that saw no stop, and
  completes only the step it began last;
* `runEffect_follows` -- what a start asks in place of a run's question keeps to the order of starts;
* `program_follows` -- **every call keeps to its order** and, once it has returned, does not hold the
  engine.
-/

namespace TaskReplay.Engine

/-! ## 1. A run by itself -/

/-- The order of a run's own questions; the engine notes news down at once. -/
def runOrder : Protocol Request Request.Answer Hold := ⟨Hold.mayAsk, fun h q x => (h.ask q x).heed⟩

/-- A run of a task with `total` steps that stands at a stage. -/
structure Hold.At (total : Nat) (stage : Stage) (h : Hold) : Prop where
  total_eq : h.total = total
  stage_eq : h.stage = stage
  told_eq : h.told = none

section Run

variable {α : Type} {total i : Nat} {stage : Stage} {h : Hold} {st : Settings} {a : Action}

/-- A question without news about steps is in order. -/
theorem mayAsk_of_silent (h : Hold) {q : Request} (hq : q.stepNews? = none) : h.mayAsk q := by
  cases q with
  | tell news =>
      cases news with
      | step j t b m => cases hq
      | paused j => trivial
  | _ => trivial

/-- A question without news about steps leaves the stage. -/
theorem Hold.At.ask (ha : h.At total stage) {q : Request} (hq : q.stepNews? = none) (x : q.Answer) :
    ((h.ask q x).heed).At total stage := by
  obtain ⟨rfl, rfl, ht⟩ := ha
  cases q with
  | tell news =>
      cases news with
      | step j t b m => cases hq
      | paused j => exact ⟨rfl, rfl, rfl⟩
  | _ => exact ⟨rfl, by simp [Hold.ask, Hold.heed, ht], rfl⟩

/-- A program without news about steps leaves the stage. -/
theorem silent_follows {p : RunProg α} (hp : p.Asks fun q => q.stepNews? = none)
    (ha : h.At total stage) : p.Follows runOrder (fun _ h' => h'.At total stage) h :=
  hp.follows (fun h _ _ hq => mayAsk_of_silent h hq) (fun _ _ x hs hq => hs.ask hq x) ha

theorem made_follows {m : Script α} (hm : Script.Made m) (ha : h.At total stage) :
    m.run.Follows runOrder (fun _ h' => h'.At total stage) h :=
  silent_follows (hm.asks.mono fun _ hq => (Request.aside_of_inner hq).1) ha

theorem endStopped_follows (ha : h.At total stage) :
    (endStopped i).Follows runOrder (fun _ h' => h'.At total stage) h :=
  silent_follows ⟨rfl, fun _ => trivial⟩ ha

/-- A gate that lets a run pass has looked for a stop last, and saw none. -/
theorem gate_follows (ha : h.At total stage) :
    (gate i).Follows runOrder
      (fun stop h' => h'.At total stage ∧ (stop = false → h'.clear = true)) h := by
  refine ⟨trivial, fun x => ?_⟩
  refine (silent_follows ((holdBefore_asks i).mono fun _ hq => hq.1) (ha.ask rfl x)).bind
    fun _ h' ha' => ?_
  refine ⟨trivial, fun stop => ⟨ha'.ask rfl stop, ?_⟩⟩
  rintro rfl
  rfl

/-- What follows a step that has begun keeps to the order. -/
theorem closeStep_follows (hi : i < total) (ha : h.At total (.begun i))
    (x : Except StepError Unit) :
    (closeStep st total i a x).Follows runOrder
      (fun _ h' => ∃ stage', h'.At total stage') h := by
  have stopped (j : Nat) {stage : Stage} {h : Hold} (ha : h.At total stage) :
      (endStopped j >>= fun r => pure (some r)).Follows runOrder
        (fun _ h' => ∃ stage', h'.At total stage') h :=
    (endStopped_follows ha).bind fun _ _ ha' => ⟨_, ha'⟩
  cases x with
  | ok u =>
      refine ⟨⟨ha.stage_eq, by rw [ha.total_eq]; exact hi⟩, fun _ => ?_⟩
      have done : ((h.ask (.tell (.step i total a .completed)) ()).heed).At total (.completed i) :=
        ⟨ha.total_eq, rfl, rfl⟩
      refine (made_follows (recover_any st a) done).bind fun r h' ha' => ?_
      cases r with
      | ok u => exact ⟨_, ha'⟩
      | error e => exact stopped (i + 1) ha'
  | error e =>
      by_cases he : e = .interrupted
      · subst he
        exact stopped i ha
      · rw [closeStep.eq_3 st total i a e he]
        have failed (again : Bool) {h : Hold} (ha : h.At total (.begun i)) :
            ((h.ask (.tell (.step i total a (.failed e again))) ()).heed).At total (.begun i) :=
          ⟨ha.total_eq, ha.stage_eq, rfl⟩
        split
        · refine ⟨trivial, fun x => ⟨trivial, fun _ => ?_⟩⟩
          exact ⟨_, failed true (ha.ask (q := .log (.continuing i a.id e)) rfl x)⟩
        · refine ⟨trivial, fun _ => ⟨trivial, fun x => ?_⟩⟩
          exact ⟨_, (failed false ha).ask (q := .mark (.failure ⟨i, a.id, e⟩)) rfl x⟩

/-- **One step of the walk keeps to the order.** -/
theorem walkStep_follows (hi : i < total) (ha : h.At total stage) :
    (walkStep st total i a).Follows runOrder (fun _ h' => ∃ stage', h'.At total stage') h := by
  rw [walkStep_eq]
  refine (gate_follows ha).bind fun stop h' ⟨ha', clear⟩ => ?_
  cases stop with
  | true => exact (endStopped_follows ha').bind fun _ _ ha'' => ⟨_, ha''⟩
  | false =>
      refine ⟨⟨clear rfl, by rw [ha'.total_eq]; exact hi⟩, fun _ => ?_⟩
      have begun : ((h'.ask (.tell (.step i total a .started)) ()).heed).At total (.begun i) :=
        ⟨ha'.total_eq, rfl, rfl⟩
      exact (made_follows (perform_any st a) begun).bind fun r _ ha'' =>
        closeStep_follows hi ha'' r

theorem runFrom_follows {as : List Action} (hi : i + as.length = total) (ha : h.At total stage) :
    (runFrom st total i as).Follows runOrder (fun _ h' => ∃ stage', h'.At total stage') h := by
  induction as generalizing i stage h with
  | nil => exact ⟨trivial, fun x => ⟨_, ha.ask rfl x⟩⟩
  | cons a as ih =>
      rw [List.length_cons] at hi
      refine (walkStep_follows (by omega) ha).bind fun o h' ⟨stage', ha'⟩ => ?_
      cases o with
      | some r => exact ⟨_, ha'⟩
      | none => exact ih (by omega) ha'

/-- **A run keeps to the order.** -/
theorem run_follows {task : Task} (ha : h.At task.actions.length stage) :
    (task.run st).Follows runOrder (fun _ h' => h'.told = none) h := by
  refine ⟨trivial, fun x => ?_⟩
  exact (runFrom_follows (Nat.zero_add _) (ha.ask rfl x)).mono fun _ _ ⟨_, hs⟩ => hs.told_eq

end Run

/-! ## 2. What starts and commands have in common -/

theorem publish_asks (type : EventType) (task : Option TaskId) (data : Json) :
    (publish type task data).Asks fun q => q.tells = true := by
  refine ⟨rfl, fun x => ?_⟩
  cases x with
  | ok u => trivial
  | error e => exact ⟨rfl, fun _ => trivial⟩

theorem broadcast_asks (s : EngineState) : (broadcast s).Asks fun q => q.tells = true :=
  publish_asks _ _ _

theorem recordRun_asks (task : TaskId) (success : Bool) :
    (recordRun task success).Asks fun q => q.records = true := by
  refine ⟨rfl, fun x => ?_⟩
  cases x with
  | error e => exact ⟨rfl, fun _ => trivial⟩
  | ok found =>
      cases found with
      | none => exact ⟨rfl, fun _ => trivial⟩
      | some t =>
          refine ⟨rfl, fun now => ⟨rfl, fun saved => ?_⟩⟩
          cases saved with
          | ok u => trivial
          | error e => exact ⟨rfl, fun _ => trivial⟩

theorem accept_asks (task : TaskId) (t : Task) :
    (accept task t).run.Asks fun q => q.prepares = true := by
  unfold accept
  split
  · split
    · refine ⟨rfl, fun loaded => ?_⟩
      cases loaded with
      | ok s => trivial
      | error e => trivial
    · trivial
  · trivial

theorem prepare_asks (task : TaskId) : (prepare task).run.Asks fun q => q.prepares = true := by
  refine ⟨rfl, fun busy => ?_⟩
  cases busy with
  | true => trivial
  | false =>
      refine ⟨rfl, fun loaded => ?_⟩
      cases loaded with
      | error e => trivial
      | ok found =>
          cases found with
          | none => trivial
          | some t => exact accept_asks task t

theorem move_asks (t : Transition) :
    (move t).Asks fun q => q.tells = true ∨ q = .transition t := by
  refine ⟨.inr rfl, fun x => ?_⟩
  cases x with
  | none => trivial
  | some s => exact ((broadcast_asks s).mono fun _ => Or.inl).bind fun _ => trivial

theorem emergencyStop_asks :
    emergencyStop.Asks fun q => q.tells = true ∨ q = .transition .emergencyStop := by
  refine ⟨.inr rfl, fun x => ⟨.inl rfl, fun _ => ?_⟩⟩
  cases x with
  | none => trivial
  | some s => exact (broadcast_asks s).mono fun _ => Or.inl

/-- There is nothing to note down if nothing was told. -/
theorem heed_of_none {h : Hold} (ht : h.told = none) : h.heed = h := by
  obtain ⟨task, total, stage, told, clear⟩ := h
  obtain rfl : told = none := ht
  rfl

section Phases

variable {α : Type} {n : Nat} {task : TaskId} {h : Hold} {p : EngineProg α}

/-- A command stays outside. -/
theorem command_follows {t : Transition}
    (ht : ∀ x, Phase.step .outside (.transition t) x = .outside)
    (hp : p.Asks fun q => q.tells = true ∨ q = .transition t) :
    p.Follows ⟨commandMay t, Phase.step⟩ (fun _ φ => φ = .outside) .outside := by
  refine hp.follows (I := fun φ => φ = Phase.outside) ?_ ?_ rfl
  · rintro _ q rfl (hq | rfl)
    · cases q <;> trivial
    · rfl
  · rintro _ q x rfl (hq | rfl)
    · cases q <;> first | rfl | cases hq
    · exact ht x

/-- A start that prepares stays outside. -/
theorem prepare_follows (hp : p.Asks fun q => q.prepares = true) :
    p.Follows ⟨startMay n task, Phase.step⟩ (fun _ φ => φ = .outside) .outside := by
  refine hp.follows (I := fun φ => φ = Phase.outside) ?_ ?_ rfl
  · rintro _ q rfl hq
    cases q <;> trivial
  · rintro _ q x rfl hq
    cases q <;> first | rfl | cases hq

/-- A start that tells observers stands where it stood. -/
theorem tell_follows (hp : p.Asks fun q => q.tells = true) (ht : h.told = none)
    (hc : h.clear = false) :
    p.Follows ⟨startMay n task, Phase.step⟩ (fun _ φ => φ = .holding h) (.holding h) := by
  have same : { h with clear := false } = h := by rw [← hc]
  refine hp.follows (I := fun φ => φ = Phase.holding h) ?_ ?_ rfl
  · rintro _ q rfl hq
    cases q <;> first | exact ht | cases hq
  · rintro _ q x rfl hq
    cases q <;> first | exact congrArg Phase.holding same | cases hq

/-- A start that writes the record of its run still holds the engine. -/
theorem record_follows (hp : p.Asks fun q => q.records = true) (ht : h.told = none) :
    p.Follows ⟨startMay n task, Phase.step⟩
      (fun _ φ => ∃ h', φ = .holding h' ∧ h'.told = none) (.holding h) := by
  refine hp.follows (I := fun φ => ∃ h', φ = Phase.holding h' ∧ h'.told = none) ?_ ?_ ⟨h, rfl, ht⟩
  · rintro _ q ⟨h', rfl, ht'⟩ hq
    cases q <;> first | exact ht' | cases hq
  · rintro _ q x ⟨h', rfl, ht'⟩ hq
    cases q <;> first | exact ⟨_, rfl, ht'⟩ | cases hq

/-- A start that has given the engine back does not take it again. -/
theorem ended_follows (hp : p.Asks fun q => q.tells = true) :
    p.Follows ⟨startMay n task, Phase.step⟩ (fun _ φ => φ = .ended) .ended := by
  refine hp.follows (I := fun φ => φ = Phase.ended) ?_ ?_ rfl
  · rintro _ q rfl hq
    cases q <;> trivial
  · rintro _ q x rfl hq
    cases q <;> rfl

/-! ## 3. Starts -/

/-- The engine notes down the stage that was told, and tells observers. -/
theorem advance_follows {s : Stage} (hs : h.told = some s) (hc : h.clear = false) :
    (move (.advance s.index)).Follows ⟨startMay n task, Phase.step⟩
      (fun _ φ => φ = .holding h.heed) (.holding h) := by
  have same : { h.heed with clear := false } = h.heed := by rw [← hc]; rfl
  refine ⟨⟨s, hs, rfl⟩, fun x => ?_⟩
  show Prog.Follows _ _ _ (Phase.holding { h.heed with clear := false })
  rw [same]
  cases x with
  | none => exact rfl
  | some t =>
      have told : (broadcast t).Follows ⟨startMay n task, Phase.step⟩
          (fun _ φ => φ = .holding h.heed) (.holding h.heed) :=
        tell_follows (broadcast_asks t) rfl hc
      exact told.bind fun _ _ hφ => hφ

/-- **What a start asks in place of a run's question** keeps to the order, and comes out where the
run by itself does. -/
theorem runEffect_follows (q : Request) (ht : h.told = none) (hq : h.mayAsk q) :
    (runEffect n task q).Follows ⟨startMay n task, Phase.step⟩
      (fun x φ => φ = .holding (h.ask q x).heed) (.holding h) := by
  have silent {q : Request} (hq : h.mayAsk q) (hs : ∀ x, (h.ask q x).told = none) :
      (EngineRequest.ask (.run n q)).Follows ⟨startMay n task, Phase.step⟩
        (fun x φ => φ = .holding (h.ask q x).heed) (.holding h) := by
    refine ⟨⟨rfl, ht, hq⟩, fun x => ?_⟩
    show Phase.holding (h.ask q x) = Phase.holding (h.ask q x).heed
    rw [heed_of_none (hs x)]
  cases q with
  | tell news =>
      refine ⟨⟨rfl, ht, hq⟩, fun _ => ?_⟩
      cases news with
      | paused i => exact rfl
      | step i total a moment =>
          cases moment with
          | started =>
              exact (advance_follows (s := .begun i) rfl rfl).bind fun _ φ hφ => by
                subst hφ
                exact tell_follows (publish_asks _ _ _) rfl rfl
          | completed =>
              exact (advance_follows (s := .completed i) rfl rfl).bind fun _ φ hφ => by
                subst hφ
                exact tell_follows (publish_asks _ _ _) rfl rfl
          | failed e again => exact tell_follows (publish_asks _ _ _) rfl rfl
  | _ => exact silent hq fun x => ht

/-- Giving the engine back. -/
theorem finish_follows (r : RunResult) (ht : h.told = none) :
    (finish task r).Follows ⟨startMay n task, Phase.step⟩ (fun _ φ => φ = .ended) (.holding h) := by
  have moved : (move (.finish (errorOf r))).Follows ⟨startMay n task, Phase.step⟩
      (fun _ φ => φ = .ended) (.holding h) := by
    refine ⟨ht, fun x => ?_⟩
    cases x with
    | none => exact rfl
    | some s => exact (ended_follows (broadcast_asks s)).bind fun _ _ hφ => hφ
  refine moved.bind fun _ φ hφ => ?_
  subst hφ
  cases r with
  | ok outcome => exact ended_follows (publish_asks _ _ _)
  | error f => exact ⟨trivial, fun _ => ended_follows (publish_asks _ _ _)⟩

/-- A run in the engine keeps to the order of starts. -/
theorem runClaimed_follows {t : Task} {st : Settings} (ht : h.At t.actions.length .fresh) :
    (runClaimed n task t st).Follows ⟨startMay n task, Phase.step⟩ (fun _ φ => φ = .ended)
      (.holding h) := by
  have keeps : (t.run st).Follows runOrder (fun _ h' => h'.told = none) h := run_follows ht
  have effect (q : Request) (h : Hold) (φ : Phase) (hφ : φ = .holding h ∧ h.told = none)
      (hq : runOrder.may h q) : (runEffect n task q).Follows ⟨startMay n task, Phase.step⟩
        (fun x φ => φ = .holding (h.ask q x).heed ∧ (h.ask q x).heed.told = none) φ := by
    obtain ⟨rfl, hn⟩ := hφ
    exact (runEffect_follows q hn hq).mono fun x φ hφ => ⟨hφ, rfl⟩
  -- between two questions of the run nothing is left to note down
  have run := keeps.expand (fun (h : Hold) φ => φ = Phase.holding h ∧ h.told = none) effect
    ⟨rfl, ht.told_eq⟩
  refine run.bind fun r φ ⟨h', hn, hφ, _⟩ => ?_
  subst hφ
  refine (record_follows (recordRun_asks task r.isOk) hn).bind fun _ φ ⟨h'', hφ, hn'⟩ => ?_
  subst hφ
  exact (finish_follows r hn').bind fun _ _ hφ => hφ

/-- **A start keeps to its order** and returns without holding the engine. -/
theorem start_follows :
    (start n task).Follows ⟨startMay n task, Phase.step⟩ (fun _ φ => ∀ h, φ ≠ .holding h)
      .outside := by
  refine (prepare_follows (prepare_asks task)).bind fun r φ hφ => ?_
  subst hφ
  cases r with
  | error e => exact nofun
  | ok loaded =>
      obtain ⟨t, st⟩ := loaded
      refine ⟨trivial, fun now => ⟨⟨rfl, rfl⟩, fun x => ?_⟩⟩
      cases x with
      | none => exact nofun
      | some s =>
          have told : (broadcast s).Follows ⟨startMay n task, Phase.step⟩
              (fun _ φ => φ = .holding (.begin task t.actions.length))
              (.holding (.begin task t.actions.length)) := tell_follows (broadcast_asks s) rfl rfl
          refine told.bind fun _ φ hφ => ?_
          subst hφ
          exact (runClaimed_follows ⟨rfl, rfl, rfl⟩).bind fun _ φ hφ => by subst hφ; exact nofun

end Phases

/-! ## 4. All calls -/

/-- **Every call keeps to its order**, whatever the answers, and returns without holding the
engine. -/
theorem program_follows (n : Nat) (c : Call) :
    (c.program n).Follows ⟨c.may n, Phase.step⟩ (fun _ φ => ∀ h, φ ≠ .holding h) .outside := by
  have command {β : Type} {t : Transition} {p : EngineProg β} {f : β → Reply}
      (ht : ∀ x, Phase.step .outside (.transition t) x = .outside)
      (hp : p.Asks fun q => q.tells = true ∨ q = .transition t) :
      (p.bind fun b => .done (f b)).Follows ⟨commandMay t, Phase.step⟩
        (fun _ φ => ∀ h, φ ≠ .holding h) .outside :=
    (command_follows ht hp).bind fun _ φ hφ => by subst hφ; exact nofun
  cases c with
  | start task => exact start_follows.bind fun _ _ hφ => hφ
  | pause => exact command (fun _ => rfl) (move_asks .pause)
  | resume => exact command (fun _ => rfl) (move_asks .resume)
  | stop => exact command (fun _ => rfl) (move_asks .stop)
  | emergencyStop => exact command (fun _ => rfl) emergencyStop_asks

end TaskReplay.Engine
