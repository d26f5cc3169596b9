import TaskReplay.Proofs.Run.Walk
import TaskReplay.Proofs.Task.Validation

/-!
# What the validity of a task is good for

Steps are looked at twice: once before a task is accepted, and again when they are done. The two looks
agree. While devices and screen do not themselves answer that a task is faulty, of an accepted task:

* `Request.Fit` -- searches are for named templates, with confidences between 0 and 1, and no step and
  no run fails for a fault of the task;
* `each_fits` -- a complete step asks and fails like that, so do scripts, steps and walks (`made_fits`,
  `step_fits`, `from_fits`);
* `Action.filled`, `execute_filled` -- a step that lacks a number does what it would do with zero;
* `valid_run_fits` -- **any run of an accepted task** goes like that, and does the same whatever number
  were taken in place of a missing one.
-/

namespace TaskReplay

open Script Text

/-! ## 1. Fit requests -/

/-- A step that failed for a fault of the task. -/
def StepError.OfTask (e : StepError) : Prop := ∃ ps, e = .dispatch (.validation ps)

/-- Devices and screen answer anything but that the task is faulty. -/
def Request.Honest : (q : Request) → q.Answer → Prop
  | .device _, x => ∀ ps, x ≠ .error (.validation ps)
  | .search _ _ _, x => ∀ ps, x ≠ .error (.validation ps)
  | _, _ => True

/-- **Requests that show no fault of a task**: searches are for named templates with proper confidences,
and nothing is told or noted to have failed for a fault of the task. -/
def Request.Fit (s : Settings) : Request → Prop
  | .search template confidence _ =>
    Filled template ∧ (0 ≤ s.confidence ∧ s.confidence ≤ 1 → 0 ≤ confidence ∧ confidence ≤ 1)
  | .tell (.step _ _ _ (.failed e _)) => ¬ e.OfTask
  | .mark (.failure f) => ¬ f.cause.OfTask
  | _ => True

section Scripts

variable {α : Type} {s : Settings}

/-- A script that did not fail for a fault of the task. -/
def Sound (r : Except StepError α) : Prop := ∀ e, r = .error e → ¬ e.OfTask

theorem sound_ok (a : α) : Sound (.ok a) := nofun

theorem sound_error {e : StepError} (h : ¬ e.OfTask) : Sound (.error e : Except StepError α) := by
  rintro _ ⟨⟩
  exact h

theorem sound_answer {x : Except Failure α} (h : ∀ ps, x ≠ .error (.validation ps)) :
    Sound (x.mapError StepError.dispatch) := by
  cases x with
  | ok a => exact sound_ok a
  | error f =>
      refine sound_error ?_
      rintro ⟨ps, same⟩
      exact h ps (by rw [StepError.dispatch.inj same])

/-- **Scripts** made of fit requests, that fail for no fault of the task themselves. -/
theorem made_fits {m : Script α} (h : MadeOf (Request.Fit s) (¬ ·.OfTask) m) :
    m.run.Relies Request.Honest (Request.Fit s) Sound := by
  induction h with
  | pure a => exact sound_ok a
  | throw e other own => exact sound_error own
  | ask q plain may => exact ⟨may, fun x _ => sound_ok x⟩
  | device call may =>
      rw [run_device]
      exact ⟨may, fun x honest => sound_answer honest⟩
  | search template confidence area may =>
      rw [run_search]
      exact ⟨may, fun x honest => sound_answer honest⟩
  | sleep ms =>
      rw [run_sleep]
      refine ⟨trivial, fun full _ => ?_⟩
      cases full with
      | true => exact sound_ok ()
      | false => exact sound_error nofun
  | boundary =>
      rw [run_boundary]
      refine ⟨trivial, fun _ _ => ⟨trivial, fun stop _ => ?_⟩⟩
      cases stop with
      | true => exact sound_error nofun
      | false => exact sound_ok ()
  | bind hm hf ihm ihf =>
      rw [run_bind]
      refine ihm.bind fun r sound => ?_
      cases r with
      | ok a => exact ihf a
      | error e => exact sound_error (sound e rfl)

end Scripts

/-! ## 2. Complete steps -/

section Steps

variable {s : Settings} {id : String} {q : Request} {e : StepError}

/-- A search that names no confidence. -/
theorem fit_search {template : String} (filled : Filled template) (area : Option Region) :
    (Request.search template s.confidence area).Fit s := ⟨filled, fun proper => proper⟩

/-- A search that may name one. -/
theorem fit_search_own {template : String} {confidence : Option Float32} (filled : Filled template)
    (proper : Confident confidence) (area : Option Region) :
    (Request.search template (confidence.getD s.confidence) area).Fit s := by
  cases confidence with
  | none => exact fit_search filled area
  | some c => exact ⟨filled, fun _ => proper c rfl⟩

theorem ClickTarget.Complete.fits {t : ClickTarget} (h : t.Complete) (may : t.May s q) : q.Fit s := by
  cases t with
  | coordinates x y => cases may
  | image template =>
      obtain rfl := may
      exact fit_search h _
  | stored name =>
      obtain rfl := may
      trivial

theorem ClickTarget.Fails.sound {t : ClickTarget} (h : t.Fails e) : ¬ e.OfTask := by
  rintro ⟨ps, rfl⟩
  cases t <;> cases h

theorem Deed.Complete.fits {d : Deed} (h : d.Complete) (may : d.May s q) : q.Fit s := by
  cases d with
  | click kind place =>
      obtain may | ⟨n, rfl⟩ | ⟨p, rfl⟩ := may
      · exact ClickTarget.Complete.fits h may
      · trivial
      · trivial
  | typeText text keyDelay =>
      obtain rfl := may
      trivial
  | pressKey name =>
      obtain ⟨key, -, rfl⟩ := may
      trivial
  | hotkey names =>
      obtain ⟨name, -, rfl⟩ | rfl | ⟨key, rfl | rfl⟩ := may <;> trivial
  | wait duration variation =>
      obtain ⟨n, rfl⟩ := may
      trivial
  | findImage template confidence region storeInto =>
      obtain rfl | ⟨name, v, -, rfl⟩ := may
      · exact fit_search_own h.1 h.2 _
      · trivial
  | waitForImage template timeout confidence disappear storeInto =>
      obtain rfl | rfl | ⟨name, v, -, rfl⟩ := may
      · exact fit_search_own h.1 h.2.2 _
      · trivial
      · trivial

theorem Deed.Fails.sound {d : Deed} (h : d.Fails e) : ¬ e.OfTask := by
  cases d with
  | click kind place => exact ClickTarget.Fails.sound h
  | _ =>
      rintro ⟨ps, rfl⟩
      cases h

/-- A given text is what the step looks at, so it is not missing. -/
theorem Given.ne_none {o : Option String} (h : Given o) : o ≠ none := by
  obtain ⟨text, rfl, -⟩ := h
  nofun

theorem Given.filled {o : Option String} (h : Given o) {text : String} (same : o = some text) :
    Filled text := by
  obtain ⟨_, rfl, filled⟩ := h
  obtain rfl := Option.some.inj same
  exact filled

theorem Test.Complete.fits {t : Test} (h : t.Complete) (may : t.May s q) : q.Fit s := by
  obtain ⟨predicate, template, name, expected⟩ := t
  cases predicate with
  | variableEquals =>
      obtain ⟨_, -, rfl⟩ := may
      trivial
  | _ =>
      obtain ⟨_, same, rfl⟩ := may
      exact fit_search (Given.filled h same) _

/-- **A complete test lacks nothing that it looks at.** -/
theorem Test.Complete.sound {t : Test} (h : t.Complete) (fails : t.Fails id e) : ¬ e.OfTask := by
  obtain ⟨predicate, template, name, expected⟩ := t
  cases predicate with
  | variableEquals =>
      obtain ⟨given, text, rfl⟩ := h
      rcases fails with ⟨missing, -⟩ | ⟨⟨⟩, -⟩
      exact absurd missing given.ne_none
  | _ => exact absurd fails.1 (Given.ne_none h)

theorem LoopRule.Complete.fits {r : LoopRule} (h : r.Complete) (may : r.May s id q) : q.Fit s := by
  obtain ⟨kind, count, template, rounds⟩ := r
  rcases may with rfl | may
  · trivial
  · cases kind with
    | count | infinite => cases may
    | _ =>
        obtain ⟨_, same, rfl⟩ := may
        exact fit_search (Given.filled h.1 same) _

/-- **A complete rule lacks nothing that its kind looks at.** -/
theorem LoopRule.Complete.sound {r : LoopRule} (h : r.Complete) (fails : r.Fails id e) :
    ¬ e.OfTask := by
  obtain ⟨kind, count, template, rounds⟩ := r
  cases kind with
  | count | infinite => cases fails
  | _ => exact absurd fails.1 (Given.ne_none h.1)

/-- **Complete steps** ask and fail as they should. -/
theorem each_fits {as : List Action} (complete : ∀ a ∈ as, a.Complete) :
    EachMade s (Request.Fit s) (¬ ·.OfTask) as := by
  intro a ha
  have own := complete a ha
  cases a with
  | simple header d => exact ⟨fun _ => Deed.Complete.fits own, fun _ => Deed.Fails.sound⟩
  | condition header t x y => exact ⟨fun _ => Test.Complete.fits own, fun _ => Test.Complete.sound own⟩
  | loop header r body =>
      exact ⟨fun _ => LoopRule.Complete.fits own, fun _ => LoopRule.Complete.sound own⟩

end Steps

/-! ## 3. Runs -/

section Runs

variable {s : Settings} {total i : Nat} {a : Action} {as : List Action}

/-- A run that did not fail for a fault of the task. -/
def Unblamed (r : RunResult) : Prop := ∀ f, r = .error f → ¬ f.cause.OfTask

theorem unblamed_ok (o : RunOutcome) : Unblamed (.ok o) := nofun

/-- A step asks fit requests, and if the run ends with it, then not for a fault of the task. -/
abbrev StepFits (s : Settings) (p : RunProg (Option RunResult)) : Prop :=
  p.Relies Request.Honest (Request.Fit s) fun o => ∀ r, o = some r → Unblamed r

theorem endStopped_fits :
    StepFits s ((endStopped i).bind fun r => .done (some r)) := by
  refine ⟨trivial, fun _ _ => ?_⟩
  rintro _ ⟨⟩
  exact unblamed_ok _

theorem closeStep_fits {x : Except StepError Unit} (hx : Sound x) :
    StepFits s (closeStep s total i a x) := by
  cases x with
  | ok u =>
      have pause := made_fits (s := s) (recover_made s a fun _ => trivial)
      refine ⟨trivial, fun _ _ => Prog.Relies.bind (p := (a.recover s).run) pause fun r _ => ?_⟩
      cases r with
      | ok u => exact nofun
      | error e => exact endStopped_fits
  | error e =>
      have fault := hx e rfl
      by_cases he : e = .interrupted
      · subst he
        exact endStopped_fits
      · rw [closeStep.eq_3 s total i a e he]
        split
        · exact ⟨trivial, fun _ _ => ⟨fault, fun _ _ => nofun⟩⟩
        · refine ⟨fault, fun _ _ => ⟨fault, fun _ _ => ?_⟩⟩
          rintro _ ⟨⟩ _ ⟨⟩
          exact fault

theorem gate_fits (i : Nat) :
    (gate i).Relies Request.Honest (Request.Fit s) fun _ => True := by
  refine ⟨trivial, fun _ _ => ⟨trivial, fun pending _ => ?_⟩⟩
  cases pending with
  | false => exact ⟨trivial, fun _ _ => trivial⟩
  | true =>
      exact ⟨trivial, fun _ _ => ⟨trivial, fun _ _ => ⟨trivial, fun _ _ => ⟨trivial, fun _ _ =>
        ⟨trivial, fun _ _ => trivial⟩⟩⟩⟩⟩

/-- One step of the walk. -/
theorem step_fits (complete : ∀ b ∈ a.walk, b.Complete) : StepFits s (walkStep s total i a) := by
  rw [walkStep_eq]
  refine (gate_fits i).bind fun stop _ => ?_
  cases stop with
  | true => exact endStopped_fits
  | false =>
      refine ⟨trivial, fun _ _ => ?_⟩
      exact (made_fits (perform_made s a (each_fits complete))).bind fun x => closeStep_fits

theorem from_fits (complete : ∀ b ∈ Action.walkAll as, b.Complete) :
    (runFrom s total i as).Relies Request.Honest (Request.Fit s) Unblamed := by
  induction as generalizing i with
  | nil => exact ⟨trivial, fun _ _ => unblamed_ok _⟩
  | cons a as ih =>
      have first : StepFits s (walkStep s total i a) :=
        step_fits fun b hb => complete b (List.mem_append_left _ hb)
      refine first.bind fun o ends => ?_
      cases o with
      | some r => exact ends r rfl
      | none => exact ih fun b hb => complete b (List.mem_append_right _ hb)

theorem run_fits {t : Task} (complete : ∀ b ∈ t.walk, b.Complete) :
    (t.run s).Relies Request.Honest (Request.Fit s) Unblamed :=
  ⟨trivial, fun _ _ => from_fits complete⟩

/-- **What a program relies on holds of its plays**, ended or under way. -/
theorem PlaysOn.relies {α : Type} {H : (q : Request) → q.Answer → Prop} {P : Request → Prop}
    {post : α → Prop} {p p' : RunProg α} {x y : Scene} {log : List Turn} (h : PlaysOn p x log p' y)
    (hp : p.Relies H P post) (honest : ∀ u ∈ log, H u.request u.answer) :
    (∀ u ∈ log, P u.request) ∧ p'.Relies H P post := by
  induction h with
  | here p x => exact ⟨List.forall_mem_nil _, hp⟩
  | turn ws x others allowed _ ih =>
      obtain ⟨now, later⟩ := List.forall_mem_cons.mp honest
      obtain ⟨asked, left⟩ := ih (hp.2 x now) later
      exact ⟨List.forall_mem_cons.mpr ⟨hp.1, asked⟩, left⟩

end Runs

/-! ## 4. Missing numbers -/

/-- Numbers to take where a wait has no duration, a wait for an image no timeout, or a loop that counts
no count. -/
structure Fallbacks where
  duration : UInt64
  timeout : UInt64
  rounds : UInt32

/-- Zeros. -/
def Fallbacks.zero : Fallbacks := ⟨0, 0, 0⟩

/-- The same with no number missing. -/
def Deed.filled (f : Fallbacks) : Deed → Deed
  | .wait duration variation => .wait (some (duration.getD f.duration)) variation
  | .waitForImage template timeout confidence disappear storeInto =>
    .waitForImage template (some (timeout.getD f.timeout)) confidence disappear storeInto
  | d => d

/-- The same with no number missing. -/
def LoopRule.filled (f : Fallbacks) (r : LoopRule) : LoopRule :=
  match r.kind with
  | .count => { r with count := some (r.count.getD f.rounds) }
  | _ => r

mutual

/-- The same with no number missing in it or its inner steps. -/
def Action.filled (f : Fallbacks) : Action → Action
  | .simple h d => .simple h (d.filled f)
  | .condition h t a b => .condition h t (Action.filledAll f a) (Action.filledAll f b)
  | .loop h r body => .loop h (r.filled f) (Action.filledAll f body)

/-- The same with no number missing in the sequence. -/
def Action.filledAll (f : Fallbacks) : List Action → List Action
  | [] => []
  | a :: rest => a.filled f :: Action.filledAll f rest

end

/-- The same with no number missing in its steps. -/
def Task.filled (f : Fallbacks) (t : Task) : Task := { t with actions := Action.filledAll f t.actions }

section Filled

variable {f : Fallbacks} (s : Settings)

theorem Deed.execute_filled (d : Deed) : (d.filled .zero).execute s = d.execute s := by
  cases d with
  | wait duration variation => cases duration <;> rfl
  | waitForImage template timeout confidence disappear storeInto => cases timeout <;> rfl
  | _ => rfl

theorem LoopRule.iterate_filled (r : LoopRule) (id : String) (body : Script Unit) (left done : Nat) :
    (r.filled .zero).iterate s id body left done = r.iterate s id body left done := by
  obtain ⟨kind, count, template, rounds⟩ := r
  cases kind with
  | count =>
      induction left generalizing done with
      | zero => cases count <;> rfl
      | succ left ih =>
          simp only [LoopRule.iterate, ih]
          cases count <;> rfl
  | _ => rfl

theorem LoopRule.limit_filled (r : LoopRule) : (r.filled f).limit = r.limit := by
  obtain ⟨kind, count, template, rounds⟩ := r
  cases kind <;> rfl

@[simp] theorem Action.header_filled (a : Action) : (a.filled f).header = a.header := by
  cases a <;> rfl

mutual

/-- **A missing number counts as zero.** -/
theorem execute_filled : (a : Action) → (a.filled .zero).execute s = a.execute s
  | .simple h d => d.execute_filled s
  | .condition h t a b => by
      simp only [Action.filled, Action.execute, executeAll_filled a, executeAll_filled b]
  | .loop h r body => by
      simp only [Action.filled, Action.execute, executeAll_filled body, LoopRule.iterate_filled,
        LoopRule.limit_filled]

theorem executeAll_filled : (as : List Action) →
    executeAll s (Action.filledAll .zero as) = executeAll s as
  | [] => rfl
  | a :: rest => by
      simp only [Action.filledAll, executeAll, Action.header_filled, execute_filled a,
        executeAll_filled rest]

end

theorem Deed.Complete.filled {d : Deed} (h : d.Complete) : d.filled f = d := by
  cases d with
  | wait duration variation =>
      obtain ⟨ms, rfl⟩ := h
      rfl
  | waitForImage template timeout confidence disappear storeInto =>
      obtain ⟨-, ⟨ms, rfl⟩, -⟩ := h
      rfl
  | _ => rfl

theorem LoopRule.Complete.filled {r : LoopRule} (h : r.Complete) : r.filled f = r := by
  obtain ⟨kind, count, template, rounds⟩ := r
  cases kind with
  | count =>
      obtain ⟨⟨n, rfl⟩, -⟩ := h
      rfl
  | _ => rfl

mutual

/-- **A complete step misses no number.** -/
theorem filled_of_complete : (a : Action) → (∀ b ∈ a.walk, b.Complete) → a.filled f = a
  | .simple h d, complete => by
      have own : d.Complete := complete _ List.mem_cons_self
      rw [Action.filled, own.filled]
  | .condition h t a b, complete => by
      have inner c (hc : c ∈ Action.walkAll a ++ Action.walkAll b) := complete c (.tail _ hc)
      rw [Action.filled, filledAll_of_complete a fun c hc => inner c (List.mem_append_left _ hc),
        filledAll_of_complete b fun c hc => inner c (List.mem_append_right _ hc)]
  | .loop h r body, complete => by
      have own : r.Complete := complete _ List.mem_cons_self
      rw [Action.filled, own.filled, filledAll_of_complete body fun c hc => complete c (.tail _ hc)]

theorem filledAll_of_complete : (as : List Action) → (∀ b ∈ Action.walkAll as, b.Complete) →
    Action.filledAll f as = as
  | [], _ => rfl
  | a :: rest, complete => by
      rw [Action.filledAll, filled_of_complete a fun b hb => complete b (List.mem_append_left _ hb),
        filledAll_of_complete rest fun b hb => complete b (List.mem_append_right _ hb)]

end

end Filled

/-! ## 5. Accepted tasks -/

/-- Every step of an accepted task is complete. -/
theorem Task.complete_of_validate {t : Task} (accepted : t.validate = .ok ()) :
    ∀ a ∈ t.walk, a.Complete := by
  have valid := t.problems_eq_nil_iff.mp (t.validate_eq_ok_iff.mp accepted)
  intro a ha
  obtain ⟨π, place⟩ := ((walk_inOrder t).mem_iff a).mp ha
  exact valid.complete π a place

/-- **Runs of an accepted task**, whatever is wished and whatever the variables are. As long as devices
and screen do not answer that the task is faulty, searches are for named templates with proper
confidences, no step fails for a fault of the task, and so does no run; nor does any step of the tree,
done by itself. And a run does the same whatever numbers are taken where some are missing. -/
theorem valid_run_fits {t : Task} (accepted : t.validate = .ok ()) (s : Settings) :
    (∀ (x y : Scene) (log : List Turn) (p : RunProg RunResult), PlaysOn (t.run s) x log p y →
      (∀ u ∈ log, u.request.Honest u.answer) →
        (∀ u ∈ log, u.request.Fit s) ∧ ∀ f, p = .done (.error f) → ¬ f.cause.OfTask) ∧
    (∀ a ∈ t.walk, ∀ (x y : Scene) (log : List Turn) (e : StepError),
      Plays (a.execute s).run x log (.error e) y → (∀ u ∈ log, u.request.Honest u.answer) →
        (∀ u ∈ log, u.request.Fit s) ∧ ¬ e.OfTask) ∧
    ∀ f : Fallbacks, (t.filled f).run s = t.run s := by
  have complete := Task.complete_of_validate accepted
  refine ⟨fun x y log p h honest => ?_, fun a ha x y log e h honest => ?_, fun f => ?_⟩
  · obtain ⟨fit, left⟩ := h.relies (run_fits complete) honest
    refine ⟨fit, ?_⟩
    rintro f rfl
    exact left f rfl
  · have inner : ∀ b ∈ a.walk, b.Complete := fun b hb => complete b (walkAll_subset _ ha hb)
    obtain ⟨fit, left⟩ := h.playsOn.relies (made_fits (execute_made s a (each_fits inner))) honest
    exact ⟨fit, left e rfl⟩
  · rw [Task.filled, filledAll_of_complete t.actions complete]

/-- Waits as long as a template is there. -/
def waitWhile : Action :=
  .loop (.named "a") ⟨.whileImageVisible, none, some "x", none⟩ [.simple (.named "b") (.wait (some 5) 0)]

/-- What a run of `waitWhile` notes down when the screen is gone. -/
def screenGone : RunFailure := ⟨0, "a", .dispatch (.device "gone")⟩

/-- The run of `waitWhile` alone; the screen is gone after one round. -/
def goneScreen : List Turn :=
  [⟨.mark (.status .running), [], ()⟩, ⟨.mark (.index 0), [], ()⟩, ⟨.pausePending, [], false⟩,
   ⟨.stopped, [], false⟩, ⟨.tell (.step 0 1 waitWhile .started), [], ()⟩,
   ⟨.awaitResume, [], false⟩, ⟨.stopped, [], false⟩,
   ⟨.search "x" Settings.initial.confidence none, [], .ok ⟨true, none, none, none⟩⟩,
   ⟨.sleep 5, [], true⟩, ⟨.awaitResume, [], false⟩, ⟨.stopped, [], false⟩,
   ⟨.search "x" Settings.initial.confidence none, [], .error (.device "gone")⟩,
   ⟨.tell (.step 0 1 waitWhile (.failed screenGone.cause false)), [], ()⟩,
   ⟨.mark (.failure screenGone), [], ()⟩]

/-- A run that fails because the screen is gone, and no run for a fault of the task. -/
theorem valid_run_fits_gone :
    (Task.ofActions [waitWhile]).validate = .ok () ∧
      (∃ y, PlaysOn ((Task.ofActions [waitWhile]).run .initial) ⟨.fresh, .fresh⟩ goneScreen
        (.done (.error screenGone)) y) ∧
      (∀ u ∈ goneScreen, u.request.Honest u.answer) ∧
      (∀ u ∈ goneScreen, u.request.Fit .initial) ∧ ¬ screenGone.cause.OfTask := by
  have accepted : (Task.ofActions [waitWhile]).validate = .ok () := by rfl
  have play : Plays ((Task.ofActions [waitWhile]).run .initial) ⟨.fresh, .fresh⟩ goneScreen
      (.error screenGone)
      ⟨.fresh, { Context.fresh with status := .failed, error := some screenGone.message }⟩ := by
    iterate 14 refine Plays.turn _ _ (by simp [Scene.waits]) (by trivial) ?_
    exact .done _ _
  have honest : ∀ u ∈ goneScreen, u.request.Honest u.answer := by simp [goneScreen, Request.Honest]
  obtain ⟨fit, sound⟩ := (valid_run_fits accepted .initial).1 _ _ _ _ play.playsOn honest
  exact ⟨accepted, ⟨_, play.playsOn⟩, honest, fit, sound screenGone rfl⟩

end TaskReplay
