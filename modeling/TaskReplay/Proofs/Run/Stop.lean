import TaskReplay.Proofs.Run.Walk

/-!
# How a run ends once a stop was wished

A stop is looked for before every step, in a step's own waits and in the pause after a step that did
not fail. Nobody looks for it after the last step if that step failed and the run goes on, nor in a
task without steps:

* `WalkCourse.completed_iff` -- with a stop wished, exactly these two walks are completed;
* `WalkCourse.failure` -- a run that fails was told last that its step began and failed;
* `past_stop_completed_iff` -- the same for whole runs, with what the run notes as its status, and
  that a failure is one of the step that was under way when the stop came.
-/

namespace TaskReplay

/-! ## 1. Ends of a walk -/

section Walk

variable {i : Nat} {as : List Action} {s t : Scene} {news : List (Nat × Moment)} {r : RunResult}

/-- What the run notes as its status is `completed` exactly if that is its result. -/
theorem WalkCourse.status_iff (h : WalkCourse i as s news r t) :
    t.context.status = .completed ↔ r = .ok .completed := by
  induction h with
  | completed _ status _ => simp [status]
  | ends step => cases step <;> simp_all
  | goesOn _ _ ih => exact ih

/-- A walk without a step left changes no wishes. -/
theorem WalkCourse.control_of_nil (h : WalkCourse i [] s news r t) :
    news = [] ∧ r = .ok .completed ∧ t.control = s.control := by
  cases h with
  | completed same _ _ => exact ⟨rfl, rfl, same⟩

/-- **Completed past a stop**: with a stop wished, a walk is completed exactly if it has no step, or
if what was told last is that its last step failed and the run goes on. -/
theorem WalkCourse.completed_iff (h : WalkCourse i as s news r t) (hs : t.control.stopped = true) :
    r = .ok .completed ↔ as = [] ∨ ∃ a e, as.getLast? = some a ∧
      a.header.continueOnError = true ∧ news.getLast? = some (i + as.length - 1, .failed e true) := by
  induction h with
  | completed _ _ _ => simp
  | ends step => cases step <;> simp
  | @goesOn i a as s t u news more r step walk ih =>
      -- whether this step is the last one decides whose news come last
      cases as with
      | nil =>
          obtain ⟨rfl, rfl, same⟩ := walk.control_of_nil
          rw [same] at hs
          cases step with
          | completed unstopped _ => rw [unstopped] at hs; cases hs
          | continued e may _ => simp [may]
      | cons b as =>
          have index : i + 1 + (b :: as).length - 1 = i + (a :: b :: as).length - 1 := by
            simp only [List.length_cons]
            omega
          rw [ih hs, index]
          cases hm : more with
          | nil =>
              -- the last news is about step `i`, which is not the last step
              cases step <;> simp
          | cons x more => simp [List.getLast?_append, List.getLast?_cons]

/-- **A run that fails** was told last that its step began and failed. -/
theorem WalkCourse.failure {f : RunFailure} (h : WalkCourse i as s news (.error f) t) :
    ∃ earlier, news = earlier ++ [(f.index, .started), (f.index, .failed f.cause false)] := by
  generalize hr : (Except.error f : RunResult) = r at h
  induction h with
  | completed _ _ _ => cases hr
  | ends step =>
      cases step <;> cases hr
      exact ⟨[], rfl⟩
  | goesOn _ _ ih =>
      obtain ⟨earlier, rfl⟩ := ih hr
      exact ⟨_, (List.append_assoc ..).symm⟩

end Walk

/-! ## 2. Ends of a run -/

/-- Where in a log something was told of a step. -/
theorem told_eq_append_cons {log : List Turn} {earlier later : List (Nat × Moment)}
    {x : Nat × Moment} (h : told log = earlier ++ x :: later) :
    ∃ before u after, log = before ++ u :: after ∧ u.request.stepNews? = some x ∧
      told after = later := by
  obtain ⟨l₁, l₂, rfl, -, hl⟩ := List.filterMap_eq_append_iff.mp h
  obtain ⟨mid, u, after, rfl, -, hu, ha⟩ := List.filterMap_eq_cons_iff.mp hl
  exact ⟨l₁ ++ mid, u, after, (List.append_assoc ..).symm, hu, ha⟩

/-- **A run in which a stop was wished**, before it or at any time while it waited: it is completed
exactly if it has no step, or if its last step failed and the run goes on; its status says the same;
and if it fails, then at a step that had begun when no stop was wished yet. -/
theorem past_stop_completed_iff {st : Settings} {task : Task} {s t : Scene} {log : List Turn}
    {r : RunResult} (h : Plays (task.run st) s log r t) (hs : StopWished s log) :
    (r = .ok .completed ↔ task.actions = [] ∨ ∃ a e, task.actions.getLast? = some a ∧
        a.header.continueOnError = true ∧
        (told log).getLast? = some (task.actions.length - 1, .failed e true)) ∧
      (t.context.status = .completed ↔ r = .ok .completed) ∧
      ∀ f, r = .error f → ∃ before u after, log = before ++ u :: after ∧ ¬ StopWished s before ∧
        u.request.stepNews? = some (f.index, .started) ∧
        told after = [(f.index, .failed f.cause false)] := by
  obtain ⟨u, -, -, walk, starts⟩ := plays_run h
  refine ⟨?_, walk.status_iff, ?_⟩
  · have ends := walk.completed_iff (h.stopped_iff.mpr hs)
    rwa [Nat.zero_add] at ends
  · rintro f rfl
    obtain ⟨earlier, hf⟩ := walk.failure
    obtain ⟨before, v, after, hlog, hv, ha⟩ := told_eq_append_cons hf
    exact ⟨before, v, after, hlog, starts before v after hlog ⟨_, hv⟩, hv, ha⟩

/-- A click on a template; the run goes on if it is not found. -/
def optionalClick : Action :=
  .simple { Header.named "a" with continueOnError := true } (.click .single (.on (.image "x")))

/-- Nothing is wished, and the run has not begun. -/
def Scene.calm : Scene := ⟨⟨false, false⟩, .fresh⟩

/-- The run of `optionalClick` alone, stopped while it searches in vain. -/
def stoppedSearch : List Turn :=
  [⟨.mark (.status .running), [], ()⟩, ⟨.mark (.index 0), [], ()⟩, ⟨.pausePending, [], false⟩,
   ⟨.stopped, [], false⟩, ⟨.tell (.step 0 1 optionalClick .started), [], ()⟩,
   ⟨.search "x" Settings.initial.confidence none, [.stop], .ok ⟨false, none, none, none⟩⟩,
   ⟨.log (.continuing 0 "a" (.targetNotFound "x")), [], ()⟩,
   ⟨.tell (.step 0 1 optionalClick (.failed (.targetNotFound "x") true)), [], ()⟩,
   ⟨.mark (.status .completed), [], ()⟩]

theorem plays_stoppedSearch :
    Plays ((Task.ofActions [optionalClick]).run .initial) .calm stoppedSearch (.ok .completed)
      ⟨⟨false, true⟩, { Context.fresh with status := .completed }⟩ := by
  iterate 9 refine Plays.turn _ _ (by simp [Scene.waits]) (by trivial) ?_
  exact .done _ _

/-- A run that a stop meets in its last step, and that is completed all the same. -/
theorem past_stop_completed_search :
    StopWished .calm stoppedSearch ∧
      Plays ((Task.ofActions [optionalClick]).run .initial) .calm stoppedSearch (.ok .completed)
        ⟨⟨false, true⟩, { Context.fresh with status := .completed }⟩ ∧
      ∃ a e, [optionalClick].getLast? = some a ∧ a.header.continueOnError = true ∧
        (told stoppedSearch).getLast? = some (0, .failed e true) := by
  have stop : StopWished .calm stoppedSearch := by simp [StopWished, stoppedSearch]
  have ends := (past_stop_completed_iff plays_stoppedSearch stop).1.mp rfl
  exact ⟨stop, plays_stoppedSearch, ends.resolve_left (List.cons_ne_nil _ _)⟩

/-- A task without steps is completed although a stop was wished before its run. -/
theorem stopped_before_nothing_completed :
    ¬ ∀ (st : Settings) (task : Task) (s t : Scene) (log : List Turn) (r : RunResult),
      Plays (task.run st) s log r t → StopWished s log →
        r ≠ .ok .completed ∧ t.context.status ≠ .completed := by
  intro claim
  let s : Scene := ⟨⟨false, true⟩, .fresh⟩
  have play : Plays ((Task.ofActions []).run .initial) s
      [⟨.mark (.status .running), [], ()⟩, ⟨.mark (.status .completed), [], ()⟩] (.ok .completed)
      ⟨⟨false, true⟩, { Context.fresh with status := .completed }⟩ := by
    iterate 2 refine Plays.turn _ _ (by simp [Scene.waits]) (by trivial) ?_
    exact .done _ _
  exact (claim _ _ _ _ _ _ play (.inl rfl)).1 rfl

end TaskReplay
