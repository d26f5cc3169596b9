import TaskReplay.Proofs.Run.Walk

/-!
# What observers hear of a run

A run tells observers about its steps. Whatever devices, screen and clock answer, and whenever others
wish for a pause, its end or a stop:

* `Closed`, `AllClosed` -- the news of a step that is over, and of steps that are over in order;
* `Tells` -- the news that go with a result: all steps are over, or those before the one at which a
  stop was seen, or those before the one that failed the run;
* `WalkCourse.tells` -- the news of a walk are those that go with its result;
* `Request.Names` -- news name the step they are about, and how many steps there are;
* `run_tells` -- **the same for whole runs**, ended or under way, with what a run notes as its status
  and its error.
-/

namespace TaskReplay

open Script

/-! ## 1. News and results -/

/-- The news of a step that is over, so that the next one may begin. -/
inductive Closed (i : Nat) (a : Action) : List (Nat × Moment) → Prop where
  | completed : Closed i a [(i, .started), (i, .completed)]
  | continued (e : StepError) (may : a.header.continueOnError = true) :
      Closed i a [(i, .started), (i, .failed e true)]

/-- The news of steps that are over, the first of them step `i`. -/
inductive AllClosed : Nat → List Action → List (Nat × Moment) → Prop where
  | nil (i : Nat) : AllClosed i [] []
  | cons {i : Nat} {a : Action} {as : List Action} {news more : List (Nat × Moment)}
      (first : Closed i a news) (rest : AllClosed (i + 1) as more) :
      AllClosed i (a :: as) (news ++ more)

/-- **The news that go with a result** of the steps from `i` on. -/
inductive Tells (i : Nat) : List Action → List (Nat × Moment) → RunResult → Prop where
  /-- Every step is over. -/
  | completed {as : List Action} {news : List (Nat × Moment)} (closed : AllClosed i as news) :
      Tells i as news (.ok .completed)
  /-- The steps before `k` are over, and step `k` has begun at most. -/
  | stopped {past rest : List Action} {news last : List (Nat × Moment)} {k : Nat}
      (here : k = i + past.length) (closed : AllClosed i past news)
      (begun : last = [] ∨ rest ≠ [] ∧ last = [(k, .started)]) :
      Tells i (past ++ rest) (news ++ last) (.ok (.stopped k))
  /-- The steps before the one that failed are over, and that one has begun and failed. -/
  | failed {past rest : List Action} {a : Action} {news : List (Nat × Moment)} (f : RunFailure)
      (here : f.index = i + past.length) (own : f.actionId = a.id) (closed : AllClosed i past news)
      (must : a.header.continueOnError = false) :
      Tells i (past ++ a :: rest)
        (news ++ [(f.index, .started), (f.index, .failed f.cause false)]) (.error f)

/-- The status that goes with a result. -/
def RunResult.status : RunResult → RunStatus
  | .ok .completed => .completed
  | .ok (.stopped _) => .stopped
  | .error _ => .failed

/-- The error that goes with a result, if there was `before` before. -/
def RunResult.noted (before : Option String) : RunResult → Option String
  | .ok _ => before
  | .error f => some f.message

/-! ## 2. Walks -/

section Walk

variable {i : Nat} {a : Action} {as : List Action} {s t : Scene} {news more : List (Nat × Moment)}
  {r : RunResult} {o : Option RunResult}

/-- One more step that is over, before all others. -/
theorem Tells.cons (first : Closed i a news) (h : Tells (i + 1) as more r) :
    Tells i (a :: as) (news ++ more) r := by
  cases h with
  | completed closed => exact .completed (.cons first closed)
  | @stopped past rest news' last k here closed begun =>
      rw [← List.append_assoc, ← List.cons_append]
      exact .stopped (by rw [here, List.length_cons]; omega) (.cons first closed) begun
  | @failed past rest b news' f here own closed must =>
      rw [← List.append_assoc, ← List.cons_append]
      exact .failed f (by rw [here, List.length_cons]; omega) own (.cons first closed) must

/-- A step after which the run goes on is over. -/
theorem StepCourse.closed (h : StepCourse i a s news none t) :
    Closed i a news ∧ t.context.error = s.context.error := by
  cases h with
  | completed _ kept => exact ⟨.completed, kept⟩
  | continued e may kept => exact ⟨.continued e may, kept⟩

/-- A step with which the run ends. -/
theorem StepCourse.tells (h : StepCourse i a s news (some r) t) :
    Tells i (a :: as) news r ∧ t.context.status = r.status ∧
      t.context.error = r.noted s.context.error ∧
      ∀ k, r = .ok (.stopped k) → t.control.stopped = true := by
  have none_over : AllClosed i [] [] := .nil i
  cases h with
  | stoppedBefore stop status kept =>
      have tells : Tells i ([] ++ a :: as) ([] ++ []) (.ok (.stopped i)) :=
        .stopped rfl none_over (.inl rfl)
      exact ⟨tells, status, kept, fun _ _ => stop⟩
  | interrupted stop status kept =>
      have begun : a :: as ≠ [] := List.cons_ne_nil a as
      have tells : Tells i ([] ++ a :: as) ([] ++ [(i, .started)]) (.ok (.stopped i)) :=
        .stopped rfl none_over (.inr ⟨begun, rfl⟩)
      exact ⟨tells, status, kept, fun _ _ => stop⟩
  | stoppedAfter stop status kept =>
      have past : AllClosed i [a] [(i, .started), (i, .completed)] := .cons .completed (.nil _)
      have tells : Tells i ([a] ++ as) ([(i, .started), (i, .completed)] ++ [])
          (.ok (.stopped (i + 1))) := .stopped rfl past (.inl rfl)
      exact ⟨tells, status, kept, fun _ _ => stop⟩
  | failed e must status noted =>
      have tells : Tells i ([] ++ a :: as) ([] ++ [(i, .started), (i, .failed e false)])
          (.error ⟨i, a.id, e⟩) := .failed ⟨i, a.id, e⟩ rfl rfl none_over must
      exact ⟨tells, status, noted, nofun⟩

/-- **The news of a walk are those that go with its result**, and so are its status and error; a walk
is stopped only if a stop is wished. -/
theorem WalkCourse.tells (h : WalkCourse i as s news r t) :
    Tells i as news r ∧ t.context.status = r.status ∧ t.context.error = r.noted s.context.error ∧
      ∀ k, r = .ok (.stopped k) → t.control.stopped = true := by
  induction h with
  | completed _ status kept => exact ⟨.completed (.nil _), status, kept, nofun⟩
  | ends step => exact step.tells
  | goesOn step _ ih =>
      obtain ⟨past, kept⟩ := step.closed
      obtain ⟨tells, status, noted, stop⟩ := ih
      exact ⟨tells.cons past, status, by rw [noted, kept], stop⟩

end Walk

/-! ## 3. What news name -/

/-- News of a step name it, and how many steps there are. -/
def Request.Names (as : List Action) (q : Request) : Prop :=
  ∀ i n a m, q = .tell (.step i n a m) → n = as.length ∧ as[i]? = some a

section Names

variable {all as : List Action} {i : Nat} {a : Action} {st : Settings}

theorem names_of_inner {q : Request} (h : q.inner = true) : q.Names all := by
  rintro i n a m rfl
  cases h

theorem names_of_made {α : Type} {m : Script α} (hm : Script.Made m) :
    m.run.Asks (Request.Names all) := hm.asks.mono fun _ => names_of_inner

theorem names_step (ha : all[i]? = some a) (m : Moment) :
    (Request.tell (.step i all.length a m)).Names all := by
  rintro _ _ _ _ ⟨⟩
  exact ⟨rfl, ha⟩

theorem names_mark (m : Mark) : (Request.mark m).Names all := nofun

theorem closeStep_names (ha : all[i]? = some a) (x : Except StepError Unit) :
    (closeStep st all.length i a x).Asks (Request.Names all) := by
  cases x with
  | ok u =>
      refine ⟨names_step ha _, fun _ => (names_of_made (recover_any st a)).bind fun r => ?_⟩
      cases r with
      | ok u => trivial
      | error e => exact ⟨names_mark _, fun _ => trivial⟩
  | error e =>
      by_cases he : e = .interrupted
      · subst he
        exact ⟨names_mark _, fun _ => trivial⟩
      · rw [closeStep.eq_3 st all.length i a e he]
        split
        · exact ⟨names_of_inner rfl, fun _ => ⟨names_step ha _, fun _ => trivial⟩⟩
        · exact ⟨names_step ha _, fun _ => ⟨names_mark _, fun _ => trivial⟩⟩

theorem gate_names : (gate i).Asks (Request.Names all) := by
  refine ⟨names_mark _, fun _ => Prog.Asks.bind ⟨nofun, fun pending => ?_⟩ fun _ => ⟨nofun, fun _ =>
    trivial⟩⟩
  cases pending with
  | false => trivial
  | true =>
      exact ⟨names_mark _, fun _ => ⟨nofun, fun _ => ⟨nofun, fun _ => ⟨names_mark _, fun _ =>
        trivial⟩⟩⟩⟩

theorem walkStep_names (ha : all[i]? = some a) :
    (walkStep st all.length i a).Asks (Request.Names all) := by
  rw [walkStep_eq]
  refine gate_names.bind fun stop => ?_
  cases stop with
  | true => exact ⟨names_mark _, fun _ => trivial⟩
  | false =>
      exact ⟨names_step ha _, fun _ => (names_of_made (perform_any st a)).bind
        (closeStep_names ha)⟩

theorem runFrom_names (past : List Action) (h : all = past ++ as) :
    (runFrom st all.length past.length as).Asks (Request.Names all) := by
  induction as generalizing past with
  | nil => exact ⟨names_mark _, fun _ => trivial⟩
  | cons a as ih =>
      have here : all[past.length]? = some a := by simp [h]
      refine (walkStep_names here).bind fun o => ?_
      cases o with
      | some r => trivial
      | none =>
          have next := ih (past ++ [a]) (by simp [h])
          rwa [List.length_append] at next

end Names

/-! ## 4. Runs -/

section Runs

variable {st : Settings} {task : Task} {s t : Scene} {log : List Turn} {r : RunResult}
  {p : RunProg RunResult}

theorem run_names (task : Task) : (task.run st).Asks (Request.Names task.actions) :=
  ⟨names_mark _, fun _ => runFrom_names [] rfl⟩

/-- A run that has ended. -/
theorem tells_of_plays (h : Plays (task.run st) s log r t) :
    Tells 0 task.actions (told log) r ∧ (∀ k, r = .ok (.stopped k) → StopWished s log) ∧
      t.context.status = r.status ∧ t.context.error = r.noted s.context.error := by
  obtain ⟨u, -, same, walk, -⟩ := plays_run h
  obtain ⟨tells, status, noted, stop⟩ := walk.tells
  exact ⟨tells, fun k hk => h.stopped_iff.mp (stop k hk), status, by rw [noted, same]⟩

/-- **What observers hear of a run**: at any time each of the news names its step, and they are the
first of those that go with some result. Once the run has ended they are those that go with its
result, and so are its status and error; and it is stopped only if a stop was wished. -/
theorem run_tells (h : PlaysOn (task.run st) s log p t) :
    (∀ u ∈ log, u.request.Names task.actions) ∧
      (∃ more r, Tells 0 task.actions (told log ++ more) r) ∧
      ∀ r, p = .done r →
        Tells 0 task.actions (told log) r ∧ (∀ k, r = .ok (.stopped k) → StopWished s log) ∧
          t.context.status = r.status ∧ t.context.error = r.noted s.context.error := by
  obtain ⟨log', r, u, rest⟩ := exists_plays p t
  have whole := h.plays rest
  refine ⟨fun u hu => ?_, ⟨told log', r, ?_⟩, ?_⟩
  · exact whole.asks (run_names task) u (List.mem_append_left log' hu)
  · rw [← told_append]
    exact (tells_of_plays whole).1
  · rintro r rfl
    have play := h.plays (.done r t)
    rw [List.append_nil] at play
    exact tells_of_plays play

/-- Three clicks: on a template that may be missing, on a point, and on a template that the task
needs. -/
def threeClicks : List Action :=
  [.simple ⟨"a", none, none, none, true⟩ (.click .single (.on (.image "x"))),
    .simple ⟨"b", none, none, some 0, false⟩ (.click .single (.on (.coordinates 1 2))),
    .simple (.named "c") (.click .single (.on (.image "x")))]

/-- What a run of them notes down when it does not find the template. -/
def clickFailure : RunFailure := ⟨2, "c", .targetNotFound "x"⟩

/-- A run in which the template is not found. A pause is wished during the first search, and a stop
during the last. -/
def missedSearches : List Turn :=
  let search (ws : List Wish) : Turn :=
    ⟨.search "x" Settings.initial.confidence none, ws, .ok ⟨false, none, none, none⟩⟩
  let tells (i : Nat) (a : Action) (m : Moment) : Turn := ⟨.tell (.step i 3 a m), [], ()⟩
  let before (i : Nat) : List Turn := [⟨.mark (.index i), [], ()⟩, ⟨.pausePending, [], false⟩]
  ⟨.mark (.status .running), [], ()⟩ ::
  (before 0 ++ [⟨.stopped, [], false⟩, tells 0 threeClicks[0] .started, search [.pause],
    ⟨.log (.continuing 0 "a" (.targetNotFound "x")), [], ()⟩,
    tells 0 threeClicks[0] (.failed (.targetNotFound "x") true)] ++
  [⟨.mark (.index 1), [], ()⟩, ⟨.pausePending, [], true⟩, ⟨.mark (.status .paused), [], ()⟩,
    ⟨.tell (.paused 1), [], ()⟩, ⟨.awaitResume, [.resume], true⟩, ⟨.mark (.status .running), [], ()⟩,
    ⟨.stopped, [], false⟩, tells 1 threeClicks[1] .started,
    ⟨.device (.click .single (some ⟨1, 2⟩)), [], .ok ()⟩, tells 1 threeClicks[1] .completed,
    ⟨.sleep 0, [], true⟩] ++
  before 2 ++ [⟨.stopped, [], false⟩, tells 2 threeClicks[2] .started, search [.stop],
    tells 2 threeClicks[2] (.failed (.targetNotFound "x") false),
    ⟨.mark (.failure clickFailure), [], ()⟩])

/-- A run that goes on after its first step, is paused before its second and fails with its last. -/
theorem run_tells_missed :
    Plays ((Task.ofActions threeClicks).run .initial) ⟨.fresh, .fresh⟩ missedSearches
        (.error clickFailure)
        ⟨⟨false, true⟩,
          { Context.fresh with status := .failed, index := 2, error := some clickFailure.message }⟩ ∧
      Tells 0 threeClicks
        [(0, .started), (0, .failed (.targetNotFound "x") true), (1, .started), (1, .completed),
          (2, .started), (2, .failed (.targetNotFound "x") false)]
        (.error clickFailure) := by
  have play : Plays ((Task.ofActions threeClicks).run .initial) ⟨.fresh, .fresh⟩ missedSearches
      (.error clickFailure)
      ⟨⟨false, true⟩,
        { Context.fresh with status := .failed, index := 2, error := some clickFailure.message }⟩ := by
    iterate 26 refine Plays.turn _ _ (by first | exact .inr rfl | exact .inl rfl) (by trivial) ?_
    exact .done _ _
  exact ⟨play, ((run_tells play.playsOn).2.2 _ rfl).1⟩

end Runs
end TaskReplay
