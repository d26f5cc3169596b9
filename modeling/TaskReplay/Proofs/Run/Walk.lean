import TaskReplay.Proofs.Run.Play
import TaskReplay.Proofs.Run.Script

/-!
# The walk through a task

What one step of the walk can do, said once, and what that makes of a whole walk:

* `told` -- what observers were told about steps, in order; `Request.Aside` -- requests that are no
  news about steps and note down no failure;
* `StepCourse` -- the six ways a step can go, each with what is told, how the run ends if it ends
  there, and what the scene is like afterwards; `plays_walkStep` -- a step goes one of these ways;
* `StartsUnstopped` -- no step was begun once a stop was wished; `walkStep` and `runFrom` keep it.
-/

namespace TaskReplay

open Script

/-! ## 1. News about steps -/

/-- What a request tells about which step, if it tells something. -/
def Request.stepNews? : Request → Option (Nat × Moment)
  | .tell (.step index _ _ moment) => some (index, moment)
  | _ => none

/-- What observers were told about steps. -/
def told (log : List Turn) : List (Nat × Moment) := log.filterMap fun u => u.request.stepNews?

@[simp] theorem told_nil : told [] = [] := rfl

@[simp] theorem told_append (l l' : List Turn) : told (l ++ l') = told l ++ told l' :=
  List.filterMap_append

theorem told_cons (u : Turn) (l : List Turn) :
    told (u :: l) = u.request.stepNews?.toList ++ told l := by
  cases h : u.request.stepNews? <;> simp [told, h]

theorem told_eq_nil {log : List Turn} (h : ∀ u ∈ log, u.request.stepNews? = none) :
    told log = [] := List.filterMap_eq_nil_iff.mpr h

/-- Whether a request notes down a failure. -/
def Request.notesFailure : Request → Bool
  | .mark (.failure _) => true
  | _ => false

/-- Requests that are no news about steps and note down no failure. -/
def Request.Aside (q : Request) : Prop := q.stepNews? = none ∧ q.notesFailure = false

theorem Request.aside_of_inner {q : Request} (h : q.inner = true) : q.Aside := by
  cases q <;> first | exact ⟨rfl, rfl⟩ | cases h

section Aside

variable {α : Type} {s t : Scene} {log : List Turn}

/-- Requests aside leave what is told and the error as they are. -/
theorem plays_aside {p : RunProg α} {a : α} (hp : p.Asks Request.Aside) (h : Plays p s log a t) :
    told log = [] ∧ t.context.error = s.context.error := by
  refine ⟨told_eq_nil fun u hu => (h.asks hp u hu).1, ?_⟩
  induction h with
  | done a s => rfl
  | @turn q next s t log a ws x others allowed rest ih =>
      rw [ih (hp.2 x)]
      have calm := hp.1.2
      cases q with
      | mark m => cases m <;> first | rfl | cases calm
      | _ => rfl

theorem plays_made {m : Script α} (hm : Script.Made m) {r : Except StepError α}
    (h : Plays m.run s log r t) : told log = [] ∧ t.context.error = s.context.error :=
  plays_aside (hm.asks.mono fun _ => Request.aside_of_inner) h

end Aside

/-- **No step was begun once a stop was wished.** -/
def StartsUnstopped (s : Scene) (log : List Turn) : Prop :=
  ∀ before u later, log = before ++ u :: later →
    (∃ i, u.request.stepNews? = some (i, .started)) → ¬ StopWished s before

section Starts

variable {α : Type} {p : RunProg α} {s t : Scene} {l l' : List Turn} {a : α}

theorem startsUnstopped_of_told (h : told l = []) : StartsUnstopped s l := by
  rintro before u later rfl ⟨i, hu⟩
  rw [told_append, told_cons, hu] at h
  simp at h

theorem StartsUnstopped.append (hp : Plays p s l a t) (h : StartsUnstopped s l)
    (h' : StartsUnstopped t l') : StartsUnstopped s (l ++ l') := by
  intro before u later hl hu
  rcases List.append_eq_append_iff.mp hl with ⟨mid, rfl, hr⟩ | ⟨mid, rfl, hr⟩
  · intro hw
    refine h' mid u later hr hu ?_
    rw [stopWished_append, ← hp.stopped_iff] at hw
    exact hw
  · cases mid with
    | nil =>
        intro hw
        refine h' [] u later (by simpa using hr.symm) hu ?_
        rw [List.append_nil, ← hp.stopped_iff] at *
        exact Or.inl hw
    | cons v mid =>
        obtain ⟨rfl, rfl⟩ := List.cons.inj hr
        exact h before u mid rfl hu

end Starts

/-! ## 2. One step -/

/-- **How a step can go** from scene `s`: what is told of it, how the run ends if it ends there, and
the scene after it. -/
inductive StepCourse (index : Nat) (a : Action) (s : Scene) :
    List (Nat × Moment) → Option RunResult → Scene → Prop where
  /-- A stop was seen before it began. -/
  | stoppedBefore {t : Scene} (stop : t.control.stopped = true)
      (status : t.context.status = .stopped) (kept : t.context.error = s.context.error) :
      StepCourse index a s [] (some (.ok (.stopped index))) t
  /-- A stop was seen while it was performed. -/
  | interrupted {t : Scene} (stop : t.control.stopped = true)
      (status : t.context.status = .stopped) (kept : t.context.error = s.context.error) :
      StepCourse index a s [(index, .started)] (some (.ok (.stopped index))) t
  /-- A stop was seen in the pause after it. -/
  | stoppedAfter {t : Scene} (stop : t.control.stopped = true)
      (status : t.context.status = .stopped) (kept : t.context.error = s.context.error) :
      StepCourse index a s [(index, .started), (index, .completed)]
        (some (.ok (.stopped (index + 1)))) t
  /-- It was completed, and no stop was seen in the pause after it. -/
  | completed {t : Scene} (unstopped : t.control.stopped = false)
      (kept : t.context.error = s.context.error) :
      StepCourse index a s [(index, .started), (index, .completed)] none t
  /-- It failed, and the run goes on. -/
  | continued {t : Scene} (e : StepError) (may : a.header.continueOnError = true)
      (kept : t.context.error = s.context.error) :
      StepCourse index a s [(index, .started), (index, .failed e true)] none t
  /-- It failed, and the run with it. -/
  | failed {t : Scene} (e : StepError) (must : a.header.continueOnError = false)
      (status : t.context.status = .failed)
      (noted : t.context.error = some (RunFailure.message ⟨index, a.id, e⟩)) :
      StepCourse index a s [(index, .started), (index, .failed e false)]
        (some (.error ⟨index, a.id, e⟩)) t

section Step

variable {s t : Scene} {log : List Turn}

theorem perform_made {P : Request → Prop} {E : StepError → Prop} (st : Settings) (a : Action)
    (each : EachMade st P E a.walk) : Script.MadeOf P E (a.perform st) :=
  (pauseFor_made _).bind fun _ => execute_made st a each

theorem recover_made {P : Request → Prop} {E : StepError → Prop} (st : Settings) (a : Action)
    (may : ∀ n, P (.draw n)) : Script.MadeOf P E (a.recover st) := by
  unfold Action.recover
  exact made_ite (.sleep 0) ((draw_made _ may).bind fun _ => .sleep _)

/-- Any step, with the delay before it. -/
theorem perform_any (st : Settings) (a : Action) : Script.Made (a.perform st) :=
  perform_made st a (eachMade_any st _)

/-- The pause after any step. -/
theorem recover_any (st : Settings) (a : Action) : Script.Made (a.recover st) :=
  recover_made st a fun _ => trivial

theorem holdBefore_asks (i : Nat) : (holdBefore i).Asks Request.Aside := by
  have aside {q : Request} (h : q.stepNews? = none) (h' : q.notesFailure = false) : q.Aside := ⟨h, h'⟩
  refine ⟨aside rfl rfl, fun pending => ?_⟩
  cases pending with
  | false => exact trivial
  | true =>
      exact ⟨aside rfl rfl, fun _ => ⟨aside rfl rfl, fun _ => ⟨aside rfl rfl, fun _ =>
        ⟨aside rfl rfl, fun _ => trivial⟩⟩⟩⟩

/-- **One script after another**: the first fails, or the second goes on from where it ended. -/
theorem plays_andThen {α β : Type} {m : Script α} {f : α → Script β} {r : Except StepError β}
    (h : Plays (m >>= f).run s log r t) :
    (∃ log₁ log₂ a u, log = log₁ ++ log₂ ∧ Plays m.run s log₁ (.ok a) u ∧
        Plays (f a).run u log₂ r t) ∨
      ∃ e, r = .error e ∧ Plays m.run s log (.error e) t := by
  rw [Script.run_bind] at h
  obtain ⟨log₁, log₂, x, u, rfl, hm, hf⟩ := plays_bind h
  cases x with
  | ok a => exact .inl ⟨log₁, log₂, a, u, rfl, hm, hf⟩
  | error e =>
      obtain ⟨rfl, rfl, rfl⟩ := plays_done hf
      exact .inr ⟨e, rfl, by rwa [List.append_nil]⟩

/-- A sleep fails exactly if a stop is wished when it ends. -/
theorem plays_sleep {ms : Nat} {r : Except StepError Unit}
    (h : Plays (Script.sleep ms).run s log r t) : t.control.stopped = !r.isOk := by
  rw [run_sleep] at h
  obtain ⟨ws, full, rest, -, hfull, rfl, hr⟩ := plays_ask h
  obtain ⟨-, rfl, rfl⟩ := plays_done hr
  obtain rfl : full = !(s.wishes ws).control.stopped := hfull
  rw [Scene.control_after]
  cases (s.wishes ws).control.stopped <;> rfl

/-- To draw lots never fails. -/
theorem plays_draw {range : UInt64} {r : Except StepError Int}
    (h : Plays (Script.draw range).run s log r t) : ∃ jitter, r = .ok jitter := by
  rw [Script.draw] at h
  split at h
  · exact ⟨0, (plays_done h).2.1⟩
  · rw [Script.run_bind, run_ask] at h
    obtain ⟨x, rest, -, -, hd⟩ := plays_at_once (by rfl) h
    exact ⟨x.val, (plays_done hd).2.1⟩

/-- The pause after a step fails exactly if a stop is wished when it ends. -/
theorem plays_recover {st : Settings} {a : Action} {r : Except StepError Unit}
    (h : Plays (a.recover st).run s log r t) : t.control.stopped = !r.isOk := by
  simp only [Action.recover] at h
  split at h
  · exact plays_sleep h
  · rw [Script.run_bind] at h
    obtain ⟨log₁, log₂, x, u, -, hd, h⟩ := plays_bind h
    obtain ⟨jitter, rfl⟩ := plays_draw hd
    exact plays_sleep h

/-- A script of a step fails with `interrupted` only if a stop is wished. -/
theorem stopped_of_interrupted {α : Type} {m : Script α} (hm : Script.Made m)
    (h : Plays m.run s log (.error .interrupted) t) : t.control.stopped = true := by
  induction hm generalizing s log with
  | pure a => cases (plays_done h).2.1
  | throw e other own =>
      obtain ⟨-, same, -⟩ := plays_done h
      cases same
      exact absurd rfl other
  | ask q plain may =>
      obtain ⟨ws, x, rest, -, -, -, hr⟩ := plays_ask h
      cases (plays_done hr).2.1
  | device call may =>
      rw [run_device] at h
      obtain ⟨ws, x, rest, -, -, -, hr⟩ := plays_ask h
      exact absurd (plays_done hr).2.1.symm (dispatched_ne_interrupted x)
  | search template confidence area may =>
      rw [run_search] at h
      obtain ⟨ws, x, rest, -, -, -, hr⟩ := plays_ask h
      exact absurd (plays_done hr).2.1.symm (dispatched_ne_interrupted x)
  | sleep ms => exact plays_sleep h
  | boundary =>
      rw [run_boundary] at h
      obtain ⟨ws, x, rest, -, -, -, hr⟩ := plays_ask h
      obtain ⟨stop, rest, seen, -, hd⟩ := plays_at_once (by rfl) hr
      obtain ⟨-, same, rfl⟩ := plays_done hd
      cases stop with
      | false => cases same
      | true => exact seen.symm
  | bind _ _ ihm ihf =>
      obtain ⟨log₁, log₂, a, u, -, h₁, h₂⟩ | ⟨e, same, h₁⟩ := plays_andThen h
      · exact ihf a h₂
      · cases same
        exact ihm h₁

theorem plays_endStopped {i : Nat} {r : RunResult} (h : Plays (endStopped i) s log r t) :
    told log = [] ∧ r = .ok (.stopped i) ∧ t.context.status = .stopped ∧ t.control = s.control ∧
      t.context.error = s.context.error := by
  obtain ⟨_, rest, -, rfl, hr⟩ := plays_at_once (by rfl) h
  obtain ⟨rfl, rfl, rfl⟩ := plays_done hr
  exact ⟨rfl, rfl, rfl, rfl, rfl⟩

/-- What follows a step that was performed, as one of the ways a step can go. -/
theorem plays_closeStep {st : Settings} {total i : Nat} {a : Action} {x : Except StepError Unit}
    {o : Option RunResult} (h : Plays (closeStep st total i a x) s log o t)
    (seen : x = .error .interrupted → s.control.stopped = true) :
    StepCourse i a s ((i, .started) :: told log) o t := by
  cases x with
  | ok u =>
      simp only [closeStep, Prog.bind_eq, Request.ask, Prog.request_bind] at h
      obtain ⟨ws, _, rest, -, -, rfl, hr⟩ := plays_ask h
      obtain ⟨pause, ending, r, v, rfl, hp, he⟩ := plays_bind hr
      obtain ⟨quiet, kept⟩ := plays_made (recover_any st a) hp
      have stop := plays_recover hp
      cases r with
      | ok u =>
          obtain ⟨rfl, rfl, rfl⟩ := plays_done he
          rw [List.append_nil, told_cons, quiet]
          exact .completed stop kept
      | error e =>
          obtain ⟨last, rest, r, w, rfl, hl, hd⟩ := plays_bind he
          obtain ⟨none_told, rfl, status, same, kept'⟩ := plays_endStopped hl
          obtain ⟨rfl, rfl, rfl⟩ := plays_done hd
          rw [told_cons, told_append, told_append, quiet, none_told]
          exact .stoppedAfter (by rw [same]; exact stop) status (kept'.trans kept)
  | error e =>
      by_cases he : e = .interrupted
      · subst he
        obtain ⟨last, rest, r, w, rfl, hl, hd⟩ := plays_bind h
        obtain ⟨none_told, rfl, status, same, kept⟩ := plays_endStopped hl
        obtain ⟨rfl, rfl, rfl⟩ := plays_done hd
        rw [told_append, none_told]
        exact .interrupted (by rw [same]; exact seen rfl) status kept
      · rw [closeStep.eq_3 st total i a e he] at h
        simp only [Prog.bind_eq, Request.ask, Prog.request_bind] at h
        split at h
        · next may =>
          obtain ⟨_, rest, -, rfl, hw⟩ := plays_at_once (by rfl) h
          obtain ⟨ws, _, rest, -, -, rfl, hd⟩ := plays_ask hw
          obtain ⟨rfl, rfl, rfl⟩ := plays_done hd
          exact .continued e may rfl
        · next must =>
          obtain ⟨ws, _, rest, -, -, rfl, hm⟩ := plays_ask h
          obtain ⟨_, rest, -, rfl, hd⟩ := plays_at_once (by rfl) hm
          obtain ⟨rfl, rfl, rfl⟩ := plays_done hd
          exact .failed e (by simpa using must) rfl rfl

/-- What comes before a step begins; tells whether it must not. -/
def gate (i : Nat) : RunProg Bool :=
  .ask (.mark (.index i)) fun _ => (holdBefore i).bind fun _ => .ask .stopped .done

theorem walkStep_eq (st : Settings) (total i : Nat) (a : Action) :
    walkStep st total i a = (gate i).bind fun stop =>
      if stop then (endStopped i).bind fun r => .done (some r)
      else .ask (.tell (.step i total a .started)) fun _ =>
        (a.perform st).run.bind (closeStep st total i a) := by
  simp [walkStep, gate, Request.ask, Prog.bind_assoc]

theorem plays_gate {i : Nat} {stop : Bool} (h : Plays (gate i) s log stop t) :
    told log = [] ∧ stop = t.control.stopped ∧ t.context.error = s.context.error := by
  obtain ⟨_, rest, -, rfl, hh⟩ := plays_at_once (by rfl) h
  obtain ⟨hold, last, _, u, rfl, hp, hs⟩ := plays_bind hh
  obtain ⟨x, rest, seen, rfl, hd⟩ := plays_at_once (by rfl) hs
  obtain ⟨rfl, rfl, rfl⟩ := plays_done hd
  obtain ⟨quiet, kept⟩ := plays_aside (holdBefore_asks i) hp
  rw [told_cons, told_append, quiet]
  exact ⟨rfl, seen, kept⟩

/-- Where a step began counts only for the error before it. -/
theorem StepCourse.since {i : Nat} {a : Action} {s' : Scene} {news : List (Nat × Moment)}
    {o : Option RunResult} (h : StepCourse i a s' news o t)
    (kept : s'.context.error = s.context.error) : StepCourse i a s news o t := by
  cases h with
  | stoppedBefore stop status same => exact .stoppedBefore stop status (same.trans kept)
  | interrupted stop status same => exact .interrupted stop status (same.trans kept)
  | stoppedAfter stop status same => exact .stoppedAfter stop status (same.trans kept)
  | completed unstopped same => exact .completed unstopped (same.trans kept)
  | continued e may same => exact .continued e may (same.trans kept)
  | failed e must status noted => exact .failed e must status noted

/-- Only the first news about a step may be that it begins. -/
theorem StepCourse.begins_once {i : Nat} {a : Action} {x : Nat × Moment} {news : List (Nat × Moment)}
    {o : Option RunResult} (h : StepCourse i a s (x :: news) o t) (j : Nat) : (j, .started) ∉ news := by
  cases h <;> simp

theorem startsUnstopped_begin {u : Turn} {l : List Turn} (hs : s.control.stopped = false)
    (h : ∀ j, (j, .started) ∉ told l) : StartsUnstopped s (u :: l) := by
  rintro before v later hl ⟨j, hv⟩
  cases before with
  | nil => simp [StopWished, hs]
  | cons w before =>
      obtain ⟨rfl, rfl⟩ := List.cons.inj hl
      have mem : (j, .started) ∈ told (before ++ v :: later) := by
        rw [told_append, told_cons, hv]
        simp
      exact absurd mem (h j)

/-- **One step of the walk**: it goes one of the ways of `StepCourse`, and is not begun once a stop
was wished. -/
theorem plays_walkStep {st : Settings} {total i : Nat} {a : Action} {o : Option RunResult}
    (h : Plays (walkStep st total i a) s log o t) :
    StepCourse i a s (told log) o t ∧ StartsUnstopped s log := by
  rw [walkStep_eq] at h
  obtain ⟨before, rest, stop, u, rfl, hg, hr⟩ := plays_bind h
  obtain ⟨quiet, seen, kept⟩ := plays_gate hg
  rw [told_append, quiet, List.nil_append]
  cases stop with
  | true =>
      obtain ⟨last, ending, r, v, rfl, hl, hd⟩ := plays_bind hr
      obtain ⟨silent, rfl, status, same, kept'⟩ := plays_endStopped hl
      obtain ⟨rfl, rfl, rfl⟩ := plays_done hd
      rw [List.append_nil, silent]
      exact ⟨.stoppedBefore (by rw [same]; exact seen.symm) status (kept'.trans kept),
        startsUnstopped_of_told (by rw [told_append, quiet, silent]; rfl)⟩
  | false =>
      obtain ⟨ws, _, rest, -, -, rfl, hb⟩ := plays_ask hr
      obtain ⟨inner, after, r, v, rfl, hi, hc⟩ := plays_bind hb
      obtain ⟨silent, kept'⟩ := plays_made (perform_any st a) hi
      have course := plays_closeStep hc fun same => by
        subst same
        exact stopped_of_interrupted (perform_any st a) hi
      have told_rest : told (inner ++ after) = told after := by
        rw [told_append, silent, List.nil_append]
      refine ⟨by rw [told_cons, told_rest]; exact course.since (kept'.trans kept), ?_⟩
      refine (startsUnstopped_of_told quiet).append hg (startsUnstopped_begin seen.symm ?_)
      rw [told_rest]
      exact course.begins_once

end Step

/-! ## 3. All steps -/

/-- **How the steps from `index` on can go**: news, result and the scene at the end. -/
inductive WalkCourse :
    Nat → List Action → Scene → List (Nat × Moment) → RunResult → Scene → Prop where
  /-- There is no step left. -/
  | completed {index : Nat} {s t : Scene} (same : t.control = s.control)
      (status : t.context.status = .completed) (kept : t.context.error = s.context.error) :
      WalkCourse index [] s [] (.ok .completed) t
  /-- The run ends with the next step. -/
  | ends {index : Nat} {a : Action} {rest : List Action} {s t : Scene} {news : List (Nat × Moment)}
      {r : RunResult} (step : StepCourse index a s news (some r) t) :
      WalkCourse index (a :: rest) s news r t
  /-- The run goes on after the next step. -/
  | goesOn {index : Nat} {a : Action} {rest : List Action} {s t u : Scene}
      {news more : List (Nat × Moment)} {r : RunResult} (step : StepCourse index a s news none u)
      (walk : WalkCourse (index + 1) rest u more r t) :
      WalkCourse index (a :: rest) s (news ++ more) r t

section Walk

variable {st : Settings} {total i : Nat} {as : List Action} {s t : Scene} {log : List Turn}
  {r : RunResult}

/-- **The walk**: it is made of steps, and none is begun once a stop was wished. -/
theorem plays_runFrom (h : Plays (runFrom st total i as) s log r t) :
    WalkCourse i as s (told log) r t ∧ StartsUnstopped s log := by
  induction as generalizing i s log with
  | nil =>
      obtain ⟨_, rest, -, rfl, hd⟩ := plays_at_once (by rfl) h
      obtain ⟨rfl, rfl, rfl⟩ := plays_done hd
      exact ⟨.completed rfl rfl rfl, startsUnstopped_of_told rfl⟩
  | cons a as ih =>
      obtain ⟨first, rest, o, u, rfl, hs, hr⟩ := plays_bind h
      obtain ⟨step, unstopped⟩ := plays_walkStep hs
      rw [told_append]
      cases o with
      | some r' =>
          obtain ⟨rfl, rfl, rfl⟩ := plays_done hr
          rw [told_nil, List.append_nil, List.append_nil]
          exact ⟨.ends step, unstopped⟩
      | none =>
          obtain ⟨walk, later⟩ := ih hr
          exact ⟨.goesOn step walk, unstopped.append hs later⟩

/-- A whole run is the walk from its first step on. -/
theorem plays_run {task : Task} (h : Plays (task.run st) s log r t) :
    ∃ u, u.control = s.control ∧ u.context.error = s.context.error ∧
      WalkCourse 0 task.actions u (told log) r t ∧
      StartsUnstopped s log := by
  obtain ⟨_, rest, -, rfl, hr⟩ := plays_at_once (by rfl) h
  obtain ⟨walk, later⟩ := plays_runFrom hr
  refine ⟨s.after (.mark (.status .running)), rfl, rfl, walk, ?_⟩
  have noted : Plays (note .running) s [⟨.mark (.status .running), [], ()⟩] ()
      (s.after (.mark (.status .running))) := by
    refine .turn [] _ (.inr rfl) ?_ ?_
    · trivial
    · exact .done () _
  exact (startsUnstopped_of_told rfl).append noted later

end Walk
end TaskReplay
