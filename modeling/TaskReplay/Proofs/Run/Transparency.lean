import TaskReplay.Proofs.Run.Beside
import TaskReplay.Proofs.Run.StopSafety

/-!
# What a pause does to a run

A run that is paused and resumed, on film, beside the same run that is left alone:

* `Surroundings.Steady` -- how long calls take depends on the calls so far only;
* `Abreast` -- two films whose deadlines are as far away; `awaitImage_transparent` -- the wait for an
  image, whose deadline moves with the time lost;
* `action_transparent`, `all_transparent`, `loop_transparent` -- steps, sequences and loops;
* `gate_transparent` -- before a step of the walk the paused run waits and the other does not;
  `run_transparent` -- whole runs;
* `paused_film_transparent` -- **a run whose every pause is resumed goes as if there were none**, and
  neither begins a step of the walk nor goes on with a loop while a pause is pending.
-/

namespace TaskReplay

open Script

/-! ## 1. Waiting for an image -/

/-- **How long calls take depends on the calls so far only**, and so it is with looks at the clock. -/
structure Surroundings.Steady (w : Surroundings) : Prop where
  lasts : ∀ q asked asked' now now', q.isCall = true ∨ q = .clock →
    asked.filter Request.isCall = asked'.filter Request.isCall →
    w.lasts (q :: asked) now = w.lasts (q :: asked') now'

section Images

variable {w : Surroundings} {plan : Plan} {α : Type} {s : Settings} {template : String}
  {timeout : UInt64} {confidence : Option Float32} {disappear : Bool}

/-- **Two films beside each other** whose deadlines are as far away. -/
structure Abreast (due due' : Nat) (f g : Film) : Prop extends Beside f g where
  away : due + g.now = due' + f.now

variable {due due' : Nat} {f g : Film} {q : Request}

theorem Abreast.late_or_early (h : Abreast due due' f g) :
    due ≤ f.now ∧ due' ≤ g.now ∨ ¬ due ≤ f.now ∧ ¬ due' ≤ g.now := by
  have := h.away
  omega

/-- How long calls and looks at the clock take. -/
theorem now_take (timed : q.isCall = true ∨ q = .clock) :
    (f.take w plan q).now = f.now + w.lasts (q :: f.asked) f.now := by
  obtain ⟨t, ends⟩ := ended_shot w plan f q
  have settles : f.wait w q = .settle (f.now + w.lasts (q :: f.asked) f.now) := by
    cases q <;> first | rfl | simp [Request.isCall] at timed
  rw [settles] at ends
  rw [Film.take, ends]
  rfl

/-- A sleep lasts as long as it should, unless a stop cuts it short. -/
theorem ended_sleep {ms : Nat} (unstopped : (f.take w plan (.sleep ms)).scene.control.stopped = false) :
    (f.shot w plan (.sleep ms)).ended = some (f.now + ms) := by
  obtain ⟨t, ends⟩ := ended_shot w plan f (.sleep ms)
  rw [ends, Film.wait, Suspension.wake?, unstopped]
  rfl

/-- So much time is past after a sleep. -/
theorem now_sleep {ms : Nat} (unstopped : (f.take w plan (.sleep ms)).scene.control.stopped = false) :
    (f.take w plan (.sleep ms)).now = f.now + ms := by
  rw [Film.take, ended_sleep unstopped]
  rfl

theorem Abreast.take (steady : w.Steady) (h : Abreast due due' f g) (timed : q.isCall = true ∨ q = .clock) :
    (f.take w plan q).scene.control.stopped = true ∨
      Abreast due due' (f.take w plan q) (g.take w .silent q) := by
  refine (h.toBeside.take q).imp id fun after => ⟨after, ?_⟩
  have calls : f.asked.filter Request.isCall = g.asked.filter Request.isCall := by
    rw [f.calls_course, g.calls_course, h.course]
  rw [now_take timed, now_take timed, steady.lasts q _ _ f.now g.now timed calls]
  have := h.away
  omega

theorem Abreast.take_sleep {ms : Nat} (h : Abreast due due' f g) :
    (f.take w plan (.sleep ms)).scene.control.stopped = true ∨
      Abreast due due' (f.take w plan (.sleep ms)) (g.take w .silent (.sleep ms)) := by
  refine (h.toBeside.take (.sleep ms)).imp id fun after => ⟨after, ?_⟩
  rw [now_sleep after.unstopped, now_sleep (by rw [after.free]; rfl)]
  have := h.away
  omega

/-- Both deadlines are past, or neither is. -/
theorem Abreast.look (steady : w.Steady) (h : Abreast due due' f g) {late early early' : RunProg α}
    (beyond : Transparent w plan late.quiet)
    (on : ∀ f' g', Abreast due due' f' g' →
      Parallel (f'.play w plan early.quiet) (g'.play w .silent early'.quiet)) :
    Parallel
      (f.play w plan (RunProg.quiet (.ask .clock fun now => if due ≤ now then late else early)))
      (g.play w .silent (RunProg.quiet (.ask .clock fun now => if due' ≤ now then late else early'))) := by
  refine Parallel.ask h.free ((h.take steady (.inr rfl)).imp id fun looked => ?_)
  generalize f.take w plan .clock = f' at looked ⊢
  generalize g.take w .silent .clock = g' at looked ⊢
  show Parallel (f'.play w plan (RunProg.quiet (if due ≤ f'.now then late else early)))
    (g'.play w .silent (RunProg.quiet (if due' ≤ g'.now then late else early')))
  rcases looked.late_or_early with ⟨past, past'⟩ | ⟨before, before'⟩
  · rw [if_pos past, if_pos past']
    exact beyond _ _ looked.toBeside
  · rw [if_neg before, if_neg before']
    exact on _ _ looked

/-- **A search in both**: it is over in both, or both go on. -/
theorem Abreast.seek (steady : w.Steady) (h : Abreast due due' f g) {accuracy : Float32}
    {area : Option Region} {missed missed' : RunProg (Except StepError Match)}
    (on : ∀ f' g', Abreast due due' f' g' →
      Parallel (f'.play w plan missed.quiet) (g'.play w .silent missed'.quiet)) :
    Parallel (f.play w plan (RunProg.quiet (seek template accuracy area disappear missed)))
      (g.play w .silent (RunProg.quiet (seek template accuracy area disappear missed'))) := by
  refine Parallel.ask h.free ((h.take steady (.inl rfl)).imp id fun after => ?_)
  rw [h.answer after.toBeside rfl]
  generalize g.answer w _ (.search _ _ _) = x
  cases x with
  | error e => exact transparent_done _ _ _ after.toBeside
  | ok m =>
      dsimp only
      cases m.found != disappear with
      | true => exact transparent_done _ _ _ after.toBeside
      | false => exact on _ _ after

/-- **A wait for an image**: the deadlines are as far away at each look at the clock. -/
theorem watch_parallel (steady : w.Steady) (left : Nat) (h : Abreast due due' f g) :
    Parallel
      (f.play w plan (watch s template timeout confidence disappear due left).quiet.run)
      (g.play w .silent (watch s template timeout confidence disappear due' left).quiet.run) := by
  unfold Script.quiet
  induction left generalizing f g with
  | zero =>
      rw [run_watch, run_watch]
      exact h.seek steady fun f' g' searched => transparent_done _ _ _ searched.toBeside
  | succ left ih =>
      rw [run_watch, run_watch]
      refine h.seek steady fun f' g' searched => ?_
      refine searched.look steady (transparent_done _) fun f' g' looked => ?_
      refine Parallel.ask looked.free (looked.take_sleep.imp id fun rested => ?_)
      rw [looked.answer rested.toBeside rfl, Film.answer, rested.free]
      exact ih rested

/-- **The wait for an image** does not notice a pause before it. -/
theorem awaitImage_transparent (steady : w.Steady) :
    Transparent w plan (awaitImage s template timeout confidence disappear).quiet.run := by
  intro f g h
  refine Parallel.ask h.free ((h.take .clock).imp id fun after => ?_)
  refine watch_parallel steady _ ⟨after, ?_⟩
  show (f.take w plan .clock).now + _ + (g.take w .silent .clock).now = _
  simp only [Film.answer]
  omega

end Images

/-! ## 2. Steps -/

section Steps

variable {w : Surroundings} {plan : Plan} (s : Settings)

theorem transparent_enter {place : Place} {k : Unit → CueScript Unit}
    (hk : Transparent w plan (k ()).run) : Transparent w plan (CueScript.enter place >>= k).run :=
  fun _ _ h => hk _ _ (h.cut rfl)

theorem transparent_round {place : Place} {k : Unit → CueScript Unit}
    (hk : Transparent w plan (k ()).run) : Transparent w plan (CueScript.round place >>= k).run :=
  fun _ _ h => hk _ _ (h.cut rfl)

/-- Whether a step is a wait for an image, which looks at the clock. -/
def Deed.timed : Deed → Bool
  | .waitForImage _ _ _ _ _ => true
  | _ => false

theorem deed_ne_clock {d : Deed} (untimed : d.timed = false) {q : Request} (may : d.May s q) :
    q ≠ .clock := by
  cases d with
  | waitForImage template timeout confidence disappear storeInto => cases untimed
  | findImage template confidence region storeInto =>
      obtain rfl | ⟨name, v, -, rfl⟩ := may
      · nofun
      · nofun
  | _ => exact Request.ne_clock (Deed.ordinary_of_may rfl may)

theorem pauseFor_transparent (delay : Option UInt64) : Transparent w plan (pauseFor delay).quiet.run :=
  made_transparent (pauseFor_made (E := fun _ => True) delay)

/-- A step without inner steps. -/
theorem deed_transparent (steady : w.Steady) (d : Deed) :
    Transparent w plan (d.execute s).quiet.run := by
  cases d with
  | waitForImage template timeout confidence disappear storeInto =>
      simp only [Deed.execute]
      rw [script_quiet_bind]
      refine (awaitImage_transparent steady).bind_script fun m => made_transparent (E := fun _ => True) ?_
      exact made_ite (store_made storeInto m fun _ _ _ => by rintro ⟨⟩) (.pure _)
  | _ =>
      exact made_transparent ((deed_made s _).mono (fun q => deed_ne_clock s rfl) fun _ => id)

theorem loop_transparent (id : String) (r : LoopRule) (place : Place) {body : CueScript Unit}
    (hb : Transparent w plan body.run) (left done : Nat) :
    Transparent w plan (r.cued s id place body left done).run := by
  have look : Transparent w plan boundary.quiet.run :=
    made_transparent (E := fun _ => True) .boundary
  induction left generalizing done with
  | zero =>
      have log : MadeOf (· ≠ .clock) (fun _ => True)
          (if r.wantsMore done then Script.ask (.log (.loopLimit id r.limit)) else pure ()) :=
        made_ite (.ask _ rfl nofun) (.pure _)
      exact look.bind_script fun _ => transparent_round (made_transparent log)
  | succ left ih =>
      have proceeds : MadeOf (· ≠ .clock) (r.Fails id) (r.proceeds s id done) :=
        (proceeds_made s r done).mono (fun q may => Request.ne_clock (LoopRule.ordinary_of_may may)) fun _ h => h
      refine look.bind_script fun _ => transparent_round ?_
      refine (made_transparent proceeds).bind_script fun more => ?_
      cases more with
      | false => exact transparent_done _
      | true => exact hb.bind_script fun _ => ih (done + 1)

mutual

/-- **A step.** -/
theorem action_transparent (steady : w.Steady) (place : Place) : (a : Action) →
    Transparent w plan (a.cued s place).run
  | .simple _ deed => transparent_enter (deed_transparent s steady deed)
  | .condition h test thenBranch elseBranch => by
      have holds : MadeOf (· ≠ .clock) (test.Fails h.id) (test.holds s h.id) :=
        (holds_made s test).mono (fun q may => Request.ne_clock (Test.ordinary_of_may may)) fun _ h => h
      refine transparent_enter ((made_transparent holds).bind_script fun x => ?_)
      cases x with
      | true => exact all_transparent steady (0 :: place) 0 thenBranch
      | false => exact all_transparent steady (1 :: place) 0 elseBranch
  | .loop h rule body =>
      transparent_enter (loop_transparent s h.id rule place
        (all_transparent steady (0 :: place) 0 body) rule.limit 0)

/-- **A sequence.** -/
theorem all_transparent (steady : w.Steady) (sequence : Place) (index : Nat) : (as : List Action) →
    Transparent w plan (cuedAll s sequence index as).run
  | [] => transparent_done _
  | a :: rest =>
      (pauseFor_transparent _).bind_script fun _ =>
        (action_transparent steady (index :: sequence) a).bind_script fun _ =>
          (pauseFor_transparent _).bind_script fun _ =>
            all_transparent steady sequence (index + 1) rest

end

/-! ## 3. Runs -/

/-- **Before a step of the walk** a run that is paused says so and waits, the other goes on. -/
theorem gate_transparent (i : Nat) : Transparent w plan (gate i).quiet := by
  refine transparent_ask rfl fun _ f g h => ?_
  let look : CueProg Bool := RunProg.quiet (.ask .stopped .done)
  have looks : Transparent w plan look := transparent_ask rfl fun _ => transparent_done _
  have goes_on : g.play w .silent (RunProg.quiet ((holdBefore i).bind fun _ => .ask .stopped .done)) =
      (g.take w .silent .pausePending).play w .silent look := by
    have none_pending : g.answer w (g.take w .silent .pausePending) .pausePending = false := by
      rw [Film.answer, control_take_of_calm rfl, h.free]
      rfl
    refine (play_free h.free).trans ?_
    rw [none_pending]
    rfl
  have beside := h.take_right (w := w) (q := .pausePending) rfl (by rintro _ _ ⟨⟩)
  rw [goes_on]
  refine Parallel.ask_left beside rfl (by rintro _ _ ⟨⟩) fun pending f' asked => ?_
  cases pending with
  | false => exact looks _ _ asked
  | true =>
      refine Parallel.ask_left asked rfl (by rintro _ _ ⟨⟩) fun _ f' noted => ?_
      refine Parallel.ask_left noted rfl (by rintro _ _ ⟨⟩) fun _ f' told => ?_
      refine Parallel.ask_left told rfl (by rintro _ _ ⟨⟩) fun _ f' waited => ?_
      exact Parallel.ask_left waited rfl (by rintro _ _ ⟨⟩) fun _ f' running => looks _ _ running

theorem endStopped_transparent (i : Nat) :
    Transparent w plan (RunProg.quiet ((endStopped i).bind fun r => .done (some r))) :=
  transparent_ask rfl fun _ => transparent_done _

theorem closeStep_transparent (total i : Nat) (a : Action) (x : Except StepError Unit) :
    Transparent w plan (closeStep s total i a x).quiet := by
  cases x with
  | ok u =>
      have pause : Transparent w plan (RunProg.quiet (a.recover s).run) :=
        made_transparent (E := fun _ => True) (recover_made s a fun _ => nofun)
      refine transparent_ask rfl fun _ => ?_
      show Transparent w plan (RunProg.quiet ((a.recover s).run.bind _))
      rw [quiet_bind]
      refine pause.bind fun r => ?_
      cases r with
      | ok u => exact transparent_done _
      | error e => exact endStopped_transparent _
  | error e =>
      by_cases he : e = .interrupted
      · subst he
        exact endStopped_transparent i
      · rw [closeStep.eq_3 s total i a e he]
        split
        · exact transparent_ask rfl fun _ => transparent_ask rfl fun _ => transparent_done _
        · exact transparent_ask rfl fun _ => transparent_ask rfl fun _ => transparent_done _

/-- One step of the walk. -/
theorem step_transparent (steady : w.Steady) (total index : Nat) (a : Action) :
    Transparent w plan (cuedStep s total index a) := by
  refine (gate_transparent index).bind fun stop => ?_
  cases stop with
  | true =>
      show Transparent w plan (Prog.bind (RunProg.quiet (endStopped index)) _)
      exact transparent_ask rfl fun _ => transparent_done _
  | false =>
      have performed : Transparent w plan (a.cuedPerform s [index]).run :=
        (pauseFor_transparent _).bind_script fun _ => action_transparent s steady [index] a
      exact transparent_ask rfl fun _ => performed.bind fun x =>
        closeStep_transparent s total index a x

theorem from_transparent (steady : w.Steady) (total index : Nat) (as : List Action) :
    Transparent w plan (cuedFrom s total index as) := by
  induction as generalizing index with
  | nil => exact transparent_ask rfl fun _ => transparent_done _
  | cons a as ih =>
      refine (step_transparent s steady total index a).bind fun o => ?_
      cases o with
      | some r => exact transparent_done _
      | none => exact ih (index + 1)

theorem run_transparent (steady : w.Steady) (t : Task) : Transparent w plan (t.cued s) :=
  transparent_ask rfl fun _ => from_transparent s steady _ 0 _

end Steps

/-! ## 4. Pauses that are resumed -/

/-- Every pause is followed by a command to go on. -/
def Resumed (commands : List Wish) : Prop :=
  ∀ before after, commands = before ++ .pause :: after → .resume ∈ after

/-- **The wishes of a film are commands**, given in their order and each once; and before a run waits for
good, all of them are given. -/
structure Issued {α : Type} (commands : List Wish) (plan : Plan) (x : Option α × Film) : Prop where
  order : heard plan x.2.shots <+: commands
  all : x.1 = none → heard plan x.2.shots = commands

theorem unpaused_of_resumed {commands : List Wish} (h : Resumed commands) :
    (commands.foldl Control.wish .fresh).pausePending = false := by
  rcases commands.eq_nil_or_concat with rfl | ⟨before, last, rfl⟩
  · rfl
  · rw [List.concat_eq_append, List.foldl_append]
    cases last with
    | pause =>
        have later := h before [] (List.concat_eq_append ..)
        cases later
    | resume => rfl
    | stop => rfl

theorem unstopped_of_issued {α : Type} {commands : List Wish} {plan : Plan} {x : Option α × Film}
    (no_stop : Wish.stop ∉ commands) (issued : Issued commands plan x) :
    Wish.stop ∉ heard plan x.2.shots := fun mem => no_stop (issued.order.subset mem)

/-- Two films that have not begun. -/
theorem beside_blank {plan : Plan} (no_stop : Wish.stop ∉ plan.before) (start : Nat)
    (context : Context) : Beside (.blank plan start context) (.blank .silent start context) where
  course := rfl
  scope := rfl
  unstopped := by
    rw [← Bool.not_eq_true]
    exact fun stopped => no_stop (((Scene.stopped_wishes _ _).mp stopped).resolve_left nofun)
  free := rfl

/-- **A run whose every pause is resumed**, with its cues taken out, is the run itself. It comes to the
result that it comes to when nobody wishes anything, with the same calls, lots and news in the same
order and the same variables. And as long as others act only while it waits, it neither begins a step
of the walk nor goes on with a loop while a pause is pending. -/
theorem paused_film_transparent {w : Surroundings} (steady : w.Steady) {commands : List Wish}
    (no_stop : Wish.stop ∉ commands) (resumed : Resumed commands) {plan : Plan} {s : Settings}
    {start : Nat} {context : Context} {t : Task}
    (issued : Issued commands plan (Film.play w plan (t.cued s) (.blank plan start context))) :
    let paused := Film.play w plan (t.cued s) (.blank plan start context)
    let free := Film.play w .silent (t.cued s) (.blank .silent start context)
    CueProg.plain (t.cued s) = t.run s ∧
      (∃ r, paused.1 = some r ∧ free.1 = some r) ∧
      paused.2.course = free.2.course ∧ paused.2.calls = free.2.calls ∧
      paused.2.scene.context.scope = free.2.scene.context.scope ∧
      (OthersWait paused.2.shots → PauseSafe plan paused.2.shots) := by
  intro paused free
  have none_heard := unstopped_of_issued no_stop issued
  have blank := watched_blank plan start context
  have control : paused.2.scene.control = wished plan paused.2.shots := control_play _ _ blank.control
  have none_before : Wish.stop ∉ plan.before := fun mem => none_heard (List.mem_append_left _ mem)
  have safe (others : OthersWait paused.2.shots) : PauseSafe plan paused.2.shots :=
    pauseSafe_play (run_poised s t false) blank others
  rcases run_transparent s steady t _ _ (beside_blank none_before start context) with
    stopped | ⟨waits, pending⟩ | ⟨r, ends, ends', beside⟩
  · have stop := (Control.stopped_foldl_wish _ _).mp (control ▸ stopped)
    exact absurd (stop.resolve_left nofun) none_heard
  · rw [control, wished, issued.all waits, unpaused_of_resumed resumed] at pending
    cases pending
  · exact ⟨plain_cued s t, ⟨r, ends, ends'⟩, beside.course, beside.calls, beside.scope, safe⟩

/-- A pause in the second wait of `keyLoop`, taken back and wished again while the loop waits. -/
def pauseSecond : Plan :=
  ⟨[], fun n => match n with
    | 12 => [(3, [.pause])]
    | 13 => [(40, [.resume, .pause]), (250, [.resume])]
    | _ => []⟩

/-- The run of `keyLoop` with that pause. -/
def keyLoopPaused : Option RunResult × Film :=
  Film.play .prompt pauseSecond (keyLoop.cued .initial) (.blank pauseSecond 0 .fresh)

/-- It comes to its end like the run without the pause, and never goes on while a pause is pending. -/
theorem paused_film_transparent_keys :
    Issued [.pause, .resume, .pause, .resume] pauseSecond keyLoopPaused ∧
      OthersWait keyLoopPaused.2.shots ∧ PauseSafe pauseSecond keyLoopPaused.2.shots ∧
      ∃ r, keyLoopPaused.1 = some r ∧
        (Film.play .prompt .silent (keyLoop.cued .initial) (.blank .silent 0 .fresh)).1 = some r := by
  have steady : Surroundings.prompt.Steady := ⟨fun _ _ _ _ _ _ _ => rfl⟩
  have no_stop : Wish.stop ∉ [Wish.pause, .resume, .pause, .resume] := by decide
  have resumed : Resumed [.pause, .resume, .pause, .resume] := by
    intro before after same
    match before with
    | [] => cases same; decide
    | [_, _] => cases same; decide
    | [_] | [_, _, _] | _ :: _ :: _ :: _ :: _ => simp at same
  have given : heard pauseSecond keyLoopPaused.2.shots = [.pause, .resume, .pause, .resume] := by
    decide +kernel
  have others : OthersWait keyLoopPaused.2.shots := by
    unfold OthersWait
    decide +kernel
  have issued : Issued [.pause, .resume, .pause, .resume] pauseSecond keyLoopPaused :=
    ⟨given ▸ List.prefix_refl _, fun _ => given⟩
  obtain ⟨-, ends, -, -, -, safe⟩ := paused_film_transparent steady no_stop resumed issued
  exact ⟨issued, others, safe others, ends⟩

end TaskReplay
