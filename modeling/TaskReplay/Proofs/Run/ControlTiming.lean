import TaskReplay.Proofs.Run.Waiting
import TaskReplay.Rehearsal.Stage

/-!
# When the calls of a run's control come back

A stage takes a program through commands that come at their times. For a program that makes one call of
the run's control and is over:

* `conduct_heard`, `conduct_ended`, `conduct_given_up` -- a wait goes on until the next command, or is over
  before, or is given up;
* `conduct_endure` -- so it goes as `Suspension.endure` says, if no command falls on one of its timers;
* `Agenda.Answers` -- a call comes back with an answer at a time, or never;
* `control_timing` -- **when the calls come back**, and with what.
-/

namespace TaskReplay

open Rehearsal (RunStage World Suspended)
open Suspension

/-! ## 1. Waits on a stage -/

/-- The command that tells a wish. -/
def Wish.command : Wish → Rehearsal.Command
  | pause => .pause
  | resume => .resume
  | stop => .stop

/-- **A program under a schedule came back** with a result, at a time, with that wished then. -/
structure CameBack {α : Type} (e : World.End (List Rehearsal.Command) α RunStage) (a : α) (t : Nat)
    (c : Control) : Prop where
  result : e.result = some a
  now : e.state.now = t
  control : e.state.control = c

/-- Entries as scheduled commands. -/
def commands (l : List (Nat × Wish)) : RunStage.Schedule := l.map fun e => (e.1, [e.2.command])

/-- A wait with what comes of it. -/
def waitFor {α : Type} (w : Suspension) (k : Bool → α) : Suspended Request Request.Answer α :=
  ⟨w, fun full => .done (k full)⟩

section Stage

variable {α : Type} {w : Suspension} {k : Bool → α} {limit target t : Nat} {full : Bool} {x : Wish}
  {l : List (Nat × Wish)} {s : RunStage}

theorem control_perform (x : Wish) (s : RunStage) :
    (RunStage.perform [x.command] s).control = s.control.wish x := by
  cases x <;> rfl

theorem now_perform (x : Wish) (s : RunStage) : (RunStage.perform [x.command] s).now = s.now := by
  cases x <;> rfl

/-- A wait that goes on beyond a time goes on beyond any earlier one. -/
theorem waits_before {o : Option (Nat × Bool)} {u : Nat} (h : t ≤ u) (beyond : o.all (u < ·.1)) :
    o.all (t < ·.1) := by
  cases o with
  | none => rfl
  | some d =>
      simp only [Option.all_some, decide_eq_true_eq] at beyond ⊢
      omega

/-- A wait that ends by a time. -/
theorem resume_ended (wakes : w.wake? s.control s.now = some (t, full)) (h : t ≤ target) :
    RunStage.world.resume target (waitFor w k) s = .finished (k full) { s with now := t } := by
  have wakes' : RunStage.world.wake? (waitFor w k).wait s = some (t, full) := wakes
  rw [World.resume, wakes']
  exact if_pos h

/-- A wait that goes on beyond a time. -/
theorem resume_waits (h : (w.wake? s.control s.now).all (target < ·.1)) :
    RunStage.world.resume target (waitFor w k) s = .suspended (waitFor w k) s := by
  unfold World.resume
  cases wakes : RunStage.world.wake? (waitFor w k).wait s with
  | none => rfl
  | some d =>
      have beyond : target < d.1 := by
        have wakes' : w.wake? s.control s.now = some d := wakes
        simpa [wakes'] using h
      exact if_neg (Nat.not_le.mpr beyond)

/-- A wait that ends before the next command and before it is given up comes back. -/
theorem conduct_ended (target : Nat) (wakes : w.wake? s.control s.now = some (t, full))
    (h : t ≤ World.firstStop limit (commands l)) :
    RunStage.world.conduct limit RunStage.perform (commands l)
        (RunStage.world.resume target (waitFor w k) s) =
      ⟨some (k full), commands l, { s with now := t }⟩ := by
  by_cases early : t ≤ target
  · rw [resume_ended wakes early]
    cases l <;> rfl
  · rw [resume_waits (by simpa [wakes] using early)]
    cases l with
    | nil =>
        show RunStage.world.conduct limit RunStage.perform [] _ = _
        have by_limit : t ≤ limit := h
        rw [World.conduct, resume_ended wakes by_limit]
        rfl
    | cons e l =>
        have by_both : t ≤ e.1 ∧ t ≤ limit := Nat.le_min.mp h
        show RunStage.world.conduct limit RunStage.perform ((e.1, [e.2.command]) :: commands l) _ = _
        rw [World.conduct, resume_ended wakes by_both.1, resume_ended wakes by_both.2]
        split <;> rfl

/-- A wait that goes on until the next command hears it. -/
theorem conduct_heard {d : Nat × Wish} (early : d.1 < limit) (reach : target ≤ d.1)
    (h : (w.wake? s.control s.now).all (d.1 < ·.1)) :
    RunStage.world.conduct limit RunStage.perform (commands (d :: l))
        (RunStage.world.resume target (waitFor w k) s) =
      RunStage.world.conduct limit RunStage.perform (commands l)
        (RunStage.world.resume d.1 (waitFor w k)
          (RunStage.perform [d.2.command] { s with now := d.1 })) := by
  show RunStage.world.conduct limit RunStage.perform ((d.1, [d.2.command]) :: commands l) _ = _
  rw [resume_waits (waits_before reach h), World.conduct, resume_waits h, if_pos early]
  rfl

/-- A wait that goes on until it is given up does not come back. -/
theorem conduct_given_up (limit : Nat) (reach : target ≤ limit) (late : ∀ e ∈ l, limit ≤ e.1)
    (h : (w.wake? s.control s.now).all (limit < ·.1)) :
    (RunStage.world.conduct limit RunStage.perform (commands l)
      (RunStage.world.resume target (waitFor w k) s)).result = none := by
  rw [resume_waits (waits_before reach h)]
  cases l with
  | nil =>
      show (RunStage.world.conduct limit RunStage.perform [] _).result = _
      rw [World.conduct, resume_waits h]
  | cons d l =>
      have beyond : ¬ d.1 < limit := Nat.not_lt.mpr (late d List.mem_cons_self)
      show (RunStage.world.conduct limit RunStage.perform ((d.1, [d.2.command]) :: commands l)
        _).result = _
      rw [World.conduct, resume_waits h, if_neg beyond]

/-- **A wait through scheduled commands** goes as `Suspension.endure` says, until it is given up. -/
theorem conduct_endure (limit target : Nat) (heeds : w.heeds = true) (ordered : Ordered l)
    (later : ∀ e ∈ l, s.now < e.1) (under : w.Under s.now) (off : ∀ e ∈ l, ¬ w.timer e.1)
    (reach : target ≤ World.firstStop limit (commands l)) :
    let e := RunStage.world.conduct limit RunStage.perform (commands l)
      (RunStage.world.resume target (waitFor w k) s)
    (∀ t, (w.endure s.control s.now (singly l)).2 = some t → t < limit →
      CameBack e (k !(heardBy s.control l t).stopped) t (heardBy s.control l t)) ∧
    ((w.endure s.control s.now (singly l)).2 = none → e.result = none) := by
  -- on the entries: the wait ends before the next one, or hears it, or is given up before it comes
  induction l generalizing s target with
  | nil =>
      simp only [singly, List.map_nil, endure]
      cases wakes : w.wake? s.control s.now with
      | none =>
          have none_later : ∀ e ∈ ([] : List (Nat × Wish)), limit ≤ e.1 := by simp
          exact ⟨by simp, fun _ => conduct_given_up limit reach none_later (by simp [wakes])⟩
      | some d =>
          obtain ⟨t, full⟩ := d
          obtain ⟨rfl, -⟩ := wake?_timer heeds under wakes
          refine ⟨fun t' ends early => ?_, by simp⟩
          cases ends
          have came := conduct_ended (k := k) (l := []) target wakes early.le
          rw [came]
          exact ⟨rfl, rfl, rfl⟩
  | cons d l ih =>
      have now_lt : s.now < d.1 := later _ List.mem_cons_self
      obtain ⟨after, ordered'⟩ := List.pairwise_cons.mp ordered
      by_cases goes_on : (w.wake? s.control s.now).all (d.1 ≤ ·.1)
      · have under' : w.Under d.1 := Nat.max_eq_right now_lt.le ▸ under.later goes_on
        have since {t : Nat} (ends : (w.endure (s.control.wish d.2) d.1 (singly l)).2 = some t) :
            d.1 ≤ t := le_endure under' ends
        have strictly := lt_wake (off d List.mem_cons_self) heeds under now_lt goes_on
        rw [endure_heard now_lt goes_on]
        by_cases early : d.1 < limit
        · let g := RunStage.perform [d.2.command] { s with now := d.1 }
          have now : g.now = d.1 := now_perform d.2 _
          have control : g.control = s.control.wish d.2 := control_perform d.2 _
          have next_reach : d.1 ≤ World.firstStop limit (commands l) := by
            cases l with
            | nil => exact early.le
            | cons e l => exact Nat.le_min.mpr ⟨(after e List.mem_cons_self).le, early.le⟩
          rw [conduct_heard early (reach.trans (Nat.min_le_left _ _)) strictly]
          obtain ⟨comes, stays⟩ := ih (s := g) d.1 ordered' (now ▸ after) (now ▸ under')
            (fun e he => off e (List.mem_cons_of_mem _ he)) next_reach
          rw [now, control] at comes stays
          refine ⟨fun t ends in_time => ?_, stays⟩
          rw [heardBy_cons_earlier (since ends)]
          exact comes t ends in_time
        · have given_up := conduct_given_up (k := k) (l := d :: l) (s := s) (w := w) limit
            (reach.trans (Nat.min_le_right _ _)) ?_ ?_
          · refine ⟨fun t ends in_time => absurd (since ends) (by omega), fun _ => given_up⟩
          · intro e he
            rcases List.mem_cons.mp he with rfl | he
            · exact Nat.le_of_not_lt early
            · exact (Nat.le_of_not_lt early).trans (after e he).le
          · exact waits_before (Nat.le_of_not_lt early) strictly
      · cases wakes : w.wake? s.control s.now with
        | none => simp [wakes] at goes_on
        | some e =>
            obtain ⟨u, full⟩ := e
            have before : u < d.1 := by simpa [wakes] using goes_on
            obtain ⟨rfl, -⟩ := wake?_timer heeds under wakes
            rw [endure_ended wakes before]
            refine ⟨fun t ends in_time => ?_, by simp⟩
            cases ends
            rw [conduct_ended (k := k) (l := d :: l) target wakes (Nat.le_min.mpr ⟨before.le, in_time.le⟩),
              heardBy_cons_later before, heardBy_of_later fun e he => before.trans (after e he)]
            exact ⟨rfl, rfl, rfl⟩

/-- A program that waits at its first question, as the stage sees it. -/
theorem advance_waiting {q : Request} {f : Bool → q.Answer} {next : q.Answer → RunProg α}
    (waits : RunStage.stage.answer q s = .waiting w f s)
    (ends : ∀ full, next (f full) = .done (k full)) :
    RunStage.world.advance target (.ask q next) s =
      RunStage.world.resume target (waitFor w k) s := by
  have waits' : RunStage.world.answer q s = .waiting w f s := waits
  rw [World.advance, waits']
  simp only [ends]
  rfl

/-- A program that is answered at once and over. -/
theorem play_answered {q : Request} {x : q.Answer} {a : α} {next : q.Answer → RunProg α}
    (answered : RunStage.stage.answer q s = .answered x s) (ends : next x = .done a)
    (schedule : RunStage.Schedule) :
    RunStage.play limit schedule (.ask q next) s = ⟨some a, schedule, s⟩ := by
  have answered' : RunStage.world.answer q s = .answered x s := answered
  rw [RunStage.play, World.play, World.advance, answered']
  simp only [ends]
  cases schedule <;> rfl

end Stage

/-! ## 2. The calls of a run's control -/

theorem run_checkpoint : Script.checkpoint.run = .ask .stopped fun stopped =>
    .done (if stopped then .error .interrupted else .ok ()) := by
  show Prog.ask Request.stopped _ = Prog.ask Request.stopped _
  congr 1
  funext stopped
  cases stopped <;> rfl

namespace Agenda

/-- The commands of the entries after a time. -/
def schedule (σ : Agenda) (t : Nat) : RunStage.Schedule := commands (σ.since t)

/-- **A call that is made on a stage while the commands of an agenda come** comes back with an answer, at a
time, or never; it may be given up at any later time. -/
def Answers {α : Type} (σ : Agenda) (s : RunStage) (p : RunProg α) (a : α) : Option Nat → Prop
  | some t => ∀ limit, t < limit →
      CameBack (RunStage.play limit (σ.schedule s.now) p s) a t (σ.control t)
  | none => ∀ limit, (RunStage.play limit (σ.schedule s.now) p s).result = none

section Calls

variable {σ : Agenda} {s : RunStage} {α : Type}

/-- A call that waits for nothing. -/
theorem answers_at_once {q : Request} {x : q.Answer} {a : α} {next : q.Answer → RunProg α}
    (in_step : s.control = σ.control s.now) (answered : RunStage.stage.answer q s = .answered x s)
    (ends : next x = .done a) : σ.Answers s (.ask q next) a (some s.now) := by
  intro limit _
  rw [play_answered answered ends]
  exact ⟨rfl, rfl, in_step⟩

/-- **A call that waits** comes back when its wait is over, with what was wished then. -/
theorem answers_wait {q : Request} {w : Suspension} {f : Bool → q.Answer}
    {next : q.Answer → RunProg α} {k : Bool → α} (in_step : s.control = σ.control s.now)
    (waits : RunStage.stage.answer q s = .waiting w f s)
    (ends : ∀ full, next (f full) = .done (k full)) (heeds : w.heeds = true) (under : w.Under s.now)
    (off : ∀ e ∈ σ.entries, ¬ w.timer e.1) {o : Option Nat}
    (finished : (w.endure (σ.control s.now) s.now (singly (σ.since s.now))).2 = o) {a : α}
    (answer : ∀ t, o = some t → k (!(σ.control t).stopped) = a) : σ.Answers s (.ask q next) a o := by
  have course (limit : Nat) := conduct_endure (k := k) limit
    (World.firstStop limit (commands (σ.since s.now))) heeds (σ.since_ordered s.now)
    (σ.since_later s.now) under (fun e he => off e (mem_of_since he)) (le_refl _)
  have played (limit : Nat) : RunStage.play limit (σ.schedule s.now) (.ask q next) s =
      RunStage.world.conduct limit RunStage.perform (commands (σ.since s.now))
        (RunStage.world.resume (World.firstStop limit (commands (σ.since s.now))) (waitFor w k) s) :=
    congrArg (RunStage.world.conduct limit RunStage.perform _) (advance_waiting waits ends)
  rw [in_step] at course
  cases o with
  | none => exact fun limit => played limit ▸ (course limit).2 finished
  | some t =>
      intro limit early
      have since : s.now ≤ t :=
        le_endure under finished
      have came := (course limit).1 t finished early
      rw [control_since since, answer t rfl] at came
      exact played limit ▸ came

/-- **The wait while a pause is pending**, begun while one is. -/
theorem answers_awaitResume (in_step : s.control = σ.control s.now)
    (paused : (σ.control s.now).paused = true) (unstopped : (σ.control s.now).stopped = false)
    (off : ∀ e ∈ σ.entries, ¬ IsPoll s.now e.1) :
    ∃ o, Earliest (σ.reasons s.now) o ∧ σ.Answers s (Request.ask .awaitResume) true o := by
  have pending : s.control.pausePending = true := by
    rw [in_step, Control.pausePending, paused, unstopped]
    rfl
  have waits : RunStage.stage.answer .awaitResume s = .waiting (.resume s.now) (fun _ => true) s :=
    if_pos pending
  refine ⟨_, earliest_resume unstopped off, ?_⟩
  exact answers_wait (k := fun _ => true) in_step waits (fun _ => rfl) rfl (le_refl _) off rfl
    fun _ _ => rfl

/-- What a sleep answers. -/
def slept (full : Bool) : Except StepError Unit := if full then .ok () else .error .interrupted

/-- **A sleep** begun while no stop is wished. -/
theorem answers_sleep (in_step : s.control = σ.control s.now) {ms : Nat} (pos : 0 < ms)
    (unstopped : (σ.control s.now).stopped = false) (off : ∀ e ∈ σ.entries, e.1 ≠ s.now + ms) :
    ∃ t, IsLeast {t | t = s.now + ms ∨ t ∈ σ.stops} t ∧
      σ.Answers s (Script.sleep ms).run (slept !(σ.control t).stopped) (some t) := by
  have waits : RunStage.stage.answer (.sleep ms) s =
      .waiting (.sleep (s.now + ms)) (fun full => full) s := by
    have open_ended : ¬ (ms = 0 ∨ s.control.stopped = true) := by
      rw [in_step, unstopped]
      simp [pos.ne']
    exact if_neg open_ended
  obtain ⟨t, finished, first⟩ := exists_sleep_ends unstopped ms
  refine ⟨t, first, ?_⟩
  rw [Script.run_sleep]
  exact answers_wait (k := slept) in_step waits (fun _ => rfl) rfl (Nat.le_add_right _ _) off finished
    fun t' same => by cases same; rfl

/-- A sleep that no stop cuts short. -/
theorem answers_full (in_step : s.control = σ.control s.now) {ms : Nat} (pos : 0 < ms)
    (off : ∀ e ∈ σ.entries, e.1 ≠ s.now + ms) (none_before : ∀ t ∈ σ.stops, s.now + ms ≤ t) :
    σ.Answers s (Script.sleep ms).run (.ok ()) (some (s.now + ms)) := by
  have unstopped {t : Nat} (h : t ≤ s.now + ms) : (σ.control t).stopped = false := by
    refine Bool.eq_false_iff.mpr fun stopped => ?_
    obtain ⟨u, by_then, stop⟩ := stopped_control.mp stopped
    have at_end : u = s.now + ms := le_antisymm (by_then.trans h) (none_before u stop)
    exact off _ stop at_end
  obtain ⟨t, first, answers⟩ := answers_sleep in_step pos (unstopped (Nat.le_add_right _ _)) off
  obtain rfl : t = s.now + ms := first.unique ⟨.inl rfl, fun u hu => hu.elim Eq.ge (none_before u)⟩
  rwa [unstopped (le_refl _)] at answers

/-- A sleep that a stop cuts short, or that is begun after one. -/
theorem answers_interrupted (in_step : s.control = σ.control s.now) {ms t : Nat} (pos : 0 < ms)
    (off : ∀ e ∈ σ.entries, e.1 ≠ s.now + ms) (first : IsLeast σ.stops t) (early : t < s.now + ms) :
    σ.Answers s (Script.sleep ms).run (.error .interrupted) (some (max s.now t)) := by
  cases stopped : (σ.control s.now).stopped with
  | true =>
      obtain ⟨u, by_now, stop⟩ := stopped_control.mp stopped
      have before : t ≤ s.now := (first.2 stop).trans by_now
      have now_stopped : s.control.stopped = true := in_step.symm ▸ stopped
      have answered : RunStage.stage.answer (.sleep ms) s = .answered false s := by
        rw [← Bool.not_true, ← now_stopped]
        exact if_pos (.inr now_stopped)
      rw [Nat.max_eq_left before, Script.run_sleep]
      exact answers_at_once in_step answered rfl
  | false =>
      have later : s.now < t := (since_later σ s.now _ ((stop_since stopped).mpr first.1))
      obtain ⟨t', first', answers⟩ := answers_sleep in_step pos stopped off
      obtain rfl : t' = t := first'.unique ⟨.inr first.1, fun u hu => hu.elim
        (fun due => due ▸ early.le) fun stop => first.2 stop⟩
      rw [stopped_control.mpr ⟨t', le_refl _, first.1⟩] at answers
      rw [Nat.max_eq_right later.le]
      exact answers

end Calls

end Agenda

/-- **When the calls of a run's control come back.** Commands come as an agenda says, none at a time at which
the call has a timer; the call is made at time `t₀`, with that wished which the agenda says. The wait while
a pause is pending tells that it did not wait, at once, if none is pending or a stop was wished, and else
that it waited, at the first time that is a stop's or a look's, every tenth of a second from `t₀` on,
at which no pause is wished; without such a time it does not come back. A sleep is over in full at its
end unless a stop came before that, and otherwise interrupted at the later of `t₀` and the first stop; pauses
have no part in that. A sleep of no length and a look at the stop are interrupted exactly if a stop was
wished. Whatever is wished in whatever order, what is stopped is not paused and stays stopped. -/
theorem control_timing (σ : Agenda) (s : RunStage) (in_step : s.control = σ.control s.now) :
    let t₀ := s.now
    ((σ.control t₀).paused = false ∨ (σ.control t₀).stopped = true →
      σ.Answers s (Request.ask .awaitResume) false (some t₀)) ∧
    ((σ.control t₀).paused = true → (σ.control t₀).stopped = false →
      (∀ e ∈ σ.entries, ∀ k, 1 ≤ k → e.1 ≠ t₀ + 100 * k) →
      ∃ o, Earliest (σ.stops ∪
          {t | (∃ k, 1 ≤ k ∧ t = t₀ + 100 * k) ∧ (σ.control t).paused = false}) o ∧
        σ.Answers s (Request.ask .awaitResume) true o) ∧
    (∀ ms, 0 < ms → (∀ e ∈ σ.entries, e.1 ≠ t₀ + ms) →
      ((∀ t ∈ σ.stops, t₀ + ms ≤ t) →
        σ.Answers s (Script.sleep ms).run (.ok ()) (some (t₀ + ms))) ∧
      ∀ t, IsLeast σ.stops t → t < t₀ + ms →
        σ.Answers s (Script.sleep ms).run (.error .interrupted) (some (max t₀ t))) ∧
    (∀ p ∈ [(Script.sleep 0).run, Script.checkpoint.run],
      σ.Answers s p (if (σ.control t₀).stopped then .error .interrupted else .ok ()) (some t₀)) ∧
    ∀ ws : List Wish, let c := ws.foldl Control.wish .fresh
      c.stopped = true → c.paused = false ∧
        ∀ more : List Wish, (more.foldl Control.wish c).stopped = true := by
  intro t₀
  refine ⟨fun free => ?_, fun paused unstopped off => ?_, fun ms pos off => ⟨fun none_before => ?_,
    fun t first early => ?_⟩, fun p hp => ?_, ?_⟩
  · have none_pending : s.control.pausePending = false := by
      rw [in_step, Control.pausePending]
      rcases free with free | stopped
      · rw [free, Bool.false_and]
      · rw [stopped, Bool.not_true, Bool.and_false]
    have answered : RunStage.stage.answer .awaitResume s = .answered false s :=
      if_neg (Bool.eq_false_iff.mp none_pending)
    exact Agenda.answers_at_once in_step answered rfl
  · refine Agenda.answers_awaitResume in_step paused unstopped fun e he is_timer => ?_
    obtain ⟨k, some_time, same⟩ := is_timer
    exact off e he k some_time same
  · exact Agenda.answers_full in_step pos off none_before
  · exact Agenda.answers_interrupted in_step pos off first early
  · rw [← in_step]
    simp only [List.mem_cons, List.not_mem_nil, or_false] at hp
    rcases hp with rfl | rfl
    · rw [Script.run_sleep]
      have answered : RunStage.stage.answer (.sleep 0) s = .answered (!s.control.stopped) s := by
        simp [Rehearsal.Stage.answer, RunStage.stage]
      refine Agenda.answers_at_once in_step answered ?_
      cases s.control.stopped <;> rfl
    · rw [run_checkpoint]
      exact Agenda.answers_at_once in_step (x := s.control.stopped) rfl rfl
  · intro ws c stopped
    exact ⟨unpaused_of_stopped ws (by simp [Control.fresh]) stopped,
      fun more => (Control.stopped_foldl_wish more c).mpr (.inl stopped)⟩

/-- A pause, taken back for a moment between two looks of a wait that begins at 60, and then for good. -/
def wavering : Agenda where
  entries := [(10, .pause), (100, .resume), (130, .pause), (200, .resume)]
  ordered := by unfold Ordered; decide

/-- The wait goes on until the look at 260. -/
theorem control_timing_wavering :
    let s : RunStage := { RunStage.fresh .idle false with now := 60, control := ⟨true, false⟩ }
    s.control = wavering.control s.now ∧
      wavering.Answers s (Request.ask .awaitResume) true (some 260) := by
  intro s
  have in_step : s.control = wavering.control s.now := by decide
  obtain ⟨-, waits, -⟩ := control_timing wavering s in_step
  have off : ∀ e ∈ wavering.entries, ∀ k, 1 ≤ k → e.1 ≠ s.now + 100 * k := by
    intro e he k some_time
    show e.1 ≠ 60 + 100 * k
    simp only [wavering, List.mem_cons, List.not_mem_nil, or_false] at he
    rcases he with rfl | rfl | rfl | rfl <;> dsimp only <;> omega
  obtain ⟨o, earliest, answers⟩ := waits (by decide) (by decide) off
  have first : Earliest (wavering.stops ∪ {t | (∃ k, 1 ≤ k ∧ t = s.now + 100 * k) ∧
      (wavering.control t).paused = false}) (some 260) := by
    refine ⟨.inr ⟨⟨2, by decide, rfl⟩, by decide⟩, ?_⟩
    rintro t (stop | ⟨⟨k, some_time, rfl⟩, free⟩)
    · simp [Agenda.stops, wavering] at stop
    · have later : k ≠ 1 := by
        rintro rfl
        cases free
      show 260 ≤ 60 + 100 * k
      omega
  rw [earliest.unique first] at answers
  exact ⟨in_step, answers⟩

end TaskReplay
