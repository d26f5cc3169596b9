import Mathlib.Data.List.Forall2
import TaskReplay.Proofs.Engine.Accounts
import TaskReplay.Proofs.Engine.LastError

/-!
# What observers hear of a run

A run tells its steps; the start that it belongs to passes each of them on as an event and adds one
event for the end. Between them it broadcasts moves of the engine, and other calls do as they like.

* `Diary`, `diary` -- the news that a call had from its run and the events about it that it handed
  to the publisher, whatever the publisher did with them;
* `Reports`, `Closes`, `Agree` -- which event tells which news, which one tells how a run ended, and
  how the last two events of a failed run agree;
* `run_hears` -- a run that fails has told of the failed step last;
* `program_reports` -- **a call keeps its events abreast of its news**, and a start returns with a
  diary that is complete;
* `run_reported` -- for every claimed run: the events are its news one to one, then its end, and all
  that is said of a failure is the same text.
-/

namespace TaskReplay

/-- The type of the events that tell of a moment. -/
def Moment.eventType : Moment → EventType
  | started => .stepStarted
  | completed => .stepCompleted
  | failed _ _ => .stepFailed

/-- What an event says of a failed step besides the step: why it failed, and if the run goes on. -/
def Moment.Cause (data : Json) : Moment → Prop
  | failed e again =>
    data.member? "error" = some (.string e.message) ∧ data.member? "continued" = some (.bool again)
  | _ => True

/-- The word for the end of a run. -/
def RunResult.word : RunResult → String
  | .ok .completed => "completed"
  | .ok (.stopped _) => "stopped"
  | .error _ => "failed"

/-- Whether a question has nothing to do with the steps of a run and its end. -/
def EngineRequest.unheard : EngineRequest → Bool
  | .publish e => e.type = .statusChanged
  | .run _ q => q.stepNews?.isNone
  | _ => true

namespace Engine

open Machine (Reaches phaseAt)

/-! ## 1. Diaries -/

/-- What a call heard of the steps of its run, and the events about the run that it handed to the
publisher; each oldest first. -/
structure Diary where
  news : List StepNews
  events : List Event

namespace Diary

/-- A diary without entries. -/
def blank : Diary := ⟨[], []⟩

/-- The diary with one more event. -/
def add (d : Diary) (e : Event) : Diary := { d with events := d.events ++ [e] }

/-- The diary with one more piece of news. -/
def hear (d : Diary) (news : StepNews) : Diary := { d with news := d.news ++ [news] }

/-- What a question of the call, once answered, puts into its diary. A run that waits tells of no
step, and a status tells of the engine. -/
def step (d : Diary) : (q : EngineRequest) → q.Answer → Diary
  | .run _ (.tell (.step index total a moment)), _ => d.hear (.step index total a moment)
  | .publish e, _ => if e.type = .statusChanged then d else d.add e
  | _, _ => d

end Diary

/-- The diary of call `n`, read off the log of a system. -/
def diary (n : Nat) (log : List Line) : Diary := phaseAt Diary.step .blank n log

/-! ## 2. Faithful events -/

/-- **An event about a step**: its type is that of the moment, and it names the step. -/
structure StepEvent (task : TaskId) (index total : Nat) (a : Action) (moment : Moment) (e : Event) :
    Prop where
  type : e.type = moment.eventType
  about : e.taskId = some task
  index : e.data.member? "index" = some (.ofNat index)
  total : e.data.member? "total" = some (.ofNat total)
  actionId : e.data.member? "action_id" = some (.string a.id)
  action : e.data.member? "action" = some (.string a.display)
  cause : moment.Cause e.data

/-- An event tells news of a step. -/
def Reports (task : TaskId) : StepNews → Event → Prop
  | .step index total a moment, e => StepEvent task index total a moment e
  | .paused _, _ => False

/-- **An event about the end of a run.** -/
structure Closes (task : TaskId) (result : RunResult) (e : Event) : Prop where
  type : e.type = .runFinished
  about : e.taskId = some task
  outcome : e.data.member? "outcome" = some (.string result.word)

/-- **How the last two events of a failed run agree**: both name the step that failed; the last one
has the text of the error that the start returns, which ends with the text of the first. -/
structure Agree (f : RunFailure) (failed last : Event) : Prop where
  type : failed.type = .stepFailed
  final : failed.data.member? "continued" = some (.bool false)
  index : last.data.member? "index" = some (.ofNat f.index)
  sameIndex : failed.data.member? "index" = last.data.member? "index"
  actionId : last.data.member? "action_id" = some (.string f.actionId)
  sameAction : failed.data.member? "action_id" = last.data.member? "action_id"
  error : last.data.member? "error" = some (.string (EngineError.run f).message)
  cause : ∃ before text, failed.data.member? "error" = some (.string text) ∧
    (EngineError.run f).message = before ++ text

namespace Diary

/-- **Events keep up with news**: at most one event is outstanding, and the end of a run is told of
once and after all news. -/
def Abreast (task : TaskId) (d : Diary) : Prop :=
  ∃ told late steps last, d.news = told ++ late ∧ d.events = steps ++ last ∧
    List.Forall₂ (Reports task) told steps ∧ late.length + last.length ≤ 1 ∧
    ∀ e ∈ last, e.type = .runFinished

/-- **A run was told of from its first step to its end.** -/
def Complete (task : TaskId) (result : RunResult) (d : Diary) : Prop :=
  ∃ steps last, d.events = steps ++ [last] ∧ List.Forall₂ (Reports task) d.news steps ∧
    Closes task result last ∧
    ∀ f, result = .error f → ∃ earlier failed, steps = earlier ++ [failed] ∧ Agree f failed last

/-- Every piece of news was passed on, and nothing else. -/
def Even (task : TaskId) (d : Diary) : Prop := List.Forall₂ (Reports task) d.news d.events

variable {task : TaskId} {d : Diary} {e : Event} {news : StepNews} {result : RunResult}

theorem Even.abreast (h : d.Even task) : d.Abreast task :=
  ⟨d.news, [], d.events, [], by simp, by simp, h, by simp, by simp⟩

theorem Even.abreast_hear (h : d.Even task) (news : StepNews) : (d.hear news).Abreast task :=
  ⟨d.news, [news], d.events, [], rfl, by simp [hear], h, by simp, by simp⟩

theorem Even.abreast_add (h : d.Even task) (he : e.type = .runFinished) : (d.add e).Abreast task :=
  ⟨d.news, [], d.events, [e], by simp [add], rfl, h, by simp, by simpa using he⟩

/-- News that are passed on leave nothing outstanding. -/
theorem Even.passed (h : d.Even task) (he : Reports task news e) :
    ((d.hear news).add e).Even task :=
  List.rel_append h (.cons he .nil)

theorem even_blank (task : TaskId) : blank.Even task := .nil

theorem Complete.abreast (h : d.Complete task result) : d.Abreast task := by
  obtain ⟨steps, last, events, told, closes, -⟩ := h
  exact ⟨d.news, [], steps, [last], by simp, events, told, by simp, by simpa using closes.type⟩

end Diary

/-! ## 3. The news of a run by itself -/

/-- The news about steps after a question of a run. -/
def newsAfter (news : List StepNews) : (q : Request) → q.Answer → List StepNews
  | .tell (.step index total a moment), _ => news ++ [.step index total a moment]
  | _, _ => news

/-- A run asks as it likes; what counts are its news. -/
def hearing : Protocol Request Request.Answer (List StepNews) := ⟨fun _ _ => True, newsAfter⟩

/-- **How the news of a run end**: with the failed step, if it failed. -/
def EndsAt (news : List StepNews) : RunResult → Prop
  | .ok _ => True
  | .error f => ∃ earlier total a,
      news = earlier ++ [.step f.index total a (.failed f.cause false)] ∧ a.id = f.actionId

/-- The same after a step, if it ended the run. -/
def StepEndsAt (o : Option RunResult) (news : List StepNews) : Prop :=
  ∀ r, o = some r → EndsAt news r

section Run

variable {α : Type} {st : Settings} {total i : Nat} {a : Action} {news : List StepNews}

/-- A program without news about steps leaves the news. -/
theorem silent_hears {p : RunProg α} (hp : p.Asks fun q => q.stepNews? = none) :
    p.Follows hearing (fun _ news' => news' = news) news := by
  refine hp.stays (fun _ _ => trivial) fun q x hq => ?_
  cases q with
  | tell told =>
      cases told with
      | step j t b m => cases hq
      | paused j => rfl
  | _ => rfl

theorem made_hears {m : Script α} (hm : Script.Made m) :
    m.run.Follows hearing (fun _ news' => news' = news) news :=
  silent_hears (hm.asks.mono fun _ hq => (Request.aside_of_inner hq).1)

/-- A run that is stopped has not failed. -/
theorem endStopped_hears :
    ((endStopped i).bind fun r => .done (some r)).Follows hearing StepEndsAt news :=
  ⟨trivial, fun _ _ same => Option.some.inj same ▸ trivial⟩

/-- What follows a step that was performed: if it ends the run by failing, the news end there. -/
theorem closeStep_hears (x : Except StepError Unit) :
    (closeStep st total i a x).Follows hearing StepEndsAt news := by
  cases x with
  | ok u =>
      refine ⟨trivial, fun _ => ?_⟩
      refine (made_hears (recover_any st a)).bind fun r _ _ => ?_
      cases r with
      | ok u => exact nofun
      | error e => exact endStopped_hears
  | error e =>
      by_cases he : e = .interrupted
      · subst he
        exact endStopped_hears
      · rw [closeStep.eq_3 st total i a e he]
        split
        · exact ⟨trivial, fun _ => ⟨trivial, fun _ => nofun⟩⟩
        · refine ⟨trivial, fun _ => ⟨trivial, fun _ r same => ?_⟩⟩
          cases same
          exact ⟨news, total, a, rfl, rfl⟩

theorem walkStep_hears : (walkStep st total i a).Follows hearing StepEndsAt news := by
  rw [walkStep_eq]
  have gate : (gate i).Follows hearing (fun _ news' => news' = news) news :=
    ⟨trivial, fun _ => (silent_hears ((holdBefore_asks i).mono fun _ hq => hq.1)).bind
      fun _ _ same => ⟨trivial, fun _ => same⟩⟩
  refine gate.bind fun stop _ same => ?_
  subst same
  cases stop with
  | true => exact endStopped_hears
  | false =>
      exact ⟨trivial, fun _ => (made_hears (perform_any st a)).bind fun r _ _ => closeStep_hears r⟩

theorem runFrom_hears (as : List Action) :
    (runFrom st total i as).Follows hearing (fun r news' => EndsAt news' r) news := by
  induction as generalizing i news with
  | nil => exact ⟨trivial, fun _ => trivial⟩
  | cons a as ih =>
      refine walkStep_hears.bind fun o news' ends => ?_
      cases o with
      | some r => exact ends r rfl
      | none => exact ih

/-- **A run that fails has told of the failed step last**, and that it does not go on. -/
theorem run_hears (t : Task) :
    (t.run st).Follows hearing (fun r news' => EndsAt news' r) news :=
  ⟨trivial, fun _ => runFrom_hears t.actions⟩

end Run

/-! ## 4. Calls and their diaries -/

/-- A call asks as it likes, as long as its diary is in order. -/
def keeping (ok : Diary → Prop) : Protocol EngineRequest EngineRequest.Answer Diary :=
  ⟨fun d _ => ok d, Diary.step⟩

/-- A diary that is in order while call `c` is under way. -/
def Call.InOrder : Call → Diary → Prop
  | .start task, d => d.Abreast task
  | _, d => d = .blank

/-- **A diary that goes with what a call returns**: that of a run from its first step to its end, or
a blank one. -/
def Call.Ends : Call → Reply → Diary → Prop
  | .start task, .ended r, d =>
    (∃ result : RunResult, r = result.mapError .run ∧ d.Complete task result) ∨
      ∃ e : EngineError, e.refusal = true ∧ r = .error e ∧ d = .blank
  | _, _, d => d = .blank

section Calls

variable {α : Type} {ok : Diary → Prop} {n : Nat} {task : TaskId} {d : Diary}

theorem Diary.step_unheard {q : EngineRequest} (hq : q.unheard = true) (x : q.Answer) :
    d.step q x = d := by
  cases q with
  | publish e => exact if_pos (by simpa [EngineRequest.unheard] using hq)
  | run k q =>
      cases q with
      | tell news =>
          cases news with
          | step i total a moment => cases hq
          | paused i => rfl
      | _ => rfl
  | _ => rfl

/-- What is unheard leaves a diary in order as it is. -/
theorem unheard_keeps {p : EngineProg α} (hp : p.Asks fun q => q.unheard = true)
    (hd : ok d) : p.Follows (keeping ok) (fun _ d' => d' = d) d :=
  hp.stays (fun _ _ => hd) fun _ x hq => Diary.step_unheard hq x

theorem broadcast_unheard (s : EngineState) :
    (broadcast s).Asks fun q => q.unheard = true := by
  refine ⟨rfl, fun x => ?_⟩
  cases x with
  | ok u => trivial
  | error e => exact ⟨rfl, fun _ => trivial⟩

theorem move_unheard (t : Transition) :
    (move t).Asks fun q => q.unheard = true := by
  refine ⟨rfl, fun x => ?_⟩
  cases x with
  | none => trivial
  | some s => exact (broadcast_unheard s).bind fun _ => trivial

theorem emergencyStop_unheard : emergencyStop.Asks fun q => q.unheard = true := by
  refine ⟨rfl, fun x => ⟨rfl, fun _ => ?_⟩⟩
  cases x with
  | none => trivial
  | some s => exact broadcast_unheard s

theorem unheard_of_records {q : EngineRequest} (h : q.records = true) :
    q.unheard = true := by
  cases q <;> first | rfl | cases h

theorem unheard_of_prepares {q : EngineRequest} (h : q.prepares = true) :
    q.unheard = true := by
  cases q <;> first | rfl | cases h

/-- An event that is no status is in the diary, whatever the publisher answers. -/
theorem publish_keeps {type : EventType} (ht : type ≠ .statusChanged) (data : Json) (hd : ok d)
    (after : ok (d.add ⟨type, some task, data⟩)) :
    (publish type (some task) data).Follows (keeping ok)
      (fun _ d' => d' = d.add ⟨type, some task, data⟩) d := by
  have added : d.step (.publish ⟨type, some task, data⟩) = fun _ => d.add ⟨type, some task, data⟩ :=
    funext fun _ => if_neg ht
  refine ⟨hd, fun x => ?_⟩
  show Prog.Follows _ _ _ (d.step (.publish ⟨type, some task, data⟩) x)
  rw [added]
  cases x with
  | ok u => exact rfl
  | error e => exact ⟨after, fun _ => rfl⟩

/-- **News of a step are passed on** in one event that tells them. -/
theorem progress_keeps (i total : Nat) (a : Action) (moment : Moment) (hd : d.Even task) :
    (progress task (.step i total a moment)).Follows (keeping (Diary.Abreast task))
      (fun _ d' => d'.news = d.news ++ [.step i total a moment] ∧ d'.Even task)
      (d.hear (.step i total a moment)) := by
  have outstanding := hd.abreast_hear (.step i total a moment)
  have told {type : EventType} {data : Json} (ht : type ≠ .statusChanged)
      (he : StepEvent task i total a moment ⟨type, some task, data⟩) :
      (publish type (some task) data).Follows (keeping (Diary.Abreast task))
        (fun _ d' => d'.news = d.news ++ [.step i total a moment] ∧ d'.Even task)
        (d.hear (.step i total a moment)) := by
    have passed : ((d.hear (.step i total a moment)).add _).Even task := hd.passed he
    exact (publish_keeps ht data outstanding passed.abreast).mono fun _ _ same =>
      same ▸ ⟨rfl, passed⟩
  cases moment with
  | started =>
      refine (unheard_keeps (move_unheard _) outstanding).bind fun _ _ same => ?_
      subst same
      exact told (by decide) ⟨rfl, rfl, rfl, rfl, rfl, rfl, trivial⟩
  | completed =>
      refine (unheard_keeps (move_unheard _) outstanding).bind fun _ _ same => ?_
      subst same
      exact told (by decide) ⟨rfl, rfl, rfl, rfl, rfl, rfl, trivial⟩
  | failed e again => exact told (by decide) ⟨rfl, rfl, rfl, rfl, rfl, rfl, rfl, rfl⟩

/-- What a start asks in place of a run's question. -/
theorem runEffect_keeps (q : Request) (news : List StepNews) (hd : d.news = news ∧ d.Even task) :
    (runEffect n task q).Follows (keeping (Diary.Abreast task))
      (fun x d' => d'.news = newsAfter news q x ∧ d'.Even task) d := by
  obtain ⟨rfl, even⟩ := hd
  cases q with
  | tell news =>
      refine ⟨even.abreast, fun _ => ?_⟩
      cases news with
      | paused i => exact ⟨rfl, even⟩
      | step i total a moment => exact progress_keeps i total a moment even
  | _ => exact ⟨even.abreast, fun _ => ⟨rfl, even⟩⟩

/-- The event about the end of a run. -/
def finishEvent (task : TaskId) (result : RunResult) : Event :=
  ⟨.runFinished, some task, finishData result⟩

/-- Giving the engine back adds the event about the end. -/
theorem finish_keeps (result : RunResult) (hd : d.Even task) :
    (finish task result).Follows (keeping (Diary.Abreast task))
      (fun _ d' => d' = d.add (finishEvent task result)) d := by
  have told : (publish .runFinished (some task) (finishData result)).Follows
      (keeping (Diary.Abreast task)) (fun _ d' => d' = d.add (finishEvent task result)) d :=
    publish_keeps (by decide) _ hd.abreast (hd.abreast_add rfl)
  refine (unheard_keeps (move_unheard _) hd.abreast).bind fun _ _ same => ?_
  subst same
  cases result with
  | ok outcome => exact told
  | error f => exact ⟨hd.abreast, fun _ => told⟩

theorem finishEvent_closes (result : RunResult) : Closes task result (finishEvent task result) := by
  rcases result with f | (_ | i) <;> exact ⟨rfl, rfl, rfl⟩

/-- The event about a step that ended its run agrees with the event about the end. -/
theorem StepEvent.agree {f : RunFailure} {total : Nat} {a : Action} {e : Event}
    (h : StepEvent task f.index total a (.failed f.cause false) e) (ha : a.id = f.actionId) :
    Agree f e (finishEvent task (.error f)) where
  type := h.type
  final := h.cause.2
  index := rfl
  sameIndex := h.index
  actionId := rfl
  sameAction := by rw [h.actionId, ha]; rfl
  error := rfl
  cause := ⟨_, f.cause.message, h.cause.1, rfl⟩

/-- **The end completes a diary** whose news end as the run does. -/
theorem Diary.Even.complete {result : RunResult} (hd : d.Even task) (ends : EndsAt d.news result) :
    (d.add (finishEvent task result)).Complete task result := by
  refine ⟨d.events, _, rfl, hd, finishEvent_closes result, ?_⟩
  rintro f rfl
  obtain ⟨earlier, total, a, news, ha⟩ := ends
  -- the news end with the failed step, so the events end with the one that tells of it
  rw [Diary.Even, news] at hd
  have split := hd.flip
  have last := List.forall₂_drop_append _ _ _ split
  obtain ⟨failed, rest, reports, none, drop⟩ := List.forall₂_cons_right_iff.mp last
  obtain rfl := List.forall₂_nil_right_iff.mp none
  refine ⟨d.events.take earlier.length, failed, ?_, StepEvent.agree reports ha⟩
  rw [← drop, List.take_append_drop]

theorem runClaimed_keeps (t : Task) (st : Settings) (hd : d.Even task) (hb : d.news = []) :
    (runClaimed n task t st).Follows (keeping (Diary.Abreast task))
      (fun result d' => d'.Complete task result) d := by
  have run : ((t.run st).expand (runEffect n task)).Follows (keeping (Diary.Abreast task))
      (fun result d' => ∃ news, EndsAt news result ∧ d'.news = news ∧ d'.Even task) d :=
    (run_hears t).expand (fun news (d' : Diary) => d'.news = news ∧ d'.Even task)
      (fun q news _ same _ => runEffect_keeps q news same) ⟨hb, hd⟩
  refine run.bind fun result d' ⟨news, ends, same, even⟩ => ?_
  subst same
  have recorded := (recordRun_asks task result.isOk).mono fun _ => unheard_of_records
  refine (unheard_keeps recorded even.abreast).bind fun _ _ same => ?_
  subst same
  exact (finish_keeps result even).bind fun _ _ same => same ▸ even.complete ends

/-- **A start**, from its first question to what it returns. -/
theorem start_keeps : (start n task).Follows (keeping (Diary.Abreast task))
    (fun r d' => Call.Ends (.start task) (.ended r) d') .blank := by
  have even := Diary.even_blank task
  have prepared : (prepare task).run.Follows (keeping (Diary.Abreast task))
      (fun r d' => d' = .blank ∧ ∀ e, r = .error e → e.refusal = true) .blank :=
    (unheard_keeps ((prepare_asks task).mono fun _ => unheard_of_prepares) even.abreast).with_result
      ((prepare_stands (n := n)).mono fun _ _ h => h.2)
  refine prepared.bind fun r d' ⟨same, refusal⟩ => ?_
  subst same
  cases r with
  | error e => exact .inr ⟨e, refusal e rfl, rfl, rfl⟩
  | ok found =>
      obtain ⟨t, st⟩ := found
      refine ⟨even.abreast, fun now => ⟨even.abreast, fun x => ?_⟩⟩
      cases x with
      | none => exact .inr ⟨.alreadyRunning, rfl, rfl, rfl⟩
      | some s =>
          refine (unheard_keeps (broadcast_unheard s) even.abreast).bind fun _ _ same => ?_
          subst same
          exact (runClaimed_keeps t st even rfl).bind fun result _ complete =>
            .inl ⟨result, rfl, complete⟩

/-- **Every call keeps its diary in order**, and returns with one that goes with what it returns. -/
theorem program_reports (n : Nat) (c : Call) :
    (c.program n).Follows (keeping c.InOrder) c.Ends .blank := by
  have command {β : Type} {c : Call} {p : EngineProg β} {f : β → Reply}
      (hp : p.Asks fun q => q.unheard = true) (hc : c.InOrder .blank)
      (hf : ∀ b, c.Ends (f b) .blank) :
      (p.bind fun b => .done (f b)).Follows (keeping c.InOrder) c.Ends .blank :=
    (unheard_keeps hp hc).bind fun b _ same => by subst same; exact hf b
  cases c with
  | start task => exact start_keeps.bind fun _ _ h => h
  | pause => exact command (move_unheard .pause) rfl fun _ => rfl
  | resume => exact command (move_unheard .resume) rfl fun _ => rfl
  | stop => exact command (move_unheard .stop) rfl fun _ => rfl
  | emergencyStop => exact command emergencyStop_unheard rfl fun _ => rfl

end Calls

/-! ## 5. Runs that were claimed -/

/-- Call `n` has claimed the engine. -/
def Claimed (n : Nat) (log : List Line) : Prop :=
  ∃ run task total startedAt s,
    .answered n (.transition (.claim run task total startedAt)) (some s) ∈ log

/-- **Call `n` gave the engine back with an error**, and whenever it gave it back the engine showed
that error. -/
def ShownAtFinish (n : Nat) (text : String) (log : List Line) : Prop :=
  (∃ s, .answered n (.transition (.finish (some text))) (some s) ∈ log) ∧
    ∀ e x, .answered n (.transition (.finish e)) x ∈ log →
      ∃ s : EngineState, x = some s ∧ s.lastError = some text

section Reachable

variable {m : System} {n : Nat} {text : String}

/-- A call that has claimed the engine does not stand outside. -/
theorem not_outside_of_claimed (hc : Claimed n m.log) : stand n m.log ≠ .outside := by
  obtain ⟨run, task, total, startedAt, s, line⟩ := hc
  obtain ⟨newer, older, hl⟩ := List.append_of_mem line
  intro outside
  have rank : (phase n m.log).rank = 0 := by rw [← rank_stand, outside]; rfl
  have grown : (phase n (.answered n (.transition (.claim run task total startedAt)) (some s) ::
      older)).rank ≤ (phase n (newer ++ _ :: older)).rank := rank_le_append newer
  rw [← hl, rank, phase_answered, if_pos rfl] at grown
  cases hp : phase n older <;> rw [hp] at grown <;> cases grown

/-- What is over stays over as the log grows. -/
theorem past_append {older : List Line} {e : Option String} (hs : stand n older = .past e)
    (newer : List Line) : stand n (newer ++ older) = .past e := by
  induction newer with
  | nil => exact hs
  | cons line newer ih =>
      cases line with
      | called k c => exact ih
      | answered k q x =>
          rw [List.cons_append, stand_answered, ih, Stand.past_step, ite_self]

/-- A call that gave the engine back is over, with that error, and the engine has taken it back. -/
theorem past_of_finish {e : Option String} {x : Option EngineState} (h : Reachable m)
    (hl : .answered n (.transition (.finish e)) x ∈ m.log) :
    stand n m.log = .past e ∧ ∃ e₀ : Engine, x = (e₀.apply (.finish e)).map (·.state) := by
  obtain ⟨newer, older, hl⟩ := List.append_of_mem hl
  obtain ⟨m₁, c, next, h₁, rfl, -, asks, allowed, -⟩ := Reaches.at_answer h rfl hl
  have past : stand n (.answered n (.transition (.finish e)) x :: m₁.log) = .past e := by
    rw [stand_answered, if_pos rfl]
    exact (Call.past_of_finish x (Reachable.stands h₁ asks)).1
  rw [hl]
  exact ⟨past_append past newer, m₁.state, allowed⟩

/-- A run that is over with an error has shown it when it gave the engine back. -/
theorem shown_of_past (h : Reachable m) (hs : stand n m.log = .past (some text)) :
    ShownAtFinish n text m.log := by
  constructor
  · obtain ⟨later, earlier, q, x, hl, before, after⟩ := Machine.phaseAt_came
      (P := fun s : Stand => s = .past (some text)) hs nofun
    obtain rfl := finish_of_past before after
    have line : .answered n (.transition (.finish (some text))) x ∈ m.log := by rw [hl]; simp
    obtain ⟨-, e₀, same⟩ := past_of_finish h line
    rw [same] at line
    exact ⟨_, line⟩
  · intro e x line
    obtain ⟨past, e₀, rfl⟩ := past_of_finish h line
    rw [hs] at past
    cases past
    exact ⟨_, rfl, rfl⟩

/-- The diary of a call under way is in order. -/
theorem Reachable.diary_inOrder {c : Call} {p : EngineProg Reply} (h : Reachable m)
    (ha : m.calls n = some ⟨c, p⟩) : c.InOrder (diary n m.log) := by
  have follows := (Machine.follows_call_of_reaches program_reports h n).2 _ ha
  cases p with
  | ask q next => exact follows.1
  | done r =>
      have ends : c.Ends r (diary n m.log) := follows
      cases c with
      | start task =>
          cases r with
          | ended r =>
              rcases ends with ⟨result, -, complete⟩ | ⟨e, -, -, blank⟩
              · exact complete.abreast
              · exact blank ▸ (Diary.even_blank task).abreast
          | _ => exact (show diary n m.log = .blank from ends) ▸ (Diary.even_blank task).abreast
      | _ => exact ends

/-- **What observers hear of a run.** While a start is under way its events are the news of its run
one to one and in order, but for one that may be outstanding. Once a start that claimed the engine has
returned, they are all its news and then its end, as the start returned it; the text of a failure is
the same in the error returned, in the last event and in the engine when it was given back, and it
ends with the text of the event before. A start that returns another error, and every other call,
tells of no run. -/
theorem run_reported (h : Reachable m) (n : Nat) :
    (∀ task p, m.calls n = some ⟨.start task, p⟩ → (diary n m.log).Abreast task) ∧
    (∀ task r, m.calls n = some ⟨.start task, .done (.ended r)⟩ → Claimed n m.log →
      ∃ result : RunResult, r = result.mapError .run ∧ (diary n m.log).Complete task result ∧
        ∀ f, result = .error f → ShownAtFinish n (EngineError.run f).message m.log) ∧
    (∀ task e, m.calls n = some ⟨.start task, .done (.ended (.error e))⟩ → (∀ f, e ≠ .run f) →
      diary n m.log = .blank) ∧
    ∀ c p, m.calls n = some ⟨c, p⟩ → (∀ task, c ≠ .start task) → diary n m.log = .blank := by
  have ended {task : TaskId} {r : Except EngineError RunOutcome}
      (ha : m.calls n = some ⟨.start task, .done (.ended r)⟩) :
      Call.Ends (.start task) (.ended r) (diary n m.log) := by
    have follows := (Machine.follows_call_of_reaches program_reports h n).2 _ ha
    exact follows
  refine ⟨fun task p ha => h.diary_inOrder ha, fun task r ha claimed => ?_,
    fun task e ha other => ?_, fun c p ha other => ?_⟩
  · rcases h.goes ha with ⟨result', same, past⟩ | ⟨_, -, -, outside⟩
    · rcases ended ha with ⟨result, rfl, complete⟩ | ⟨e, refusal, rfl, -⟩
      · refine ⟨result, rfl, complete, ?_⟩
        rintro f rfl
        cases result' with
        | ok outcome => cases same
        | error f' =>
            obtain rfl := EngineError.run.inj (Except.error.inj same)
            exact shown_of_past h past
      · -- a start that gave the engine back returns no refusal
        cases result' with
        | ok outcome => cases same
        | error f =>
            obtain rfl := Except.error.inj same
            cases refusal
    · exact absurd outside (not_outside_of_claimed claimed)
  · rcases ended ha with ⟨result, same, -⟩ | ⟨_, -, -, blank⟩
    · cases result with
      | ok outcome => cases same
      | error f => exact absurd (Except.error.inj same) (other f)
    · exact blank
  · have inOrder := h.diary_inOrder ha
    cases c with
    | start task => exact absurd rfl (other task)
    | _ => exact inOrder

end Reachable

/-! ## 6. A click that fails -/

section Click

/-- A click on a mouse that is gone; then a start of a task that is not there, and a pause of an engine
at rest. -/
def failedClick : System :=
  Machine.initial Engine.initial
    |> proceedIn (fun _ => some clickTask) (.error (.device "mouse gone")) never 0 (.start ⟨0⟩)
    |> proceedIn (fun _ => none) (.ok ()) never 1 (.start ⟨7⟩) |> proceed never 2 .pause

/-- A click that fails is told of in three events; a start that is refused and a pause tell of no
run. -/
theorem run_reported_click : ∃ m : System, Reachable m ∧
    m.calls 0 = some ⟨.start ⟨0⟩, .done (.ended (.error (.run mouseGone)))⟩ ∧ Claimed 0 m.log ∧
    (diary 0 m.log).Abreast ⟨0⟩ ∧ (diary 0 m.log).Complete ⟨0⟩ (.error mouseGone) ∧
    (diary 0 m.log).events.map (·.type) = [.stepStarted, .stepFailed, .runFinished] ∧
    ShownAtFinish 0 "action a (step 0) failed: dispatch failed: device error: mouse gone" m.log ∧
    m.calls 1 = some ⟨.start ⟨7⟩, .done (.ended (.error (.taskNotFound ⟨7⟩)))⟩ ∧
    diary 1 m.log = .blank ∧
    m.calls 2 = some ⟨.pause, .done (.changed false)⟩ ∧ diary 2 m.log = .blank := by
  have h : Reachable failedClick :=
    ((Reachable.proceed .here never 0 _).proceed never 1 _).proceed never 2 _
  have call₀ : failedClick.calls 0 =
    some ⟨.start ⟨0⟩, .done (.ended (.error (.run mouseGone)))⟩ := rfl
  have call₁ : failedClick.calls 1 =
    some ⟨.start ⟨7⟩, .done (.ended (.error (.taskNotFound ⟨7⟩)))⟩ := rfl
  have call₂ : failedClick.calls 2 = some ⟨.pause, .done (.changed false)⟩ := rfl
  have claimed : Claimed 0 failedClick.log := by
    let s := (Engine.initial.claimed 0 ⟨0⟩ 1 .epoch).state
    exact ⟨0, ⟨0⟩, 1, .epoch, s, List.mem_of_getElem? (show failedClick.log[25]? = _ from rfl)⟩
  obtain ⟨result, same, complete, shown⟩ := (run_reported h 0).2.1 _ _ call₀ claimed
  cases result with
  | ok outcome => cases same
  | error f =>
      cases same
      exact ⟨failedClick, h, call₀, claimed, (run_reported h 0).1 _ _ call₀, complete, rfl,
        shown _ rfl, call₁, (run_reported h 1).2.2.1 _ _ call₁ nofun, call₂,
        (run_reported h 2).2.2.2 _ _ call₂ nofun⟩

end Click
end Engine
end TaskReplay
