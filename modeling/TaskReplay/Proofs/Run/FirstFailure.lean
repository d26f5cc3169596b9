import Mathlib.Data.List.Forall2
import TaskReplay.Proofs.Run.Parts
import TaskReplay.Proofs.Run.StopSafety

/-!
# What decides how a run ends

The first failure inside a step decides how the step ends, and what inner steps say about going on after
an error decides nothing:

* `FirstFailure` -- how a step with inner steps comes to fail: with the last answer of all, or because
  one of the steps fails of itself; `first_failure` -- **so it is**, with that very error;
* `Action.outline` -- a step without its words, and without what its inner steps say about errors;
  `execute_outline` -- nothing else counts for what it does;
* `Retells` -- two programs that do the same, and tell observers of steps with one outline;
* `Film.Retold` -- two films that show the same but for such words; `play_retold` -- what programs that
  retell each other look like;
* `first_failure_decides` -- **both together**.
-/

namespace TaskReplay

open Script

/-! ## 1. The first failure -/

/-- **How a step comes to fail** with `e`: by its last part, whose log is `last`. -/
inductive FirstFailure (st : Settings) (a : Action) (e : StepError) (u : Scene) (last : List Turn)
    (t : Scene) : Prop where
  /-- A search or a call failed, or a stop was seen, and that was the last answer of all. -/
  | answer {α : Type} {m : Script α} (part : Part st a α m) (plays : Plays m.run u last (.error e) t)
      (before : List Turn) (v : Turn) (ends : last = before ++ [v]) (failed : v.failure? = some e)
      (smooth : Smooth before)
  /-- The step or one inside it failed of itself, with no answer that is an error. -/
  | itself {b : Action} (inside : b ∈ a.walk) {α : Type} {m : Script α} (own : b.Own st α m)
      (plays : Plays m.run u last (.error e) t) (fails : b.Fails e) (smooth : Smooth last)

/-- **A step that fails, fails with the first failure in it.** -/
theorem first_failure {st : Settings} {a : Action} {s t : Scene} {log : List Turn} {e : StepError}
    (h : Plays (a.execute st).run s log (.error e) t) :
    ∃ before last u, log = before ++ last ∧ InParts (Part st a) s before none u ∧ Smooth before ∧
      FirstFailure st a e u last t := by
  obtain ⟨before, last, u, α, m, split, well, part, fails⟩ := (execute_inParts h).failing
  refine ⟨before, last, u, split, well, well.smooth, ?_⟩
  cases part with
  | @own b α m inside own =>
      cases MadeOf.meets (own_made own) fails with
      | answer pre v ends failed smooth => exact .answer (.own inside own) fails pre v ends failed smooth
      | itself own_failure smooth => exact .itself inside own fails own_failure smooth
  | @delay b ms inside given =>
      have made : MadeOf (fun _ => True) (fun _ => False) (Script.sleep ms.toNat) := .sleep _
      cases MadeOf.meets made fails with
      | answer pre v ends failed smooth => exact .answer (.delay inside given) fails pre v ends failed smooth
      | itself never smooth => cases never

/-! ## 2. Outlines -/

/-- A header without words. -/
def Header.wordless (h : Header) : Header := { h with description := none }

/-- A header without words and without what it says about errors. -/
def Header.bare (h : Header) : Header := { h.wordless with continueOnError := false }

mutual

/-- A step without words, and without what it and its inner steps say about errors. -/
def Action.bare : Action → Action
  | .simple h d => .simple h.bare d
  | .condition h t x y => .condition h.bare t (bareAll x) (bareAll y)
  | .loop h r b => .loop h.bare r (bareAll b)

/-- A sequence of such steps. -/
def bareAll : List Action → List Action
  | [] => []
  | a :: rest => a.bare :: bareAll rest

end

/-- **The outline of a step**: what it says about errors stays, what its inner steps say does not, and no
words do. -/
def Action.outline (a : Action) : Action := a.bare.withHeader a.header.wordless

section Outlines

variable (st : Settings)

mutual

/-- What a step does without all that. -/
theorem execute_bare : (a : Action) → a.bare.execute st = a.execute st
  | .simple _ _ => rfl
  | .condition h test x y => by
      simp only [Action.bare, Action.execute, executeAll_bare x, executeAll_bare y]
      rfl
  | .loop h r b => by
      simp only [Action.bare, Action.execute, executeAll_bare b]
      rfl

theorem executeAll_bare : (as : List Action) → executeAll st (bareAll as) = executeAll st as
  | [] => rfl
  | a :: rest => by
      have header : a.bare.header = a.header.bare := by cases a <;> rfl
      simp only [bareAll, executeAll, execute_bare a, executeAll_bare rest, header]
      rfl

end

/-- **What a step does depends on its outline only.** -/
theorem execute_outline (a : Action) : a.outline.execute st = a.execute st := by
  rw [← execute_bare st a]
  cases a <;> rfl

variable {st} {a a' : Action}

theorem execute_eq_of_outline (same : a.outline = a'.outline) : a.execute st = a'.execute st := by
  rw [← execute_outline, same, execute_outline]

/-- Steps with one outline have the same header but for the words. -/
theorem header_of_outline (same : a.outline = a'.outline) :
    a.header.id = a'.header.id ∧ a.header.delayBefore = a'.header.delayBefore ∧
      a.header.delayAfter = a'.header.delayAfter ∧
      a.header.continueOnError = a'.header.continueOnError := by
  have header : a.header.wordless = a'.header.wordless := by
    have kept (b : Action) : b.outline.header = b.header.wordless := Action.header_withHeader _ _
    rw [← kept, same, kept]
  simpa only [Header.wordless, Header.mk.injEq, true_and] using header

theorem perform_eq_of_outline (same : a.outline = a'.outline) : a.perform st = a'.perform st := by
  obtain ⟨-, before, -, -⟩ := header_of_outline same
  rw [Action.perform, Action.perform, before, execute_eq_of_outline same]

theorem recover_eq_of_outline (same : a.outline = a'.outline) : a.recover st = a'.recover st := by
  obtain ⟨-, -, after, -⟩ := header_of_outline same
  rw [Action.recover, Action.recover, after]

end Outlines

/-! ## 3. Programs that retell each other -/

/-- **Two programs that do the same**, but that the steps of which they tell observers may differ as far as
their outlines do not. -/
inductive Retells {α : Type} : RunProg α → RunProg α → Prop where
  | done (x : α) : Retells (.done x) (.done x)
  | ask (q : Request) {next next' : q.Answer → RunProg α} (rest : ∀ x, Retells (next x) (next' x)) :
      Retells (.ask q next) (.ask q next')
  | tell {index total : Nat} {a a' : Action} {moment : Moment} {next next' : Unit → RunProg α}
      (same : a.outline = a'.outline) (rest : ∀ x, Retells (next x) (next' x)) :
      Retells (.ask (.tell (.step index total a moment)) next)
        (.ask (.tell (.step index total a' moment)) next')

section Retelling

variable {α β : Type} {st : Settings} {a a' : Action}

theorem Retells.refl (p : RunProg α) : Retells p p := by
  induction p with
  | done x => exact .done x
  | ask q next ih => exact .ask q ih

theorem Retells.bind {p p' : RunProg α} {f f' : α → RunProg β} (h : Retells p p')
    (hf : ∀ x, Retells (f x) (f' x)) : Retells (p.bind f) (p'.bind f') := by
  induction h with
  | done x => exact hf x
  | ask q _ ih => exact .ask q ih
  | tell same _ ih => exact .tell same ih

theorem closeStep_retells (same : a.outline = a'.outline) (total i : Nat) (x : Except StepError Unit) :
    Retells (closeStep st total i a x) (closeStep st total i a' x) := by
  obtain ⟨id, -, -, goes_on⟩ := header_of_outline same
  cases x with
  | ok u =>
      simp only [closeStep, recover_eq_of_outline same, Prog.bind_eq, Request.ask, Prog.request_bind]
      exact .tell same fun _ => .refl _
  | error e =>
      by_cases stopped : e = .interrupted
      · subst stopped
        exact .refl _
      · rw [closeStep.eq_3 st total i a e stopped, closeStep.eq_3 st total i a' e stopped]
        rw [Action.id, Action.id, id, goes_on]
        split
        · exact .ask _ fun _ => .tell same fun _ => .refl _
        · exact .tell same fun _ => .refl _

theorem walkStep_retells (same : a.outline = a'.outline) (total i : Nat) :
    Retells (walkStep st total i a) (walkStep st total i a') := by
  rw [walkStep_eq, walkStep_eq, perform_eq_of_outline same]
  refine (Retells.refl (gate i)).bind fun stop => ?_
  cases stop with
  | true => exact .refl _
  | false => exact .tell same fun _ => (Retells.refl _).bind fun x => closeStep_retells same total i x

theorem runFrom_retells (total i : Nat) {as as' : List Action}
    (same : as.map Action.outline = as'.map Action.outline) :
    Retells (runFrom st total i as) (runFrom st total i as') := by
  induction as generalizing i as' with
  | nil =>
      obtain rfl : as' = [] := List.map_eq_nil_iff.mp same.symm
      exact .refl _
  | cons a as ih =>
      cases as' with
      | nil => cases same
      | cons a' as' =>
          obtain ⟨first, rest⟩ := List.cons.inj same
          refine (walkStep_retells first total i).bind fun o => ?_
          cases o with
          | some r => exact .refl _
          | none => exact ih (i + 1) rest

/-- **Runs of tasks whose steps have the same outlines retell each other.** -/
theorem run_retells {task task' : Task}
    (same : task.actions.map Action.outline = task'.actions.map Action.outline) :
    Retells (task.run st) (task'.run st) := by
  have total : task.actions.length = task'.actions.length := by
    simpa only [List.length_map] using congrArg List.length same
  refine .ask _ fun _ => ?_
  rw [total]
  exact runFrom_retells _ 0 same

end Retelling

/-! ## 4. Films that retell each other -/

/-- Two requests that are the same, or tell the same of steps with one outline. -/
inductive Request.Retold : Request → Request → Prop where
  | same (q : Request) : Retold q q
  | told {index total : Nat} {a a' : Action} {moment : Moment} (same : a.outline = a'.outline) :
      Retold (.tell (.step index total a moment)) (.tell (.step index total a' moment))

/-- **Two shots at the same times**, with the same wishes, of such requests. -/
inductive Shot.Retold : Shot → Shot → Prop where
  | same (u : Shot) : Retold u u
  | told {q q' : Request} (h : q.Retold q') (begun : Nat) (wishes : List (Nat × List Wish))
      (ended : Option Nat) :
      Retold ⟨.request q, begun, wishes, ended⟩ ⟨.request q', begun, wishes, ended⟩

/-- **Two films that show the same**, but for the words about steps. -/
structure Film.Retold (f f' : Film) : Prop where
  now : f'.now = f.now
  scene : f'.scene = f.scene
  shots : List.Forall₂ Shot.Retold f.shots f'.shots

/-- How long things take does not depend on words about steps. -/
def Surroundings.Deaf (w : Surroundings) : Prop :=
  ∀ asked asked' now, List.Forall₂ Request.Retold asked asked' → w.lasts asked' now = w.lasts asked now

section Films

variable {w : Surroundings} {plan : Plan} {f f' : Film} {q q' : Request} {α : Type}

theorem Film.Retold.refl (f : Film) : Film.Retold f f :=
  ⟨rfl, rfl, List.forall₂_same.mpr fun u _ => .same u⟩

/-- What is asked is retold. -/
theorem Film.Retold.asked (h : Film.Retold f f') :
    List.Forall₂ Request.Retold f.asked f'.asked := by
  refine List.rel_filterMap ?_ h.shots
  intro u u' hu
  cases hu with
  | same =>
      show Option.Rel Request.Retold u.cue.request? u.cue.request?
      cases u.cue.request? with
      | none => exact .none
      | some q => exact .some (.same q)
  | told retold begun wishes ended => exact .some retold

/-- Of requests that are retold, those that are no news are the same. -/
theorem filter_retold {P : Request → Bool} (silent : ∀ news, P (.tell news) = false)
    {qs qs' : List Request} (h : List.Forall₂ Request.Retold qs qs') :
    qs'.filter P = qs.filter P := by
  induction h with
  | nil => rfl
  | cons head tail ih =>
      cases head with
      | same q => rw [List.filter_cons, List.filter_cons, ih]
      | told same =>
          simp only [List.filter_cons, silent, Bool.false_eq_true, if_false]
          exact ih

theorem Film.Retold.calls (h : Film.Retold f f') : f'.calls = f.calls := by
  rw [Film.calls, Film.calls, List.filter_reverse, List.filter_reverse,
    filter_retold (fun _ => rfl) h.asked]

/-- **Calls are made at the same times.** -/
theorem Film.Retold.timetable (h : Film.Retold f f') : f'.timetable = f.timetable := by
  have calls : List.Forall₂ Eq (f.shots.filterMap Shot.call?) (f'.shots.filterMap Shot.call?) := by
    refine List.rel_filterMap ?_ h.shots
    intro u u' hu
    have shown : u'.call? = u.call? := by
      cases hu with
      | same => rfl
      | told retold begun wishes ended => cases retold <;> rfl
    rw [shown]
    cases u.call? with
    | none => exact .none
    | some call => exact .some rfl
  rw [List.forall₂_eq_eq_eq] at calls
  rw [Film.timetable, Film.timetable, calls]

/-- A request that is retold is waited for in the same way. -/
theorem Film.Retold.wait (deaf : w.Deaf) (h : Film.Retold f f') (hq : q.Retold q') :
    f'.wait w q' = f.wait w q := by
  have lasts : w.lasts (q' :: f'.asked) f'.now = w.lasts (q :: f.asked) f.now := by
    rw [h.now]
    exact deaf _ _ _ (.cons hq h.asked)
  cases hq with
  | told same =>
      show Suspension.settle (f'.now + _) = .settle (f.now + _)
      rw [lasts, h.now]
  | same q =>
      rw [h.now] at lasts
      cases q <;> simp [Film.wait, h.now, h.scene, lasts]

/-- **A request that is retold leaves films retold.** -/
theorem Film.Retold.take (deaf : w.Deaf) (plan : Plan) (h : Film.Retold f f') (hq : q.Retold q') :
    Film.Retold (f.take w plan q) (f'.take w plan q') ∧
      (f'.shot w plan q').ended = (f.shot w plan q).ended := by
  have wished : f'.wished plan = f.wished plan := by
    rw [Film.wished, Film.wished, h.asked.length_eq, h.now]
  have shot : f'.shot w plan q' = { f.shot w plan q with cue := .request q' } := by
    simp only [Film.shot, h.wait deaf hq, wished, h.scene, h.now]
  have after (s : Scene) : s.after q' = s.after q := by cases hq <;> rfl
  refine ⟨⟨?_, ?_, ?_⟩, by rw [shot]⟩
  · simp only [Film.take, shot, h.now]
  · simp only [Film.take, shot, h.scene, after]
  · refine .cons ?_ h.shots
    rw [shot]
    exact .told hq _ _ _

theorem Film.Retold.answer {g g' : Film} (h : Film.Retold f f') (h' : Film.Retold g g') (q : Request) :
    f'.answer w g' q = f.answer w g q := by
  have lots : f'.asked.countP Request.isDraw = f.asked.countP Request.isDraw := by
    rw [List.countP_eq_length_filter, List.countP_eq_length_filter,
      filter_retold (fun _ => rfl) h.asked]
  cases q <;> simp only [Film.answer, h.scene, h'.scene, h'.now, h'.calls, lots]

/-- **What programs that retell each other look like**: the same, but for the words. -/
theorem play_retold (deaf : w.Deaf) (plan : Plan) {p p' : RunProg α} (hp : Retells p p')
    (h : Film.Retold f f') :
    (f'.play w plan p'.quiet).1 = (f.play w plan p.quiet).1 ∧
      Film.Retold (f.play w plan p.quiet).2 (f'.play w plan p'.quiet).2 := by
  induction hp generalizing f f' with
  | done x => exact ⟨rfl, h⟩
  | ask q _ ih =>
      obtain ⟨after, ended⟩ := h.take deaf plan (.same q)
      simp only [RunProg.quiet, Film.play, ended, h.answer after]
      split
      · exact ih _ after
      · exact ⟨rfl, after⟩
  | @tell index total a a' moment next next' same _ ih =>
      -- what observers hear differs, but neither how long it takes them nor what comes of it
      have told : Request.Retold (.tell (.step index total a moment))
          (.tell (.step index total a' moment)) := .told same
      obtain ⟨after, ended⟩ := h.take deaf plan told
      simp only [RunProg.quiet, Film.play, ended]
      split
      · exact ih _ after
      · exact ⟨rfl, after⟩

end Films

/-! ## 5. Both together -/

/-- **The first failure decides, and what inner steps say about errors does not.** A step that fails does so
with the error of its last part, all parts before it ended well, and that error is the last answer of all
or the own failure of a step inside. And two tasks whose steps have the same outlines do the same in the
same surroundings and with the same commands, from wherever they begin: they come to one result, with the
same calls at the same times, and all else that happens, and what the run owns in the end, is the same but
for words. -/
theorem first_failure_decides (st : Settings) :
    (∀ (a : Action) (s t : Scene) (log : List Turn) (e : StepError),
      Plays (a.execute st).run s log (.error e) t →
      ∃ before last u, log = before ++ last ∧ InParts (Part st a) s before none u ∧ Smooth before ∧
        FirstFailure st a e u last t) ∧
    ∀ (w : Surroundings) (plan : Plan), w.Deaf → ∀ task task' : Task,
      task.actions.map Action.outline = task'.actions.map Action.outline → ∀ f : Film,
      let x := f.play w plan (task.run st).quiet
      let x' := f.play w plan (task'.run st).quiet
      x'.1 = x.1 ∧ x'.2.timetable = x.2.timetable ∧ x'.2.scene = x.2.scene ∧ x.2.Retold x'.2 := by
  refine ⟨fun a s t log e h => first_failure h, fun w plan deaf task task' same f => ?_⟩
  have retells : Retells (task.run st) (task'.run st) := run_retells same
  obtain ⟨result, retold⟩ := play_retold deaf plan retells (.refl f)
  exact ⟨result, retold.timetable, retold.scene, retold⟩

/-- A loop whose only step names no key, and says that it goes on after an error. -/
def keylessLoop : Action :=
  .loop (.named "l") ⟨.infinite, none, none, some 5⟩
    [.simple { Header.named "k" with continueOnError := true } (.pressKey "no key")]

/-- Its log: one look at pause and stop. -/
def keylessLog : List Turn := [⟨.awaitResume, [], false⟩, ⟨.stopped, [], false⟩]

/-- `keyLoop`, with a step that says that it goes on after an error. -/
def forgivingKeyLoop : Task :=
  .ofActions [.loop { Header.named "l" with description := some "keys" } ⟨.infinite, none, none, some 5⟩
    [.simple { Header.named "k" with continueOnError := true } (.pressKey "a"),
      .simple (.named "w") (.wait (some 100) 0)]]

/-- The loop fails in its first round, and the two loops with keys make their calls at the same times. -/
theorem first_failure_decides_keys :
    Plays (keylessLoop.execute .initial).run ⟨.fresh, .fresh⟩ keylessLog
        (.error (.unknownKey ["no key"])) ⟨.fresh, .fresh⟩ ∧
      (∃ before last u, keylessLog = before ++ last ∧ Smooth before ∧
        FirstFailure .initial keylessLoop (.unknownKey ["no key"]) u last ⟨.fresh, .fresh⟩) ∧
      Surroundings.prompt.Deaf ∧
      keyLoop.actions.map Action.outline = forgivingKeyLoop.actions.map Action.outline ∧
      (Film.play .prompt stopSecond (forgivingKeyLoop.run .initial).quiet
          (.blank stopSecond 0 .fresh)).2.timetable =
        (Film.play .prompt stopSecond (keyLoop.run .initial).quiet
          (.blank stopSecond 0 .fresh)).2.timetable := by
  have fails : Plays (keylessLoop.execute .initial).run ⟨.fresh, .fresh⟩ keylessLog
      (.error (.unknownKey ["no key"])) ⟨.fresh, .fresh⟩ := by
    iterate 2 refine Plays.turn _ _ (.inr rfl) (by trivial) ?_
    exact .done _ _
  have deaf : Surroundings.prompt.Deaf := fun _ _ _ _ => rfl
  have same : keyLoop.actions.map Action.outline = forgivingKeyLoop.actions.map Action.outline := rfl
  obtain ⟨decides, retells⟩ := first_failure_decides .initial
  obtain ⟨before, last, u, split, -, smooth, first⟩ := decides _ _ _ _ _ fails
  exact ⟨fails, ⟨before, last, u, split, smooth, first⟩, deaf, same,
    (retells .prompt stopSecond deaf _ _ same (.blank stopSecond 0 .fresh)).2.1⟩

end TaskReplay
