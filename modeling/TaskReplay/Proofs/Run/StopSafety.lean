import TaskReplay.Proofs.Run.Film
import TaskReplay.Proofs.Run.Heed

/-!
# What a stop does to a run

A run that is stopped, on film, beside the same run that is not:

* `StopSafe` -- once a stop is wished no step of the walk begins, no loop goes past its look at pause
  and stop, no step at any depth begins twice, and no wait of the run takes any more time;
* `Tracks` -- where a run stands towards a stop, against its film; `Tracks.play` -- a run that keeps
  to `heed` is safe;
* `Alike` -- two films of one run that differ at most in that a stop is wished in the first;
  `calls_prefix` -- the calls of the first are the first calls of the second, since a run whose
  answers tell of the stop makes no more calls;
* `stopped_film_safe` -- **the two for whole runs**.
-/

namespace TaskReplay

/-! ## 1. Waits of a run -/

/-- A wait of the run itself: a sleep, or the wait for a pause to end. -/
def Request.rests : Request → Bool
  | .sleep _ | .awaitResume => true
  | _ => false

/-- Whether what is wished decides the answer or when it comes. -/
def Request.heeds : Request → Bool
  | .sleep _ | .stopped | .pausePending | .awaitResume => true
  | _ => false

namespace Film

variable {w : Surroundings} {plan : Plan} {f g : Film} {q : Request} {α : Type}

theorem wait_rests (h : q.rests = true) : (f.wait w q).heeds = true ∨ f.wait w q = .settle f.now := by
  cases q with
  | sleep ms => exact .inl rfl
  | awaitResume =>
      simp only [wait]
      split
      · exact .inl rfl
      · exact .inr rfl
  | _ => cases h

/-- Once a stop is wished, a wait of the run takes no time. -/
theorem rest_stopped (h : q.rests = true) (stopped : f.scene.control.stopped = true) :
    (f.shot w plan q).ended = some f.now := by
  rcases wait_rests (w := w) (f := f) h with heeds | settles
  · exact (Suspension.endure_stopped heeds stopped f.now _).1
  · have ends := (Suspension.endure_settle (Nat.le_refl f.now) f.scene.control (f.wished plan)).1
    rw [← settles] at ends
    exact ends

/-- A stop that comes in a wait of the run ends it. -/
theorem rest_stop (h : q.rests = true) {e : Nat × List Wish} (he : e ∈ (f.shot w plan q).wishes)
    (stop : Wish.stop ∈ e.2) : (f.shot w plan q).ended = some e.1 := by
  rcases wait_rests (w := w) (f := f) h with heeds | settles
  · exact Suspension.endure_stop heeds _ f.now _ he stop
  · have ends := Suspension.endure_settle (Nat.le_refl f.now) f.scene.control (f.wished plan)
    rw [← settles] at ends
    have time := ends.2 e he
    rw [show e.1 = f.now by omega]
    exact ends.1

@[simp] theorem shots_take : (f.take w plan q).shots = f.shot w plan q :: f.shots := rfl

/-- A stop is for good. -/
theorem stopped_take : (f.take w plan q).scene.control.stopped =
    ((f.shot w plan q).stops || f.scene.control.stopped) := by
  rw [Bool.eq_iff_iff]
  simp [take, Scene.stopped_wishes, Shot.stops, or_comm]

end Film

/-! ## 2. One film -/

/-- The place of the step that begins, if one does. -/
def Cue.entered? : Cue → Option Place
  | enter place => some place
  | request _ | round _ => none

/-- Whether a stop was wished before a run or in one of its shots. -/
def stopCame (plan : Plan) (us : List Shot) : Bool :=
  us.any Shot.stops || plan.before.contains .stop

/-- The shots that were begun after a stop was wished, latest first like all of them. -/
def late (plan : Plan) : List Shot → List Shot
  | [] => []
  | u :: earlier => if stopCame plan earlier then u :: late plan earlier else late plan earlier

/-- The places of the steps that began after a stop was wished. -/
def entered (plan : Plan) (us : List Shot) : List Place :=
  (late plan us).filterMap fun u => u.cue.entered?

/-- **What a run does after a stop is wished**, told by its shots. -/
structure StopSafe (plan : Plan) (us : List Shot) : Prop where
  /-- No step of the walk begins. -/
  starts : ∀ u ∈ late plan us, ∀ q, u.cue = .request q → q.begins = false
  /-- No loop goes past its look at pause and stop. -/
  rounds : ∀ u ∈ late plan us, ∀ place, u.cue ≠ .round place
  /-- No step at any depth begins twice. -/
  once : (entered plan us).Nodup
  /-- No wait of the run takes time. -/
  rests : ∀ u ∈ late plan us, ∀ q, u.cue = .request q → q.rests = true → u.ended = some u.begun
  /-- A wait of the run in which a stop comes ends with it. -/
  ends : ∀ u ∈ us, ∀ q, u.cue = .request q → q.rests = true →
    ∀ e ∈ u.wishes, Wish.stop ∈ e.2 → u.ended = some e.1

/-- Where a run stands towards a stop, against its film so far. -/
structure Tracks (plan : Plan) (φ : Heed) (f : Film) : Prop where
  safe : StopSafe plan f.shots
  stopped : f.scene.control.stopped = stopCame plan f.shots
  /-- Right after a look that found no stop, none is wished. -/
  clear : φ.stance = .clear → f.scene.control.stopped = false
  /-- The steps that began after a stop was wished have begun since the last such look. -/
  begun : entered plan f.shots ⊆ φ.begun

section One

variable {w : Surroundings} {plan : Plan} {φ : Heed} {f : Film} {α : Type} {u : Shot} {us : List Shot}

theorem stopCame_cons : stopCame plan (u :: us) = (u.stops || stopCame plan us) := Bool.or_assoc ..

theorem late_eq_nil (h : stopCame plan us = false) : late plan us = [] := by
  induction us with
  | nil => rfl
  | cons u us ih =>
      have earlier : stopCame plan us = false := (Bool.or_eq_false_iff.mp (stopCame_cons ▸ h)).2
      simp [late, earlier, ih earlier]

theorem entered_cons : entered plan (u :: us) =
    if stopCame plan us then u.cue.entered?.toList ++ entered plan us else entered plan us := by
  rw [entered, late]
  split
  · cases h : u.cue.entered? <;> simp [entered, h]
  · rfl

theorem StopSafe.nil (plan : Plan) : StopSafe plan [] where
  starts _ hu := (List.not_mem_nil hu).elim
  rounds _ hu := (List.not_mem_nil hu).elim
  once := List.nodup_nil
  rests _ hu := (List.not_mem_nil hu).elim
  ends _ hu := (List.not_mem_nil hu).elim

/-- One more shot. -/
theorem StopSafe.cons (h : StopSafe plan us)
    (stopped : stopCame plan us = true → (∀ place, u.cue ≠ .round place) ∧
      (∀ place, u.cue = .enter place → place ∉ entered plan us) ∧
      ∀ q, u.cue = .request q → q.begins = false ∧ (q.rests = true → u.ended = some u.begun))
    (ends : ∀ q, u.cue = .request q → q.rests = true →
      ∀ e ∈ u.wishes, Wish.stop ∈ e.2 → u.ended = some e.1) : StopSafe plan (u :: us) := by
  have split {P : Shot → Prop} (one : stopCame plan us = true → P u)
      (more : ∀ v ∈ late plan us, P v) : ∀ v ∈ late plan (u :: us), P v := by
    intro v hv
    rw [late] at hv
    split at hv
    · next hu => exact (List.mem_cons.mp hv).elim (fun same => same ▸ one hu) (more v)
    · exact more v hv
  refine ⟨split (fun hu q hq => ((stopped hu).2.2 q hq).1) h.starts,
    split (fun hu => (stopped hu).1) h.rounds, ?_,
    split (fun hu q hq => ((stopped hu).2.2 q hq).2) h.rests,
    List.forall_mem_cons.mpr ⟨ends, h.ends⟩⟩
  rw [entered_cons]
  split
  · next hu =>
    cases hc : u.cue with
    | enter place => exact List.nodup_cons.mpr ⟨(stopped hu).2.1 place hc, h.once⟩
    | request q => exact h.once
    | round place => exact h.once
  · exact h.once

/-- While no stop is wished, no step has begun after one. -/
theorem Tracks.entered_eq_nil (h : Tracks plan φ f) (unstopped : f.scene.control.stopped = false) :
    entered plan f.shots = [] := by
  rw [entered, late_eq_nil (h.stopped ▸ unstopped), List.filterMap_nil]

/-- A step begins. -/
theorem Tracks.enter {place : Place} (h : Tracks plan φ f) (may : heed.may φ (.enter place)) :
    Tracks plan (heed.step φ (.enter place) ()) (f.cut (.enter place)) where
  safe := by
    refine h.safe.cons (fun _ => ⟨?_, ?_, ?_⟩) ?_
    · rintro _ ⟨⟩
    · rintro _ ⟨⟩ mem
      exact may.2 (h.begun mem)
    · rintro _ ⟨⟩
    · rintro _ ⟨⟩
  stopped := h.stopped
  clear := nofun
  begun := by
    show entered plan (_ :: f.shots) ⊆ place :: φ.begun
    rw [entered_cons]
    split
    · exact List.cons_subset_cons place h.begun
    · exact List.Subset.trans h.begun (List.subset_cons_self _ _)

/-- A loop goes on. -/
theorem Tracks.round {place : Place} (h : Tracks plan φ f) (may : heed.may φ (.round place)) :
    Tracks plan (heed.step φ (.round place) ()) (f.cut (.round place)) where
  safe := by
    refine h.safe.cons (fun stopped => ?_) ?_
    · rw [← h.stopped, h.clear may] at stopped
      cases stopped
    · rintro _ ⟨⟩
  stopped := h.stopped
  clear := nofun
  begun := by
    show entered plan (_ :: f.shots) ⊆ φ.begun
    rw [entered_cons]
    split <;> exact h.begun

/-- Only a look that finds no stop leaves a run clear, and only then it counts steps anew. -/
theorem step_request (q : Request) (g : Film) :
    g.scene.control.stopped = false ∨
      (heed.step φ (.request q) (f.answer w g q)).stance ≠ .clear ∧
        (heed.step φ (.request q) (f.answer w g q)).begun = φ.begun := by
  cases q with
  | stopped =>
      simp only [heed, Film.answer]
      cases g.scene.control.stopped
      · exact .inl rfl
      · exact .inr ⟨nofun, rfl⟩
  | sleep ms => exact .inr ⟨by simp only [heed]; split <;> nofun, rfl⟩
  | pausePending => exact .inr ⟨by simp only [heed]; split <;> nofun, rfl⟩
  | mark m => exact .inr ⟨by cases h : φ.stance <;> simp [heed, Stance.noted, h], rfl⟩
  | _ => exact .inr ⟨nofun, rfl⟩

theorem begins_clear {q : Request} (may : heed.may φ (.request q)) (begins : q.begins = true) :
    φ.stance = .clear := by
  cases q with
  | tell news => exact may.2 begins
  | _ => cases begins

/-- A request is answered. -/
theorem Tracks.request {q : Request} (h : Tracks plan φ f) (may : heed.may φ (.request q)) :
    Tracks plan (heed.step φ (.request q) (f.answer w (f.take w plan q) q)) (f.take w plan q) := by
  have same : entered plan (f.take w plan q).shots = entered plan f.shots := by
    rw [Film.shots_take, entered_cons]
    split <;> rfl
  refine ⟨h.safe.cons (fun came => ⟨nofun, nofun, ?_⟩) ?_, ?_, fun clear => ?_, ?_⟩
  · have stopped : f.scene.control.stopped = true := h.stopped.trans came
    rintro q ⟨⟩
    refine ⟨?_, fun rests => Film.rest_stopped rests stopped⟩
    cases begins : q.begins with
    | false => rfl
    | true =>
        rw [h.clear (begins_clear may begins)] at stopped
        cases stopped
  · rintro q ⟨⟩ rests e he stop
    exact Film.rest_stop rests he stop
  · rw [Film.stopped_take, h.stopped, Film.shots_take, stopCame_cons]
  · exact (step_request q _).resolve_right fun other => other.1 clear
  · rw [same]
    rcases step_request (φ := φ) (w := w) (f := f) q (f.take w plan q) with unstopped | ⟨-, begun⟩
    · rw [Film.stopped_take] at unstopped
      exact h.entered_eq_nil (Bool.or_eq_false_iff.mp unstopped).2 ▸ List.nil_subset _
    · exact begun ▸ h.begun

/-- **A run that keeps to the order is safe.** -/
theorem Tracks.play {post : α → Heed → Prop} {p : CueProg α} (hp : p.Follows heed post φ)
    (h : Tracks plan φ f) : StopSafe plan (f.play w plan p).2.shots := by
  induction p generalizing φ f with
  | done a => exact h.safe
  | ask c next ih =>
      cases c with
      | enter place => exact ih () (hp.2 ()) (h.enter hp.1)
      | round place => exact ih () (hp.2 ()) (h.round hp.1)
      | request q =>
          have after := h.request (w := w) hp.1
          simp only [Film.play]
          split
          · exact ih _ (hp.2 _) after
          · exact after.safe

end One

/-! ## 3. Two films -/

namespace Film

variable {w : Surroundings} {plan : Plan} {f g : Film} {q : Request}

theorem calls_take : (f.take w plan q).calls = f.calls ++ [q].filter Request.isCall := by
  simp [calls]

/-- Calls once made stay made. -/
theorem calls_grow {α : Type} (p : CueProg α) (f : Film) : f.calls <+: (f.play w plan p).2.calls := by
  induction p generalizing f with
  | done a => exact List.prefix_refl _
  | ask c next ih =>
      cases c with
      | enter place => exact ih () (f.cut (.enter place))
      | round place => exact ih () (f.cut (.round place))
      | request q =>
          have one : f.calls <+: (f.take w plan q).calls := calls_take ▸ List.prefix_append _ _
          simp only [play]
          split
          · exact one.trans (ih _ _)
          · exact one

/-- A request that heeds no wish takes a time that does not depend on what is wished. -/
theorem ended_calm (calm : q.heeds = false) (f : Film) : ∃ due, ∀ (g : Film) (plan : Plan),
    g.now = f.now → g.asked = f.asked → (g.shot w plan q).ended = some due := by
  have settles : ∃ due, f.now ≤ due ∧ ∀ g : Film, g.now = f.now → g.asked = f.asked →
      g.wait w q = .settle due := by
    cases hq : q with
    | settle ms => exact ⟨f.now + ms, Nat.le_add_right _ _, fun g now _ => by rw [wait, now]⟩
    | sleep ms => cases hq ▸ calm
    | awaitResume => cases hq ▸ calm
    | _ =>
        exact ⟨f.now + w.lasts (q :: f.asked) f.now, Nat.le_add_right _ _, fun g now asked => by
          simp only [hq, wait, now, asked]⟩
  obtain ⟨due, since, settles⟩ := settles
  refine ⟨due, fun g plan now asked => ?_⟩
  have ends := (Suspension.endure_settle (now ▸ since) g.scene.control (g.wished plan)).1
  rw [← settles g now asked] at ends
  exact ends

end Film

/-- **Two films of one run** that differ at most in that a stop is wished in the first. -/
structure Alike (f g : Film) : Prop where
  now : f.now = g.now
  context : f.scene.context = g.scene.context
  asked : f.asked = g.asked
  control : f.scene.control.stopped = true ∨ f.scene.control = g.scene.control

section Two

variable {w : Surroundings} {plan : Plan} {φ : Heed} {f g f' g' : Film} {q : Request} {α : Type}

theorem Scene.context_after {s t : Scene} (h : s.context = t.context) (q : Request) :
    (s.after q).context = (t.after q).context := by
  cases q <;> simp [Scene.after, h]

theorem Alike.calls (h : Alike f g) : f.calls = g.calls := by rw [Film.calls, Film.calls, h.asked]

/-- Films that are alike before and after a request answer it alike, unless it heeds what is wished
and that is not the same. -/
theorem Alike.answer (h : Alike f g) (h' : Alike f' g')
    (same : q.heeds = true →
      f.scene.control = g.scene.control ∧ f'.scene.control = g'.scene.control) :
    g.answer w g' q = f.answer w f' q := by
  cases q with
  | device call => exact congrArg w.device h'.calls.symm
  | search template confidence area => exact congrArg w.search h'.calls.symm
  | draw range => simp only [Film.answer, h.asked]
  | clock => exact h'.now.symm
  | read name => simp only [Film.answer, h'.context]
  | sleep ms => simp only [Film.answer, (same rfl).2]
  | stopped => simp only [Film.answer, (same rfl).2]
  | pausePending => simp only [Film.answer, (same rfl).2]
  | awaitResume => simp only [Film.answer, (same rfl).1]
  | _ => rfl

/-- Where no stop is wished when a request is over, its shots are the same. -/
theorem Alike.shot (h : Alike f g) (unstopped : (f.take w plan q).scene.control.stopped = false) :
    f.scene.control = g.scene.control ∧ g.shot w plan.unstopped q = f.shot w plan q := by
  obtain ⟨none_came, still⟩ := Bool.or_eq_false_iff.mp (Film.stopped_take ▸ unstopped)
  have control : f.scene.control = g.scene.control := h.control.resolve_left (by rw [still]; nofun)
  have wait : g.wait w q = f.wait w q := by
    cases q <;> simp only [Film.wait, h.now, h.asked, control]
  have wished : g.wished plan.unstopped = withoutStops (f.wished plan) := by
    simp [Film.wished, Plan.unstopped, withoutStops, h.now, h.asked]
  have endured := (f.wait w q).endure_unstopped f.scene.control f.now (f.wished plan) fun e he stop =>
    List.any_eq_false.mp none_came e he (List.contains_iff_mem.mpr stop)
  refine ⟨control, ?_⟩
  simp only [Film.shot, wait, wished, ← control, ← h.now, endured]

/-- A request by whose end no stop is wished leaves two films alike, with one answer. -/
theorem Alike.take (h : Alike f g) (unstopped : (f.take w plan q).scene.control.stopped = false) :
    Alike (f.take w plan q) (g.take w plan.unstopped q) ∧
      g.answer w (g.take w plan.unstopped q) q = f.answer w (f.take w plan q) q := by
  obtain ⟨control, shot⟩ := h.shot unstopped
  have control' : (f.take w plan q).scene.control = (g.take w plan.unstopped q).scene.control := by
    simp only [Film.take, Scene.control_after, Scene.wishes, shot, control]
  have after : Alike (f.take w plan q) (g.take w plan.unstopped q) := {
    now := by simp only [Film.take, shot, h.now]
    context := Scene.context_after (s := f.scene.wishes _) (t := g.scene.wishes _) h.context q
    asked := congrArg (q :: ·) h.asked
    control := .inr control' }
  exact ⟨after, h.answer after fun _ => ⟨control, control'⟩⟩

/-- So does a request that heeds no wish in any case. -/
theorem Alike.take_calm (h : Alike f g) (calm : q.heeds = false)
    (stopped : (f.take w plan q).scene.control.stopped = true) :
    Alike (f.take w plan q) (g.take w plan.unstopped q) ∧
      g.answer w (g.take w plan.unstopped q) q = f.answer w (f.take w plan q) q ∧
      (g.shot w plan.unstopped q).ended = (f.shot w plan q).ended := by
  obtain ⟨due, ended⟩ := Film.ended_calm (w := w) calm f
  have ended_f := ended f plan rfl rfl
  have ended_g := ended g plan.unstopped h.now.symm h.asked.symm
  have after : Alike (f.take w plan q) (g.take w plan.unstopped q) := {
    now := by simp only [Film.take, ended_f, ended_g, Option.getD_some]
    context := Scene.context_after (s := f.scene.wishes _) (t := g.scene.wishes _) h.context q
    asked := congrArg (q :: ·) h.asked
    control := .inl stopped }
  refine ⟨after, h.answer after fun heeds => ?_, ended_g.trans ended_f.symm⟩
  rw [calm] at heeds
  cases heeds

/-- An answer that tells of a stop turns a run away from its work. -/
theorem works_request (heeds : q.heeds = true) (stopped : g.scene.control.stopped = true) :
    (heed.step φ (.request q) (f.answer w g q)).stance.works = false := by
  cases q with
  | sleep ms => simp [heed, Film.answer, stopped, Stance.works]
  | stopped => simp [heed, Film.answer, stopped, Stance.works]
  | pausePending => simp [heed, Film.answer, Control.pausePending, stopped, Stance.works]
  | awaitResume => rfl
  | _ => cases heeds

/-- So it stays: it makes no call, and the next answer keeps it away. -/
theorem away_request (may : heed.may φ (.request q)) (away : φ.stance.works = false)
    (stopped : g.scene.control.stopped = true) : q.isCall = false ∧
      (heed.step φ (.request q) (f.answer w g q)).stance.works = false := by
  cases q with
  | mark m => exact ⟨rfl, φ.stance.works_noted.trans away⟩
  | stopped => exact ⟨rfl, works_request rfl stopped⟩
  | _ =>
      have works := may.1
      rw [away] at works
      cases works

/-- A run that is turned away from its work makes no calls any more. -/
theorem calls_away {post : α → Heed → Prop} {p : CueProg α} (hp : p.Follows heed post φ)
    (away : φ.stance.works = false) (stopped : f.scene.control.stopped = true) :
    (f.play w plan p).2.calls = f.calls := by
  induction p generalizing φ f with
  | done a => rfl
  | ask c next ih =>
      cases c with
      | enter place =>
          have works := hp.1.1
          rw [away] at works
          cases works
      | round place =>
          have clear : φ.stance = .clear := hp.1
          rw [clear] at away
          cases away
      | request q =>
          have stopped' : (f.take w plan q).scene.control.stopped = true := by
            rw [Film.stopped_take, stopped, Bool.or_true]
          obtain ⟨no_call, still⟩ := away_request (f := f) (w := w) hp.1 away stopped'
          have same : (f.take w plan q).calls = f.calls := by simp [Film.calls_take, no_call]
          simp only [Film.play]
          split
          · exact (ih _ (hp.2 _) still stopped').trans same
          · exact same

/-- Where an answer tells the first run of the stop, the runs part: the first makes no more calls,
the second may make more. -/
theorem calls_part {post : α → Heed → Prop} {next : q.Answer → CueProg α}
    (hp : Prog.Follows heed post (.ask (.request q) next) φ) (h : Alike f g) (heeds : q.heeds = true)
    (stopped : (f.take w plan q).scene.control.stopped = true) :
    (f.play w plan (.ask (.request q) next)).2.calls <+:
      (g.play w plan.unstopped (.ask (.request q) next)).2.calls := by
  have first : (f.play w plan (.ask (.request q) next)).2.calls = (f.take w plan q).calls := by
    simp only [Film.play]
    split
    · exact calls_away (hp.2 _) (works_request heeds stopped) stopped
    · rfl
  have second : (g.take w plan.unstopped q).calls <+:
      (g.play w plan.unstopped (.ask (.request q) next)).2.calls := by
    simp only [Film.play]
    split
    · exact Film.calls_grow _ _
    · exact List.prefix_refl _
  have same : (f.take w plan q).calls = (g.take w plan.unstopped q).calls := by
    rw [Film.calls_take, Film.calls_take, h.calls]
  rw [first, same]
  exact second

/-- **The calls of a run that is stopped are the first calls of the same run without the stop.** -/
theorem calls_prefix {post : α → Heed → Prop} {p : CueProg α} (hp : p.Follows heed post φ)
    (h : Alike f g) : (f.play w plan p).2.calls <+: (g.play w plan.unstopped p).2.calls := by
  induction p generalizing φ f g with
  | done a => exact h.calls ▸ List.prefix_refl _
  | ask c next ih =>
      cases c with
      | enter place => exact ih () (hp.2 ()) ⟨h.now, h.context, h.asked, h.control⟩
      | round place => exact ih () (hp.2 ()) ⟨h.now, h.context, h.asked, h.control⟩
      | request q =>
          -- split by whether a stop is wished when the request is over, and by whether it matters
          cases seen : (f.take w plan q).scene.control.stopped with
          | false =>
              obtain ⟨after, answer⟩ := h.take seen
              simp only [Film.play, (h.shot seen).2, answer]
              split
              · exact ih _ (hp.2 _) after
              · exact after.calls ▸ List.prefix_refl _
          | true =>
              cases heeds : q.heeds with
              | false =>
                  obtain ⟨after, answer, ended⟩ := h.take_calm heeds seen
                  simp only [Film.play, ended, answer]
                  split
                  · exact ih _ (hp.2 _) after
                  · exact after.calls ▸ List.prefix_refl _
              | true => exact calls_part hp h heeds seen

end Two

/-! ## 4. Runs -/

/-- Two films that have not begun. -/
theorem alike_blank (plan : Plan) (start : Nat) (context : Context) :
    Alike (.blank plan start context) (.blank plan.unstopped start context) where
  now := rfl
  context := rfl
  asked := rfl
  control := by
    by_cases stop : Wish.stop ∈ plan.before
    · exact .inl ((Scene.stopped_wishes _ _).mpr (.inr stop))
    · have same : plan.unstopped.before = plan.before := filter_ne_stop stop
      exact .inr (by simp only [Film.blank, same])

theorem tracks_blank (plan : Plan) (start : Nat) (context : Context) :
    Tracks plan ⟨.busy, []⟩ (.blank plan start context) where
  safe := StopSafe.nil plan
  stopped := by
    rw [Bool.eq_iff_iff]
    simp [Film.blank, Scene.stopped_wishes, stopCame, Control.fresh]
  clear := nofun
  begun := List.nil_subset _

/-- **A run that is stopped**: with its cues taken out it is the run itself; its calls are the first
calls of the same run without the stop; and it is safe once the stop is wished. -/
theorem stopped_film_safe (w : Surroundings) (plan : Plan) (s : Settings) (start : Nat)
    (context : Context) (t : Task) :
    CueProg.plain (t.cued s) = t.run s ∧
      (t.film w plan s start context).calls <+: (t.film w plan.unstopped s start context).calls ∧
      StopSafe plan (t.film w plan s start context).shots := by
  have order := run_heeds s t
  exact ⟨plain_cued s t, calls_prefix order (alike_blank plan start context),
    Tracks.play order (tracks_blank plan start context)⟩

/-- Devices and a screen that answer at once. -/
def Surroundings.prompt : Surroundings where
  device _ := .ok ()
  search _ := .ok ⟨true, none, none, none⟩
  luck _ range := .nearest range 0
  lasts _ _ := 0

/-- Five times a key and a wait. -/
def keyLoop : Task :=
  .ofActions [.loop (.named "l") ⟨.infinite, none, none, some 5⟩
    [.simple (.named "k") (.pressKey "a"), .simple (.named "w") (.wait (some 100) 0)]]

/-- A stop in the second wait of `keyLoop`. -/
def stopSecond : Plan := ⟨[], fun n => if n = 12 then [(3, [.stop])] else []⟩

example : (keyLoop.film .prompt stopSecond .initial 0 .fresh).calls.length = 2 ∧
    (keyLoop.film .prompt stopSecond.unstopped .initial 0 .fresh).calls.length = 5 := by
  decide +kernel

end TaskReplay
