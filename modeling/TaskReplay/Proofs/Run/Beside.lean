import TaskReplay.Proofs.Run.Poise

/-!
# Two films of one run, one with pauses

A run that is paused beside the same run that is left alone, as far as nobody looks at the clock:

* `Film.course` -- what a pause must leave alone: calls, lots and news about steps;
* `Beside` -- two films with one course and one set of variables, no stop wished in the first and
  nothing in the second; `Beside.take`, `Beside.answer` -- requests keep them so and are answered alike;
* `Parallel` -- where two films may end up: beside each other with one result, unless the first is
  stopped or waits for good;
* `Transparent` -- a program whose films from beside each other end up parallel; closed under bind
  (`Transparent.bind`), and so are scripts (`made_transparent`).
-/

namespace TaskReplay

open Script

/-! ## 1. What a pause must leave alone -/

/-- Nobody wishes anything. -/
def Plan.silent : Plan := ⟨[], fun _ => []⟩

/-- Calls, lots, and news about steps. -/
def Request.shows (q : Request) : Bool := q.isCall || q.isDraw || q.stepNews?.isSome

/-- What others see of a run, the latest first. -/
def Film.course (f : Film) : List Request := f.asked.filter Request.shows

/-- Whether a request looks at a pause or at the clock. -/
def Request.looks : Request → Bool
  | .pausePending | .awaitResume | .clock => true
  | _ => false

/-- **Two films of one run**, the first with pauses. -/
structure Beside (f g : Film) : Prop where
  course : f.course = g.course
  scope : f.scene.context.scope = g.scene.context.scope
  unstopped : f.scene.control.stopped = false
  free : g.scene.control = .fresh

/-- **Where two films may end up**: the first is stopped, or waits for good with a pause pending, or they
come to one result beside each other. -/
def Parallel {α : Type} (x y : Option α × Film) : Prop :=
  x.2.scene.control.stopped = true ∨
    (x.1 = none ∧ x.2.scene.control.pausePending = true) ∨
    ∃ a, x.1 = some a ∧ y.1 = some a ∧ Beside x.2 y.2

/-- Films of the program from beside each other end up parallel. -/
def Transparent {α : Type} (w : Surroundings) (plan : Plan) (p : CueProg α) : Prop :=
  ∀ f g, Beside f g → Parallel (f.play w plan p) (g.play w .silent p)

/-! ## 2. Films -/

section Films

variable {w : Surroundings} {plan : Plan} {f g f' g' : Film} {q : Request} {α β : Type}

theorem Film.calls_course (f : Film) :
    f.asked.filter Request.isCall = f.course.filter Request.isCall := by
  have shown : ∀ q : Request, (q.isCall && q.shows) = q.isCall := by
    intro q
    cases q <;> rfl
  rw [Film.course, List.filter_filter]
  simp only [shown]

theorem Film.draws_course (f : Film) :
    f.asked.countP Request.isDraw = f.course.countP Request.isDraw := by
  have shown : ∀ q : Request, (q.isDraw && q.shows) = q.isDraw := by
    intro q
    cases q <;> rfl
  rw [Film.course, List.countP_filter]
  simp only [shown]

theorem Beside.calls (h : Beside f g) : f.calls = g.calls := by
  rw [Film.calls, Film.calls, List.filter_reverse, List.filter_reverse, f.calls_course,
    g.calls_course, h.course]

theorem Scene.scope_after {s t : Scene} (h : s.context.scope = t.context.scope) (q : Request) :
    (s.after q).context.scope = (t.after q).context.scope := by
  cases q with
  | mark m => cases m <;> exact h
  | write name value => exact congrArg (·.set name value) h
  | _ => exact h

theorem Scene.scope_kept (keeps : ∀ name v, q ≠ .write name v) (s : Scene) :
    (s.after q).context.scope = s.context.scope := by
  cases q with
  | mark m => cases m <;> rfl
  | write name value => exact absurd rfl (keeps name value)
  | _ => rfl

theorem Film.course_take (f : Film) (q : Request) :
    (f.take w plan q).course = [q].filter Request.shows ++ f.course := by
  simp only [Film.course, Film.asked_take, List.filter_cons, List.filter_nil]
  split <;> rfl

theorem Film.course_hidden (f : Film) (hidden : q.shows = false) :
    (f.take w plan q).course = f.course := by
  simp [Film.course_take, hidden]

/-- A request leaves the films beside each other, unless the first is stopped in it. -/
theorem Beside.take (h : Beside f g) (q : Request) :
    (f.take w plan q).scene.control.stopped = true ∨
      Beside (f.take w plan q) (g.take w .silent q) := by
  refine (Bool.eq_false_or_eq_true _).imp id fun unstopped => ?_
  refine ⟨?_, Scene.scope_after (s := f.scene.wishes _) (t := g.scene.wishes _) h.scope q, unstopped, ?_⟩
  · rw [Film.course_take, Film.course_take, h.course]
  · rw [control_take_of_calm rfl, h.free]

/-- So does a request of the first alone that shows nothing and writes nothing. -/
theorem Beside.take_left (h : Beside f g) (hidden : q.shows = false)
    (keeps : ∀ name v, q ≠ .write name v) :
    (f.take w plan q).scene.control.stopped = true ∨ Beside (f.take w plan q) g := by
  refine (Bool.eq_false_or_eq_true _).imp id fun unstopped => ⟨?_, ?_, unstopped, h.free⟩
  · rw [Film.course_hidden _ hidden, h.course]
  · exact (Scene.scope_kept keeps (f.scene.wishes _)).trans h.scope

/-- And one of the second alone. -/
theorem Beside.take_right (h : Beside f g) (hidden : q.shows = false)
    (keeps : ∀ name v, q ≠ .write name v) : Beside f (g.take w .silent q) := by
  refine ⟨?_, ?_, h.unstopped, ?_⟩
  · rw [Film.course_hidden _ hidden, h.course]
  · exact h.scope.trans (Scene.scope_kept keeps (g.scene.wishes _)).symm
  · rw [control_take_of_calm rfl, h.free]

/-- Requests that look neither at a pause nor at the clock are answered alike. -/
theorem Beside.answer (h : Beside f g) (h' : Beside f' g') (plainly : q.looks = false) :
    f.answer w f' q = g.answer w g' q := by
  cases q with
  | device call => exact congrArg w.device h'.calls
  | search template confidence area => exact congrArg w.search h'.calls
  | draw range => simp only [Film.answer, Film.draws_course, h.course]
  | read name => simp only [Film.answer, h'.scope]
  | sleep ms => simp only [Film.answer, h'.unstopped, h'.free, Control.fresh]
  | stopped => simp only [Film.answer, h'.unstopped, h'.free, Control.fresh]
  | pausePending => cases plainly
  | awaitResume => cases plainly
  | clock => cases plainly
  | _ => rfl

/-- Only the wait for a pause to end may go on for good, and then a pause is pending. -/
theorem ended_or_pending (f : Film) (q : Request) : (f.shot w plan q).ended.isSome = true ∨
    (f.take w plan q).scene.control.pausePending = true := by
  obtain ⟨t, ends⟩ := ended_shot w plan f q
  rw [ends]
  cases q with
  | awaitResume =>
      cases pending : f.scene.control.pausePending with
      | true =>
          rw [← ends, ended_awaitResume pending]
          cases (f.take w plan .awaitResume).scene.control.pausePending
          · exact .inl rfl
          · exact .inr rfl
      | false => exact .inl (by simp [Film.wait, pending, Suspension.wake?])
  | sleep ms =>
      left
      simp only [Film.wait, Suspension.wake?]
      split <;> rfl
  | _ => exact .inl rfl

theorem ended_of_free (free : g.scene.control = .fresh) :
    (g.shot w .silent q).ended.isSome = true := by
  refine (ended_or_pending g q).resolve_right fun pending => ?_
  rw [control_take_of_calm rfl, free] at pending
  cases pending

/-! ## 3. Programs -/

/-- A stop is for good. -/
theorem stopped_play (p : CueProg α) (h : f.scene.control.stopped = true) :
    (f.play w plan p).2.scene.control.stopped = true := by
  induction p generalizing f with
  | done a => exact h
  | ask c next ih =>
      cases c with
      | enter place => exact ih () h
      | round place => exact ih () h
      | request q =>
          have still : (f.take w plan q).scene.control.stopped = true := by
            rw [control_take]
            exact (Control.stopped_foldl_wish _ _).mpr (.inl h)
          simp only [Film.play]
          split
          · exact ih _ still
          · exact still

/-- **One program after another** films as the first and then, from where it ended, the second. -/
theorem play_bind (p : CueProg α) (k : α → CueProg β) (f : Film) :
    f.play w plan (p.bind k) = match f.play w plan p with
      | (some a, g) => g.play w plan (k a)
      | (none, g) => (none, g) := by
  induction p generalizing f with
  | done a => rfl
  | ask c next ih =>
      cases c with
      | enter place => exact ih () _
      | round place => exact ih () _
      | request q =>
          simp only [Prog.ask_bind, Film.play]
          split
          · exact ih _ _
          · rfl

theorem Transparent.bind {p : CueProg α} {k : α → CueProg β} (hp : Transparent w plan p)
    (hk : ∀ a, Transparent w plan (k a)) : Transparent w plan (p.bind k) := by
  intro f g h
  have first := hp f g h
  rw [play_bind, play_bind]
  generalize f.play w plan p = x at first
  generalize g.play w .silent p = y at first
  obtain ⟨r, f'⟩ := x
  obtain ⟨r', g'⟩ := y
  rcases first with stopped | ⟨rfl, pending⟩ | ⟨a, rfl, rfl, beside⟩
  · cases r with
    | none => exact .inl stopped
    | some a => exact .inl (stopped_play _ stopped)
  · exact .inr (.inl ⟨rfl, pending⟩)
  · exact hk a f' g' beside

theorem transparent_done (a : α) : Transparent w plan (.done a) :=
  fun _ _ h => .inr (.inr ⟨a, rfl, rfl, h⟩)

/-- A cue that is no request leaves the films beside each other. -/
theorem Beside.cut {c : Cue} (h : Beside f g) (none_asked : c.request? = none) :
    Beside (f.cut c) (g.cut c) where
  course := by
    have same (f : Film) : (f.cut c).course = f.course := by
      simp [Film.course, Film.cut, Film.asked, none_asked]
    rw [same, same, h.course]
  scope := h.scope
  unstopped := h.unstopped
  free := h.free

/-- Where nothing is wished, every request is answered. -/
theorem play_free {next : q.Answer → CueProg α} (free : g.scene.control = .fresh) :
    g.play w .silent (.ask (.request q) next) = (g.take w .silent q).play w .silent
      (next (g.answer w (g.take w .silent q) q)) := by
  simp only [Film.play, ended_of_free free, if_true]

/-- A request of both, from where each has its answer. -/
theorem Parallel.ask {next next' : q.Answer → CueProg α} (free : g.scene.control = .fresh)
    (h : (f.take w plan q).scene.control.stopped = true ∨
      Parallel ((f.take w plan q).play w plan (next (f.answer w (f.take w plan q) q)))
        ((g.take w .silent q).play w .silent (next' (g.answer w (g.take w .silent q) q)))) :
    Parallel (f.play w plan (.ask (.request q) next))
      (g.play w .silent (.ask (.request q) next')) := by
  rw [play_free free]
  simp only [Film.play]
  split
  · exact h.elim (fun stopped => .inl (stopped_play _ stopped)) id
  · next goes_on => exact .inr (.inl ⟨rfl, (ended_or_pending f q).resolve_left goes_on⟩)

/-- A request of the first alone. -/
theorem Parallel.ask_left {next : q.Answer → CueProg α} {y : Option α × Film} (h : Beside f g)
    (hidden : q.shows = false) (keeps : ∀ name v, q ≠ .write name v)
    (after : ∀ x f', Beside f' g → Parallel (f'.play w plan (next x)) y) :
    Parallel (f.play w plan (.ask (.request q) next)) y := by
  simp only [Film.play]
  split
  · exact (h.take_left hidden keeps).elim (fun stopped => .inl (stopped_play _ stopped)) (after _ _)
  · next goes_on => exact .inr (.inl ⟨rfl, (ended_or_pending f q).resolve_left goes_on⟩)

/-- A request that looks neither at a pause nor at the clock. -/
theorem transparent_ask {next : q.Answer → CueProg α} (plainly : q.looks = false)
    (hn : ∀ x, Transparent w plan (next x)) : Transparent w plan (.ask (.request q) next) := by
  intro f g h
  refine Parallel.ask h.free ((h.take q).imp id fun after => ?_)
  rw [h.answer after plainly]
  exact hn _ _ _ after

end Films

/-! ## 4. Scripts -/

section Scripts

variable {w : Surroundings} {plan : Plan} {α β : Type}

theorem Transparent.bind_script {m : CueScript α} {k : α → CueScript β}
    (hm : Transparent w plan m.run) (hk : ∀ a, Transparent w plan (k a).run) :
    Transparent w plan (m >>= k).run := by
  rw [run_bind]
  refine hm.bind fun r => ?_
  cases r with
  | ok a => exact hk a
  | error e => exact transparent_done _

/-- A look at a pause, with the wait for its end. -/
theorem transparent_awaitResume {p : CueProg α} (hp : Transparent w plan p) :
    Transparent w plan (.ask (.request .awaitResume) fun _ => p) := by
  intro f g h
  refine Parallel.ask h.free ((h.take _).imp id fun after => hp _ _ after)

/-- **Scripts that do not look at the clock.** -/
theorem made_transparent {E : StepError → Prop} {m : Script α} (hm : MadeOf (· ≠ .clock) E m) :
    Transparent w plan m.quiet.run := by
  induction hm with
  | pure a => exact transparent_done _
  | throw e other own => exact transparent_done _
  | ask q plain may =>
      have plainly : q.looks = false := by cases q <;> first | rfl | exact absurd rfl may | cases plain
      exact transparent_ask plainly fun x => transparent_done _
  | device call may =>
      unfold Script.quiet
      rw [run_device]
      exact transparent_ask rfl fun x => transparent_done _
  | search template confidence area may =>
      unfold Script.quiet
      rw [run_search]
      exact transparent_ask rfl fun x => transparent_done _
  | sleep ms =>
      unfold Script.quiet
      rw [run_sleep]
      exact transparent_ask rfl fun x => transparent_done _
  | boundary =>
      unfold Script.quiet
      rw [run_boundary]
      exact transparent_awaitResume (transparent_ask rfl fun stop => transparent_done _)
  | bind _ _ ihm ihf =>
      rw [script_quiet_bind]
      exact ihm.bind_script ihf

end Scripts
end TaskReplay
