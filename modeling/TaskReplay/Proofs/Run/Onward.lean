import TaskReplay.Proofs.Run.Takes
import TaskReplay.Proofs.Run.Waiting

/-!
# How a film goes on

What is filmed after a time was begun no earlier, and tells observers of steps what the program tells that is
filmed:

* `Surroundings.Brisk` -- nothing but calls and waits takes time; `play_brief`, `now_brief` -- so a request
  that is neither is over at once;
* `Onward`, `Onward.play` -- **a program's film goes on from where it began**, and tells of steps what its
  requests may tell;
* `closeStep_tells`, `step_tells`, `from_tells` -- what the walk tells: a step tells of itself, and the steps
  from an index on of no earlier one.
-/

namespace TaskReplay

open Script

/-! ## 1. Time on film -/

/-- Whether a request is neither a call nor a wait. -/
def Request.brief : Request → Bool
  | .device _ | .search _ _ _ | .settle _ | .sleep _ | .awaitResume => false
  | _ => true

/-- **Nothing but calls and waits takes time**, so neither do observers. -/
def Surroundings.Brisk (w : Surroundings) : Prop :=
  ∀ q asked now, q.brief = true → w.lasts (q :: asked) now = 0

/-- What a shot tells of which step. -/
def Shot.news? (u : Shot) : Option (Nat × Moment) := u.cue.request?.bind Request.stepNews?

/-- What a request may tell of steps. -/
def Request.Tells (N : Nat × Moment → Prop) (q : Request) : Prop := ∀ n, q.stepNews? = some n → N n

/-- **From one film on to another**: what was filmed in between was begun no earlier and tells of steps only
so much. -/
structure Onward (plan : Plan) (N : Nat × Moment → Prop) (f g : Film) : Prop where
  shots : ∃ made, g.shots = made ++ f.shots ∧
    ∀ v ∈ made, f.now ≤ v.begun ∧ ∀ n, v.news? = some n → N n
  now : f.now ≤ g.now
  control : f.scene.control = wished plan f.shots → g.scene.control = wished plan g.shots

section Time

variable {w : Surroundings} {plan : Plan} {f g h : Film} {q : Request} {α : Type}
  {N : Nat × Moment → Prop}

/-- A request that is neither a call nor a wait is over at once. -/
theorem ended_brief (brisk : w.Brisk) (brief : q.brief = true) (f : Film) :
    (f.shot w plan q).ended = some f.now := by
  have settles : f.wait w q = .settle f.now := by
    have at_once := brisk q f.asked f.now brief
    cases q <;> first | exact congrArg (fun ms => Suspension.settle (f.now + ms)) at_once | cases brief
  have whole := (Suspension.endure_settle (Nat.le_refl f.now) f.scene.control (f.wished plan)).1
  rw [← settles] at whole
  exact whole

theorem now_brief (brisk : w.Brisk) (brief : q.brief = true) : (f.take w plan q).now = f.now := by
  rw [Film.take, ended_brief brisk brief]
  rfl

theorem play_brief (brisk : w.Brisk) (brief : q.brief = true) (next : q.Answer → CueProg α) :
    f.play w plan (.ask (.request q) next) =
      (f.take w plan q).play w plan (next (f.answer w (f.take w plan q) q)) := by
  simp only [Film.play, ended_brief brisk brief, Option.isSome_some, if_true]

theorem now_takes_brief {qs : List Request} (brisk : w.Brisk) (brief : ∀ q ∈ qs, q.brief = true) :
    (f.takes w plan qs).now = f.now := by
  induction qs generalizing f with
  | nil => rfl
  | cons q qs ih =>
      rw [takes_cons, ih fun q' among => brief q' (List.mem_cons_of_mem _ among)]
      exact now_brief brisk (brief q List.mem_cons_self)

namespace Onward

theorem refl (N : Nat × Moment → Prop) (f : Film) : Onward plan N f f :=
  ⟨⟨[], rfl, nofun⟩, Nat.le_refl _, id⟩

theorem trans (first : Onward plan N f g) (second : Onward plan N g h) : Onward plan N f h := by
  obtain ⟨made, shots, new⟩ := first.shots
  obtain ⟨made', shots', new'⟩ := second.shots
  refine ⟨⟨made' ++ made, by rw [shots', shots, List.append_assoc], fun v in_new => ?_⟩,
    Nat.le_trans first.now second.now, fun known => second.control (first.control known)⟩
  rcases List.mem_append.mp in_new with later | earlier
  · exact ⟨Nat.le_trans first.now (new' v later).1, (new' v later).2⟩
  · exact new v earlier

/-- One request. -/
theorem take (tells : q.Tells N) : Onward plan N f (f.take w plan q) :=
  ⟨⟨[f.shot w plan q], rfl, fun v only => by
    cases List.mem_singleton.mp only
    exact ⟨Nat.le_refl _, tells⟩⟩, le_now_take w plan f q, wished_take⟩

/-- Requests in a row. -/
theorem takes {qs : List Request} (tells : ∀ q ∈ qs, q.Tells N) : Onward plan N f (f.takes w plan qs) := by
  induction qs generalizing f with
  | nil => exact refl N f
  | cons q qs ih =>
      have first : Onward plan N f (f.take w plan q) := take (tells q List.mem_cons_self)
      exact first.trans (ih fun q' among => tells q' (List.mem_cons_of_mem _ among))

/-- **A program's film goes on from where it began**, and tells what its requests tell. -/
theorem play {p : RunProg α} (asks : p.Asks (Request.Tells N)) (f : Film) :
    Onward plan N f (f.play w plan p.quiet).2 := by
  induction p generalizing f with
  | done a => exact refl N f
  | ask q next ih =>
      have one : Onward plan N f (f.take w plan q) := take asks.1
      simp only [RunProg.quiet, Film.play]
      split
      · exact one.trans (ih _ (asks.2 _) _)
      · exact one

/-- A shot that tells something is an old one or tells what it may. -/
theorem told (on : Onward plan N f g) {u : Shot} {n : Nat × Moment} (among : u ∈ g.shots)
    (news : u.news? = some n) : u ∈ f.shots ∨ f.now ≤ u.begun ∧ N n := by
  obtain ⟨made, shots, new⟩ := on.shots
  rw [shots] at among
  rcases List.mem_append.mp among with made | old
  · exact .inr ⟨(new u made).1, (new u made).2 n news⟩
  · exact .inl old

end Onward

end Time

/-! ## 2. What programs tell -/

section Tells

variable {N : Nat × Moment → Prop} {s : Settings} {total i : Nat} {a : Action}

theorem tells_none {q : Request} (h : q.stepNews? = none) : q.Tells N := fun n news => by
  rw [h] at news
  cases news

theorem gate_tells (i : Nat) : (gate i).Asks (Request.Tells N) :=
  ⟨tells_none rfl, fun _ => Prog.Asks.bind ((holdBefore_asks i).mono fun _ aside => tells_none aside.1)
    fun _ => ⟨tells_none rfl, fun _ => trivial⟩⟩

theorem made_tells {α : Type} {m : Script α} (hm : Made m) : m.run.Asks (Request.Tells N) :=
  hm.asks.mono fun _ inner => tells_none (Request.aside_of_inner inner).1

theorem endStopped_tells (i : Nat) : (endStopped i).Asks (Request.Tells N) :=
  ⟨tells_none rfl, fun _ => trivial⟩

/-- After its work a step tells that it is over, and that it was completed only if its work was. -/
theorem closeStep_tells (s : Settings) (total i : Nat) (a : Action) (x : Except StepError Unit) :
    (closeStep s total i a x).Asks
      (Request.Tells fun n => n.1 = i ∧ n.2 ≠ .started ∧ (n.2 = .completed → x = .ok ())) := by
  have news {m : Moment} (begun : m ≠ .started) (finished : m = .completed → x = .ok ()) :
      (Request.tell (.step i total a m)).Tells
        fun n => n.1 = i ∧ n.2 ≠ .started ∧ (n.2 = .completed → x = .ok ()) := by
    intro n same
    cases same
    exact ⟨rfl, begun, finished⟩
  have failed (e : StepError) (continued : Bool) : Moment.failed e continued ≠ .started ∧
      Moment.failed e continued ≠ .completed := by simp
  cases x with
  | ok u =>
      refine ⟨news (by simp) fun _ => rfl, fun _ => (made_tells (recover_any s a)).bind fun r => ?_⟩
      cases r with
      | ok u => trivial
      | error e => exact (endStopped_tells (i + 1)).bind fun _ => trivial
  | error e =>
      by_cases he : e = .interrupted
      · subst he
        exact (endStopped_tells i).bind fun _ => trivial
      · rw [closeStep.eq_3 s total i a e he]
        split
        · obtain ⟨begun, completed⟩ := failed e true
          exact ⟨tells_none rfl, fun _ => ⟨news begun (absurd · completed), fun _ => trivial⟩⟩
        · obtain ⟨begun, completed⟩ := failed e false
          exact ⟨news begun (absurd · completed), fun _ => ⟨tells_none rfl, fun _ => trivial⟩⟩

/-- A step of the walk tells of itself only. -/
theorem step_tells : (walkStep s total i a).Asks (Request.Tells fun n => n.1 = i) := by
  rw [walkStep_eq]
  refine (gate_tells i).bind fun stop => ?_
  cases stop with
  | true => exact (endStopped_tells i).bind fun _ => trivial
  | false =>
      refine ⟨fun n news => by cases news; rfl, fun _ => (made_tells (perform_any s a)).bind fun x => ?_⟩
      exact (closeStep_tells s total i a x).mono fun q tells n news => (tells n news).1

/-- The steps from an index on tell of no earlier one. -/
theorem from_tells (s : Settings) (total i : Nat) (as : List Action) :
    (runFrom s total i as).Asks (Request.Tells fun n => i ≤ n.1) := by
  induction as generalizing i with
  | nil => exact ⟨tells_none rfl, fun _ => trivial⟩
  | cons a rest ih =>
      refine (step_tells.mono fun q tells n news => (tells n news).ge).bind fun o => ?_
      cases o with
      | some r => trivial
      | none => exact (ih (i + 1)).mono fun q tells n news => Nat.le_of_succ_le (tells n news)

end Tells

end TaskReplay
