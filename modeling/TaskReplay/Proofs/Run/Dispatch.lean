import TaskReplay.Proofs.Run.Cue
import TaskReplay.Proofs.Task.Tree

/-!
# What a run does where a step begins

Word that a step begins comes with the place of the step, and right after it comes what the step does:

* `StepIn` -- the step at a place, read outwards as cues have it; `StepIn.inner` -- a step of an inner
  sequence is in the place of the step around it, longer by two;
* `Action.cuedInside` -- a step without the word that it begins;
* `Announces` -- a program in which each such word names a step of the task and is followed by just that
  step, and then by something else; `run_announces` -- **a run is like that**;
* `CuePlaysOn` -- how far a program with cues comes; `playsOn_plain_iff` -- it comes as far without them;
* `begins_step` -- **where a run has come to the beginning of a step, it does that step next**.
-/

namespace TaskReplay

open Script

/-! ## 1. Steps at places -/

/-- The step at a place of a sequence. -/
def StepIn (as : List Action) (place : Place) (a : Action) : Prop :=
  stepAt? as place.reverse = some a

section Places

variable {as bs : List Action} {a b : Action} {path : List Nat} {place : Place} {c i j : Nat}

theorem stepAt?_cons (i c : Nat) (path : List Nat) :
    stepAt? as (i :: c :: path) = (as[i]?.bind (·.children[c]?)).bind (stepAt? · path) := by
  rw [Option.bind_assoc]
  rfl

theorem stepAt?_inner (here : stepAt? as path = some a) (sequence : a.children[c]? = some bs)
    (inside : bs[j]? = some b) : stepAt? as (path ++ [c, j]) = some b := by
  induction as, path using stepAt?.induct with
  | case1 as => cases here
  | case2 as i =>
      have top : as[i]? = some a := here
      rw [List.singleton_append, stepAt?_cons, top, Option.bind_some, sequence]
      exact inside
  | case3 as i k path ih =>
      rw [stepAt?_cons] at here
      obtain ⟨cs, within, rest⟩ := Option.bind_eq_some_iff.mp here
      rw [List.cons_append, List.cons_append, stepAt?_cons, within]
      exact ih cs rest

theorem StepIn.top (inside : as[i]? = some a) : StepIn as [i] a := inside

theorem StepIn.inner (here : StepIn as place a) (sequence : a.children[c]? = some bs)
    (inside : bs[j]? = some b) : StepIn as (j :: c :: place) b := by
  unfold StepIn
  rw [List.reverse_cons, List.reverse_cons, List.append_assoc]
  exact stepAt?_inner here sequence inside

/-- The steps of an inner sequence. -/
theorem StepIn.sequence (here : StepIn as place a) (sequence : a.children[c]? = some bs) (j : Nat)
    (b : Action) (inside : bs[j]? = some b) : StepIn as ((0 + j) :: c :: place) b := by
  rw [Nat.zero_add]
  exact here.inner sequence inside

/-- There is one step at a place. -/
theorem StepIn.unique (h : StepIn as place a) (h' : StepIn as place b) : a = b :=
  Option.some.inj (h.symm.trans h')

end Places

/-! ## 2. Word that a step begins -/

/-- A step without the word that it begins. -/
def Action.cuedInside (s : Settings) (place : Place) : Action → CueScript Unit
  | .simple _ deed => (deed.execute s).quiet
  | .condition h test thenBranch elseBranch => do
    if ← (test.holds s h.id).quiet then cuedAll s (0 :: place) 0 thenBranch
    else cuedAll s (1 :: place) 0 elseBranch
  | .loop h rule body => rule.cued s h.id place (cuedAll s (0 :: place) 0 body) rule.limit 0

/-- What follows a cue is as the cue says: the step at that place, and then something else. -/
def Announced (as : List Action) (s : Settings) {α : Type} :
    (c : Cue) → (c.Answer → CueProg α) → Prop
  | .enter place, next => ∃ a k, StepIn as place a ∧ next () = (a.cuedInside s place).run.bind k
  | .request _, _ | .round _, _ => True

/-- **A program in which each step follows the word that it begins.** -/
def Announces (as : List Action) (s : Settings) {α : Type} : CueProg α → Prop
  | .done _ => True
  | .ask c next => Announced as s c next ∧ ∀ x, Announces as s (next x)

section Scripts

variable {α β : Type} {as : List Action} {s : Settings} {place : Place} {a : Action}

theorem cued_eq :
    a.cued s place = CueScript.enter place >>= fun _ => a.cuedInside s place := by
  cases a <;> rfl

theorem Announced.bind {c : Cue} {next : c.Answer → CueProg α} (h : Announced as s c next)
    (f : α → CueProg β) : Announced as s c fun x => (next x).bind f := by
  cases c with
  | enter place =>
      obtain ⟨a, k, here, follows⟩ := h
      refine ⟨a, fun r => (k r).bind f, here, ?_⟩
      show (next ()).bind f = _
      rw [follows, Prog.bind_assoc]
  | request q => trivial
  | round place => trivial

theorem Announces.bind {p : CueProg α} {f : α → CueProg β} (hp : Announces as s p)
    (hf : ∀ a, Announces as s (f a)) : Announces as s (p.bind f) := by
  induction p with
  | done a => exact hf a
  | ask c next ih => exact ⟨hp.1.bind f, fun x => ih x (hp.2 x)⟩

theorem Announces.script {m : CueScript α} {f : α → CueScript β} (hm : Announces as s m.run)
    (hf : ∀ a, Announces as s (f a).run) : Announces as s (m >>= f).run := by
  rw [run_bind]
  refine hm.bind fun r => ?_
  cases r with
  | ok a => exact hf a
  | error e => trivial

theorem announces_quiet (p : RunProg α) : Announces as s p.quiet := by
  induction p with
  | done a => trivial
  | ask q next ih => exact ⟨trivial, ih⟩

theorem announces_aside (m : Script α) : Announces as s m.quiet.run := announces_quiet m.run

theorem announces_enter (here : StepIn as place a)
    (inside : Announces as s (a.cuedInside s place).run) : Announces as s (a.cued s place).run := by
  rw [cued_eq]
  exact ⟨⟨a, .done, here, (Prog.bind_done _).symm⟩, fun _ => inside⟩

theorem announces_round {f : Unit → CueScript Unit} (hf : Announces as s (f ()).run) :
    Announces as s (boundary.quiet >>= fun _ => CueScript.round place >>= f).run :=
  Announces.script (announces_aside boundary) fun _ => ⟨trivial, fun _ => hf⟩

theorem announces_loop (id : String) (r : LoopRule) (place : Place) {body : CueScript Unit}
    (hb : Announces as s body.run) (left done : Nat) :
    Announces as s (r.cued s id place body left done).run := by
  induction left generalizing done with
  | zero => exact announces_round (announces_aside _)
  | succ left ih =>
      refine announces_round (.script (announces_aside _) fun more => ?_)
      cases more with
      | false => trivial
      | true => exact hb.script fun _ => ih (done + 1)

mutual

/-- A step. -/
theorem announces_action {place : Place} : (a : Action) → StepIn as place a →
    Announces as s (a.cued s place).run
  | .simple h deed, here => announces_enter here (announces_aside (deed.execute s))
  | .condition h test thenBranch elseBranch, here => by
      refine announces_enter here (.script (announces_aside (test.holds s h.id)) fun x => ?_)
      cases x with
      | true => exact announces_all thenBranch 0 (here.sequence rfl)
      | false => exact announces_all elseBranch 0 (here.sequence rfl)
  | .loop h rule body, here => by
      have inner := announces_all body 0 (here.sequence (c := 0) rfl)
      exact announces_enter here (announces_loop h.id rule place inner rule.limit 0)

/-- The inner steps of a sequence from `index` on. -/
theorem announces_all {sequence : Place} : (bs : List Action) → (index : Nat) →
    (∀ j b, bs[j]? = some b → StepIn as ((index + j) :: sequence) b) →
    Announces as s (cuedAll s sequence index bs).run
  | [], _, _ => trivial
  | a :: rest, index, places => by
      have here : StepIn as (index :: sequence) a := places 0 a rfl
      refine .script (announces_aside (pauseFor a.header.delayBefore)) fun _ => ?_
      refine .script (announces_action a here) fun _ => ?_
      refine .script (announces_aside (pauseFor a.header.delayAfter)) fun _ => ?_
      refine announces_all rest (index + 1) fun j b inside => ?_
      rw [Nat.add_right_comm]
      exact places (j + 1) b inside

end

end Scripts

/-! ## 3. Runs -/

section Runs

variable {as bs : List Action} {s : Settings} {a : Action} {total index : Nat}

theorem announces_step (here : StepIn as [index] a) : Announces as s (cuedStep s total index a) := by
  refine (announces_quiet (gate index)).bind fun stop => ?_
  cases stop with
  | true => exact (announces_quiet (endStopped index)).bind fun _ => trivial
  | false =>
      refine (announces_quiet (Request.ask _)).bind fun _ => ?_
      have performed : Announces as s (a.cuedPerform s [index]).run :=
        .script (announces_aside (pauseFor a.header.delayBefore)) fun _ => announces_action a here
      exact performed.bind fun x => announces_quiet (closeStep s total index a x)

theorem announces_from (past : List Action) (h : as = past ++ bs) :
    Announces as s (cuedFrom s total past.length bs) := by
  induction bs generalizing past with
  | nil => exact (announces_quiet (note .completed)).bind fun _ => trivial
  | cons b bs ih =>
      have here : StepIn as [past.length] b := StepIn.top (by simp [h])
      refine (announces_step here).bind fun o => ?_
      cases o with
      | some r => trivial
      | none =>
          have next := ih (past ++ [b]) (by simp [h])
          rwa [List.length_append] at next

/-- **In a run each step follows the word that it begins.** -/
theorem run_announces (t : Task) : Announces t.actions s (t.cued s) :=
  (announces_quiet (note .running)).bind fun _ => announces_from [] rfl

end Runs

/-! ## 4. How far a run with cues comes -/

/-- **How far a program with cues comes.** Requests are answered as in `PlaysOn`; other cues take nothing
but their being said. -/
inductive CuePlaysOn {α : Type} : CueProg α → Scene → List Turn → CueProg α → Scene → Prop where
  | here (p : CueProg α) (s : Scene) : CuePlaysOn p s [] p s
  | turn {q : Request} {next : q.Answer → CueProg α} {s t : Scene} {log : List Turn} {p : CueProg α}
      (ws : List Wish) (x : q.Answer) (others : s.waits q = true ∨ ws = [])
      (allowed : (s.wishes ws).Allows q x)
      (rest : CuePlaysOn (next x) ((s.wishes ws).after q) log p t) :
      CuePlaysOn (.ask (.request q) next) s (⟨q, ws, x⟩ :: log) p t
  | enter {place : Place} {next : Unit → CueProg α} {s t : Scene} {log : List Turn} {p : CueProg α}
      (rest : CuePlaysOn (next ()) s log p t) : CuePlaysOn (.ask (.enter place) next) s log p t
  | round {place : Place} {next : Unit → CueProg α} {s t : Scene} {log : List Turn} {p : CueProg α}
      (rest : CuePlaysOn (next ()) s log p t) : CuePlaysOn (.ask (.round place) next) s log p t

section Plays

variable {α : Type} {as : List Action} {st : Settings} {p q : CueProg α} {s u : Scene}
  {log : List Turn}

/-- **Cues change nothing**: a program comes where it comes with its cues, and nowhere else. -/
theorem playsOn_plain_iff {r : RunProg α} :
    PlaysOn (CueProg.plain p) s log r u ↔ ∃ q, CuePlaysOn p s log q u ∧ CueProg.plain q = r := by
  constructor
  · intro h
    induction p generalizing s log with
    | done a =>
        cases h with
        | here => exact ⟨_, .here _ _, rfl⟩
    | ask c next ih =>
        cases c with
        | request q =>
            cases h with
            | here => exact ⟨_, .here _ _, rfl⟩
            | turn ws x others allowed rest =>
                obtain ⟨q', comes, same⟩ := ih x rest
                exact ⟨q', .turn ws x others allowed comes, same⟩
        | enter place =>
            obtain ⟨q', comes, same⟩ := ih () h
            exact ⟨q', .enter comes, same⟩
        | round place =>
            obtain ⟨q', comes, same⟩ := ih () h
            exact ⟨q', .round comes, same⟩
  · rintro ⟨q, comes, rfl⟩
    induction comes with
    | here p s => exact .here _ s
    | turn ws x others allowed _ ih => exact .turn ws x others allowed ih
    | enter _ ih => exact ih
    | round _ ih => exact ih

theorem CuePlaysOn.run {t : Task} {p : CueProg RunResult} (h : CuePlaysOn (t.cued st) s log p u) :
    PlaysOn (t.run st) s log (CueProg.plain p) u := by
  rw [← plain_cued]
  exact playsOn_plain_iff.mpr ⟨p, h, rfl⟩

theorem CuePlaysOn.announces (h : CuePlaysOn p s log q u) (hp : Announces as st p) :
    Announces as st q := by
  induction h with
  | here p s => exact hp
  | turn ws x others allowed _ ih => exact ih (hp.2 x)
  | enter _ ih => exact ih (hp.2 ())
  | round _ ih => exact ih (hp.2 ())

/-- **Where a run has come to the beginning of a step**, it does that step next. -/
theorem begins_step {t : Task} {place : Place} {next : Unit → CueProg RunResult} {a : Action}
    (comes : CuePlaysOn (t.cued st) s log (.ask (.enter place) next) u)
    (here : StepIn t.actions place a) : ∃ k, next () = (a.cuedInside st place).run.bind k := by
  obtain ⟨b, k, there, follows⟩ := (comes.announces (run_announces t)).1
  obtain rfl := here.unique there
  exact ⟨k, follows⟩

end Plays
end TaskReplay
