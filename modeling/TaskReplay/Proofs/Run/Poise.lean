import TaskReplay.Proofs.Run.Film
import TaskReplay.Proofs.Run.Heed

/-!
# How a run heeds a pause

A run looks for a pause before each step of the walk and before each round of a loop, and then waits
until none is pending. That it goes on only straight after such a look is said here:

* `poise` -- where a run has just learned that no pause is pending, and that only there a step of the
  walk begins or a loop goes past its look; `run_poised` -- **a run keeps to that**;
* `heard` -- all wishes that came, in order; `Shot.waits` -- where others can act;
* `PauseSafe` -- no step begins and no loop goes on while a pause is pending; `pauseSafe_play` -- **so it
  is on film**, if others act only while the run waits.
-/

namespace TaskReplay

open Script

/-! ## 1. Looks at a pause -/

/-- A step of the walk begins, or a loop goes past its look at pause and stop. -/
def Cue.goesOn : Cue → Bool
  | .round _ => true
  | .request q => q.begins
  | .enter _ => false

/-- **Going on only straight after a look at a pause.** The state tells whether there was one since the
run last did anything but take notes and look for a stop. -/
def poise : Protocol Cue Cue.Answer Bool where
  may looked c := c.goesOn = true → looked = true
  step looked
    | .request .pausePending, pending => !pending
    | .request .awaitResume, _ => true
    | .request (.mark _), _ | .request .stopped, _ => looked
    | _, _ => false

section Scripts

variable {α β : Type}

/-- A program that keeps to that, wherever it begins. -/
def Poised (p : CueProg α) : Prop := ∀ looked, p.Follows poise (fun _ _ => True) looked

theorem Poised.bind {m : CueScript α} {f : α → CueScript β} (hm : Poised m.run)
    (hf : ∀ a, Poised (f a).run) : Poised (m >>= f).run := by
  intro looked
  rw [run_bind]
  refine (hm looked).bind fun r after _ => ?_
  cases r with
  | ok a => exact hf a after
  | error e => trivial

theorem poised_quiet {p : RunProg α} (h : p.Asks fun q => q.begins = false) : Poised p.quiet := by
  induction p with
  | done a => exact fun _ => trivial
  | ask q next ih =>
      refine fun looked => ⟨fun goes => ?_, fun x => ih x (h.2 x) _⟩
      have begins : q.begins = true := goes
      rw [h.1] at begins
      cases begins

theorem begins_of_inner {q : Request} (h : q.inner = true) : q.begins = false := by
  cases q <;> first | rfl | cases h

theorem made_poised {m : Script α} (hm : Made m) : Poised m.quiet.run :=
  poised_quiet (hm.asks.mono fun _ => begins_of_inner)

/-- A loop goes on straight after its look. -/
theorem round_poised {place : Place} {f : Unit → CueScript Unit} (hf : Poised (f ()).run) :
    Poised (boundary.quiet >>= fun _ => CueScript.round place >>= f).run := by
  refine fun looked => ⟨nofun, fun _ => ⟨nofun, fun stop => ?_⟩⟩
  cases stop with
  | true => trivial
  | false => exact ⟨fun _ => rfl, fun _ => hf _⟩

theorem enter_poised {place : Place} {f : Unit → CueScript Unit} (hf : Poised (f ()).run) :
    Poised (CueScript.enter place >>= f).run := fun _ => ⟨nofun, fun _ => hf _⟩

end Scripts

/-! ## 2. Steps and runs -/

section Steps

variable (s : Settings)

theorem loop_poised (id : String) (r : LoopRule) (place : Place) {body : CueScript Unit}
    (hb : Poised body.run) (left done : Nat) : Poised (r.cued s id place body left done).run := by
  induction left generalizing done with
  | zero =>
      have log : Made
          (if r.wantsMore done then Script.ask (.log (.loopLimit id r.limit)) else pure ()) :=
        made_ite (.ask _ rfl trivial) (.pure _)
      exact round_poised (made_poised log)
  | succ left ih =>
      refine round_poised (Poised.bind (made_poised (proceeds_made s r done).made) fun more => ?_)
      cases more with
      | false => exact fun _ => trivial
      | true => exact hb.bind fun _ => ih (done + 1)

mutual

/-- A step. -/
theorem action_poised (place : Place) : (a : Action) → Poised (a.cued s place).run
  | .simple _ deed => enter_poised (made_poised (deed_made s deed).made)
  | .condition h test thenBranch elseBranch => by
      refine enter_poised (Poised.bind (made_poised (holds_made s test).made) fun x => ?_)
      cases x with
      | true => exact all_poised (0 :: place) 0 thenBranch
      | false => exact all_poised (1 :: place) 0 elseBranch
  | .loop h rule body =>
      enter_poised (loop_poised s h.id rule place (all_poised (0 :: place) 0 body) rule.limit 0)

/-- A sequence. -/
theorem all_poised (sequence : Place) (index : Nat) : (as : List Action) →
    Poised (cuedAll s sequence index as).run
  | [] => fun _ => trivial
  | a :: rest =>
      (Poised.bind (made_poised (pauseFor_made _)) fun _ =>
        (action_poised (index :: sequence) a).bind fun _ =>
          Poised.bind (made_poised (pauseFor_made _)) fun _ =>
            all_poised sequence (index + 1) rest)

end

/-- Before a step of the walk a run looks for a pause. -/
theorem gate_poised (i : Nat) (looked : Bool) :
    (gate i).quiet.Follows poise (fun _ looked => looked = true) looked := by
  refine ⟨nofun, fun _ => ⟨nofun, fun pending => ?_⟩⟩
  cases pending with
  | false => exact ⟨nofun, fun _ => rfl⟩
  | true =>
      exact ⟨nofun, fun _ => ⟨nofun, fun _ => ⟨nofun, fun _ => ⟨nofun, fun _ =>
        ⟨nofun, fun _ => rfl⟩⟩⟩⟩⟩

theorem closeStep_poised (total i : Nat) (a : Action) (x : Except StepError Unit) :
    Poised (closeStep s total i a x).quiet := by
  refine poised_quiet ?_
  cases x with
  | ok u =>
      refine ⟨rfl, fun _ => ((recover_any s a).asks.mono fun _ => begins_of_inner).bind fun r => ?_⟩
      cases r with
      | ok u => trivial
      | error e => exact ⟨rfl, fun _ => trivial⟩
  | error e =>
      by_cases he : e = .interrupted
      · subst he
        exact ⟨rfl, fun _ => trivial⟩
      · rw [closeStep.eq_3 s total i a e he]
        split
        · exact ⟨rfl, fun _ => ⟨rfl, fun _ => trivial⟩⟩
        · exact ⟨rfl, fun _ => ⟨rfl, fun _ => trivial⟩⟩

theorem step_poised (total index : Nat) (a : Action) : Poised (cuedStep s total index a) := by
  refine fun looked => (gate_poised index looked).bind fun stop after seen => ?_
  cases stop with
  | true => exact ⟨nofun, fun _ => trivial⟩
  | false =>
      have performed : Poised (a.cuedPerform s [index]).run :=
        Poised.bind (made_poised (pauseFor_made _)) fun _ => action_poised s [index] a
      exact ⟨fun _ => seen, fun _ => (performed _).bind fun x _ _ =>
        closeStep_poised s total index a x _⟩

theorem from_poised (total index : Nat) (as : List Action) : Poised (cuedFrom s total index as) := by
  induction as generalizing index with
  | nil => exact fun _ => ⟨nofun, fun _ => trivial⟩
  | cons a as ih =>
      refine fun looked => (step_poised s total index a looked).bind fun o after _ => ?_
      cases o with
      | some r => trivial
      | none => exact ih (index + 1) after

/-- **A run goes on only straight after a look at a pause.** -/
theorem run_poised (t : Task) : Poised (t.cued s) :=
  fun _ => ⟨nofun, fun _ => from_poised s _ 0 _ _⟩

end Steps

/-! ## 3. Films -/

/-- All wishes that came, in order. -/
def heard (plan : Plan) (us : List Shot) : List Wish :=
  plan.before ++ us.reverse.flatMap fun u => u.wishes.flatMap (·.2)

/-- What is wished after some shots. -/
def wished (plan : Plan) (us : List Shot) : Control := (heard plan us).foldl Control.wish .fresh

/-- **No step of the walk begins and no loop goes on while a pause is pending**, told by shots. -/
def PauseSafe (plan : Plan) (us : List Shot) : Prop :=
  ∀ later u earlier, us = later ++ u :: earlier → u.cue.goesOn = true →
    (wished plan earlier).pausePending = false

/-- Whether the run waits, so that others can act. -/
def Shot.waits (u : Shot) : Bool :=
  match u.cue with
  | .request (.device _) | .request (.search _ _ _) | .request (.tell _) => true
  | .request (.settle ms) | .request (.sleep ms) => ms != 0
  | .request .awaitResume => u.ended != some u.begun
  | _ => false

/-- Others acted only where the run waited. -/
def OthersWait (us : List Shot) : Prop := ∀ u ∈ us, u.wishes ≠ [] → u.waits = true

section Films

variable {w : Surroundings} {plan : Plan} {f : Film} {q : Request} {α : Type}

theorem wished_cons (u : Shot) (us : List Shot) :
    wished plan (u :: us) = (u.wishes.flatMap (·.2)).foldl Control.wish (wished plan us) := by
  simp [wished, heard]

theorem wished_cut (c : Cue) : wished plan (f.cut c).shots = wished plan f.shots :=
  wished_cons ⟨c, f.now, [], some f.now⟩ f.shots

theorem wished_take (h : f.scene.control = wished plan f.shots) :
    (f.take w plan q).scene.control = wished plan (f.take w plan q).shots := by
  rw [Film.take, Scene.control_after, wished_cons, ← h]
  rfl

theorem PauseSafe.cons {u : Shot} {us : List Shot} (h : PauseSafe plan us)
    (now : u.cue.goesOn = true → (wished plan us).pausePending = false) : PauseSafe plan (u :: us) := by
  intro later v earlier hl
  cases later with
  | nil =>
      obtain ⟨rfl, rfl⟩ := List.cons.inj hl
      exact now
  | cons _ later => exact h later v earlier (List.cons.inj hl).2

theorem control_take : (f.take w plan q).scene.control =
    ((f.shot w plan q).wishes.flatMap (·.2)).foldl Control.wish f.scene.control :=
  Scene.control_after _ q

/-- A request ends as it would if what is wished at its end had been wished all along. -/
theorem ended_shot (w : Surroundings) (plan : Plan) (f : Film) (q : Request) :
    ∃ t, (f.shot w plan q).ended =
    ((f.wait w q).wake? (f.take w plan q).scene.control t).map (·.1) := by
  obtain ⟨t, ends⟩ := (f.wait w q).endure_ends f.scene.control f.now (f.wished plan)
  exact ⟨t, by rw [control_take]; exact ends⟩

/-- **The wait for a pause to end** ends exactly if none is pending any more. -/
theorem ended_awaitResume (pending : f.scene.control.pausePending = true) :
    (f.shot w plan .awaitResume).ended.isSome =
      !(f.take w plan .awaitResume).scene.control.pausePending := by
  obtain ⟨t, ends⟩ := ended_shot w plan f .awaitResume
  have waits : f.wait w .awaitResume = .resume f.now := if_pos pending
  rw [ends, waits]
  simp only [Suspension.wake?, Control.pausePending]
  cases (f.take w plan .awaitResume).scene.control.stopped <;>
    cases (f.take w plan .awaitResume).scene.control.paused <;> rfl

/-- Where nobody acts, nothing changes. -/
theorem control_take_of_calm (calm : (f.shot w plan q).wishes = []) :
    (f.take w plan q).scene.control = f.scene.control := by
  rw [control_take, calm]
  rfl

/-- A film on its way, right after a look at a pause if `looked`. -/
structure Watched (plan : Plan) (looked : Bool) (f : Film) : Prop where
  safe : PauseSafe plan f.shots
  control : f.scene.control = wished plan f.shots
  /-- Right after a look at a pause, none is pending. -/
  clear : looked = true → f.scene.control.pausePending = false

/-- A request is answered, and others wait unless the run does. -/
theorem Watched.request {looked : Bool} (h : Watched plan looked f) (may : poise.may looked (.request q))
    (others : (f.shot w plan q).wishes ≠ [] → (f.shot w plan q).waits = true)
    (ends : (f.shot w plan q).ended.isSome = true) :
    Watched plan (poise.step looked (.request q) (f.answer w (f.take w plan q) q)) (f.take w plan q) := by
  have calm (at_once : (f.shot w plan q).waits = false) : (f.shot w plan q).wishes = [] :=
    Classical.byContradiction fun came => by rw [others came] at at_once; cases at_once
  refine ⟨h.safe.cons fun goes => ?_, ?_, fun looked' => ?_⟩
  · exact h.control ▸ h.clear (may goes)
  · exact wished_take h.control
  · cases q with
    | pausePending => exact (Bool.not_eq_true' _).mp looked'
    | awaitResume =>
        cases pending : f.scene.control.pausePending with
        | true => exact (Bool.not_eq_true' _).mp (ended_awaitResume pending ▸ ends)
        | false =>
            -- the wait is over at once, so nobody acts
            have settles := Suspension.endure_settle (Nat.le_refl f.now) f.scene.control
              (f.wished plan)
            have at_once : (f.shot w plan .awaitResume).waits = false := by
              simp [Shot.waits, Film.shot, Film.wait, pending, settles.1]
            rw [control_take_of_calm (calm at_once), pending]
    | mark m => rw [control_take_of_calm (calm rfl)]; exact h.clear looked'
    | stopped => rw [control_take_of_calm (calm rfl)]; exact h.clear looked'
    | _ => cases looked'

/-- A cue that takes no time. -/
theorem Watched.cut {looked : Bool} {c : Cue} (h : Watched plan looked f)
    (goes : c.goesOn = true → looked = true) : Watched plan false (f.cut c) where
  safe := h.safe.cons fun now => h.control ▸ h.clear (goes now)
  control := h.control.trans (wished_cut c).symm
  clear := nofun

/-- Shots once taken stay. -/
theorem shots_grow (p : CueProg α) (f : Film) : f.shots <:+ (f.play w plan p).2.shots := by
  induction p generalizing f with
  | done a => exact List.suffix_refl _
  | ask c next ih =>
      cases c with
      | enter place => exact (List.suffix_cons _ _).trans (ih () (f.cut (.enter place)))
      | round place => exact (List.suffix_cons _ _).trans (ih () (f.cut (.round place)))
      | request q =>
          have one : f.shots <:+ (f.take w plan q).shots := List.suffix_cons _ _
          simp only [Film.play]
          split
          · exact one.trans (ih _ _)
          · exact one

/-- What is wished at the end of a film is what was wished in its shots. -/
theorem control_play (p : CueProg α) (f : Film) (h : f.scene.control = wished plan f.shots) :
    (f.play w plan p).2.scene.control = wished plan (f.play w plan p).2.shots := by
  induction p generalizing f with
  | done a => exact h
  | ask c next ih =>
      cases c with
      | enter place => exact ih () (f.cut (.enter place)) (h.trans (wished_cut _).symm)
      | round place => exact ih () (f.cut (.round place)) (h.trans (wished_cut _).symm)
      | request q =>
          have after := wished_take (w := w) (q := q) h
          simp only [Film.play]
          split
          · exact ih _ _ after
          · exact after

/-- A film that has not begun. -/
theorem watched_blank (plan : Plan) (start : Nat) (context : Context) :
    Watched plan false (.blank plan start context) where
  safe later u earlier none_taken := absurd none_taken.symm (by simp [Film.blank])
  control := by simp [Film.blank, Scene.wishes, wished, heard]
  clear := nofun

/-- **A run that looks before it goes on does so on film**, if others act only while it waits. -/
theorem pauseSafe_play {p : CueProg α} {looked : Bool} (hp : p.Follows poise (fun _ _ => True) looked)
    (h : Watched plan looked f) (others : OthersWait (f.play w plan p).2.shots) :
    PauseSafe plan (f.play w plan p).2.shots := by
  induction p generalizing looked f with
  | done a => exact h.safe
  | ask c next ih =>
      cases c with
      | enter place => exact ih () (hp.2 ()) (h.cut nofun) others
      | round place => exact ih () (hp.2 ()) (h.cut fun _ => hp.1 rfl) others
      | request q =>
          simp only [Film.play] at others ⊢
          split at others
          · next ends =>
            rw [if_pos ends]
            have here : f.shot w plan q ∈ (f.take w plan q).shots := List.mem_cons_self
            have calm := others _ ((shots_grow _ _).subset here)
            exact ih _ (hp.2 _) (h.request hp.1 calm ends) others
          · next ends =>
            rw [if_neg ends]
            exact h.safe.cons fun goes => h.control ▸ h.clear (hp.1 goes)

end Films
end TaskReplay
