import TaskReplay.Proofs.Run.Walk

/-!
# Runs with cues

The requests of a run do not show where in its tree of steps it is. Cues do, and they change nothing
else:

* `Cue` -- a request, or word that a step begins or that a loop goes past its look at pause and stop;
* `RunProg.quiet` -- a program without cues; `CueProg.plain` -- a program with its cues taken out;
* `Action.cued`, `cuedAll`, `LoopRule.cued`, `Task.cued` -- a step, a sequence, a loop and a run with
  their cues;
* `plain_cued` -- **a run with its cues taken out is the run itself**.
-/

namespace TaskReplay

open Script

/-! ## 1. Cues -/

/-- The place of a step in a task, read outwards: its number in the sequence it is part of, then
which sequence that is of the step around it, and the place of that step. -/
abbrev Place := List Nat

/-- What a run says of itself. -/
inductive Cue where
  | request (q : Request)
  /-- The step at a place begins. -/
  | enter (place : Place)
  /-- The loop at a place goes past its look at pause and stop. -/
  | round (place : Place)

/-- Only a request is answered. -/
abbrev Cue.Answer : Cue → Type
  | request q => q.Answer
  | enter _ => Unit
  | round _ => Unit

/-- A program with cues. -/
abbrev CueProg := Prog Cue Cue.Answer

/-- A script with cues. -/
abbrev CueScript := ExceptT StepError CueProg

/-- The program with all its requests and no other cue. -/
def RunProg.quiet {α : Type} : RunProg α → CueProg α
  | .done a => .done a
  | .ask q next => .ask (.request q) fun x => RunProg.quiet (next x)

/-- The script with all its requests and no other cue. -/
def Script.quiet {α : Type} (m : Script α) : CueScript α := ExceptT.mk (RunProg.quiet m.run)

/-- Says that a step begins. -/
def CueScript.enter (place : Place) : CueScript Unit := ExceptT.lift (Prog.request (Cue.enter place))

/-- Says that a loop goes past its look at pause and stop. -/
def CueScript.round (place : Place) : CueScript Unit := ExceptT.lift (Prog.request (Cue.round place))

/-- The program without its cues. -/
def CueProg.plain {α : Type} : CueProg α → RunProg α
  | .done a => .done a
  | .ask (.request q) next => .ask q fun x => CueProg.plain (next x)
  | .ask (.enter _) next => CueProg.plain (next ())
  | .ask (.round _) next => CueProg.plain (next ())

/-- The script without its cues. -/
def CueScript.plain {α : Type} (m : CueScript α) : Script α := ExceptT.mk (CueProg.plain m.run)

/-! ## 2. Where cues are -/

/-- The body of a loop again and again, as `LoopRule.iterate` has it. -/
def LoopRule.cued (s : Settings) (id : String) (r : LoopRule) (place : Place)
    (body : CueScript Unit) : (left done : Nat) → CueScript Unit
  | 0, done => do
    boundary.quiet
    CueScript.round place
    Script.quiet (if r.wantsMore done then Script.ask (.log (.loopLimit id r.limit)) else pure ())
  | left + 1, done => do
    boundary.quiet
    CueScript.round place
    if ← (r.proceeds s id done).quiet then
      body
      r.cued s id place body left (done + 1)

mutual

/-- A step, as `Action.execute` has it. -/
def Action.cued (s : Settings) (place : Place) : Action → CueScript Unit
  | .simple _ deed => do
    CueScript.enter place
    (deed.execute s).quiet
  | .condition h test thenBranch elseBranch => do
    CueScript.enter place
    if ← (test.holds s h.id).quiet then cuedAll s (0 :: place) 0 thenBranch
    else cuedAll s (1 :: place) 0 elseBranch
  | .loop h rule body => do
    CueScript.enter place
    rule.cued s h.id place (cuedAll s (0 :: place) 0 body) rule.limit 0

/-- The inner steps of a sequence from `index` on, as `executeAll` has them. -/
def cuedAll (s : Settings) (sequence : Place) (index : Nat) : List Action → CueScript Unit
  | [] => pure ()
  | a :: rest => do
    (pauseFor a.header.delayBefore).quiet
    a.cued s (index :: sequence)
    (pauseFor a.header.delayAfter).quiet
    cuedAll s sequence (index + 1) rest

end

/-- A step with the delay before it, as `Action.perform` has it. -/
def Action.cuedPerform (s : Settings) (place : Place) (a : Action) : CueScript Unit := do
  (pauseFor a.header.delayBefore).quiet
  a.cued s place

/-- One step of the walk, as `walkStep` has it. -/
def cuedStep (s : Settings) (total index : Nat) (a : Action) : CueProg (Option RunResult) := do
  if ← (gate index).quiet then return some (← (endStopped index).quiet)
  else
    (Request.ask (.tell (.step index total a .started))).quiet
    (closeStep s total index a (← (a.cuedPerform s [index]).run)).quiet

/-- The steps from `index` on, as `runFrom` has them. -/
def cuedFrom (s : Settings) (total : Nat) : (index : Nat) → List Action → CueProg RunResult
  | _, [] => do
    (note .completed).quiet
    return .ok .completed
  | index, a :: rest => do
    match ← cuedStep s total index a with
    | some result => return result
    | none => cuedFrom s total (index + 1) rest

/-- A run, as `Task.run` has it. -/
def Task.cued (s : Settings) (t : Task) : CueProg RunResult := do
  (note .running).quiet
  cuedFrom s t.actions.length 0 t.actions

/-! ## 3. Cues taken out -/

/-- What goes through programs from one to the next goes through scripts so, too. -/
theorem script_bind {Q R : Type} {A : Q → Type} {B : R → Type} {α β : Type}
    (F : {γ : Type} → Prog Q A γ → Prog R B γ)
    (done : ∀ {γ : Type} (c : γ), F (.done c : Prog Q A γ) = .done c)
    (bind : ∀ {γ δ : Type} (p : Prog Q A γ) (g : γ → Prog Q A δ),
      F (p.bind g) = (F p).bind fun c => F (g c))
    (m : ExceptT StepError (Prog Q A) α) (f : α → ExceptT StepError (Prog Q A) β) :
    (ExceptT.mk (F (m >>= f).run) : ExceptT StepError (Prog R B) β) =
      ExceptT.mk (F m.run) >>= fun a => ExceptT.mk (F (f a).run) := by
  refine ExceptT.ext ?_
  rw [run_bind, ExceptT.run_mk, run_bind, bind, ExceptT.run_mk]
  congr 1
  funext r
  cases r with
  | ok a => rfl
  | error e => exact done _

section Plain

variable {α β : Type} (s : Settings)

@[simp] theorem plain_done (a : α) : CueProg.plain (.done a) = .done a := rfl

@[simp] theorem plain_quiet (p : RunProg α) : CueProg.plain p.quiet = p := by
  induction p with
  | done a => rfl
  | ask q next ih => exact congrArg (Prog.ask q) (funext ih)

theorem plain_bind (p : CueProg α) (f : α → CueProg β) :
    CueProg.plain (p.bind f) = (CueProg.plain p).bind fun a => CueProg.plain (f a) := by
  induction p with
  | done a => rfl
  | ask c next ih =>
      cases c with
      | request q => exact congrArg (Prog.ask q) (funext ih)
      | enter place => exact ih ()
      | round place => exact ih ()

theorem quiet_bind (p : RunProg α) (f : α → RunProg β) :
    RunProg.quiet (p.bind f) = p.quiet.bind fun a => (f a).quiet := by
  induction p with
  | done a => rfl
  | ask q next ih => exact congrArg (Prog.ask (Cue.request q)) (funext ih)

theorem script_quiet_bind (m : Script α) (f : α → Script β) :
    Script.quiet (m >>= f) = m.quiet >>= fun a => (f a).quiet :=
  script_bind RunProg.quiet (fun _ => rfl) quiet_bind m f

@[simp] theorem script_plain_quiet (m : Script α) : CueScript.plain m.quiet = m := plain_quiet m.run

@[simp] theorem script_plain_bind (m : CueScript α) (f : α → CueScript β) :
    CueScript.plain (m >>= f) = CueScript.plain m >>= fun a => CueScript.plain (f a) :=
  script_bind CueProg.plain (fun _ => rfl) plain_bind m f

@[simp] theorem script_plain_pure (a : α) : CueScript.plain (pure a) = pure a := rfl

@[simp] theorem script_plain_enter (place : Place) :
    (CueScript.enter place).plain = pure () := rfl

@[simp] theorem script_plain_round (place : Place) :
    (CueScript.round place).plain = pure () := rfl

@[simp] theorem script_pure_bind (a : α) (f : α → Script β) : (pure a : Script α) >>= f = f a := rfl

theorem script_plain_ite (c : Bool) (m m' : CueScript α) :
    CueScript.plain (if c then m else m') =
      if c then CueScript.plain m else CueScript.plain m' := by
  cases c <;> rfl

theorem plain_loop (id : String) (r : LoopRule) (place : Place) {body : CueScript Unit}
    {inner : Script Unit} (h : CueScript.plain body = inner) (left done : Nat) :
    CueScript.plain (r.cued s id place body left done) = r.iterate s id inner left done := by
  induction left generalizing done with
  | zero => simp [LoopRule.cued, LoopRule.iterate]
  | succ left ih => simp [LoopRule.cued, LoopRule.iterate, script_plain_ite, h, ih]

mutual

/-- A step without its cues. -/
theorem plain_action (place : Place) : (a : Action) →
    CueScript.plain (a.cued s place) = a.execute s
  | .simple _ deed => by simp [Action.cued, Action.execute]
  | .condition h test thenBranch elseBranch => by
      simp [Action.cued, Action.execute, script_plain_ite, plain_all (0 :: place) 0 thenBranch,
        plain_all (1 :: place) 0 elseBranch]
  | .loop h rule body => by
      simp only [Action.cued, Action.execute, script_plain_bind, script_plain_enter,
        script_pure_bind]
      exact plain_loop s h.id rule place (plain_all (0 :: place) 0 body) rule.limit 0

/-- Inner steps without their cues. -/
theorem plain_all (sequence : Place) (index : Nat) : (as : List Action) →
    CueScript.plain (cuedAll s sequence index as) = executeAll s as
  | [] => rfl
  | a :: rest => by
      simp [cuedAll, executeAll, plain_action (index :: sequence) a,
        plain_all sequence (index + 1) rest]

end

theorem plain_perform (place : Place) (a : Action) :
    CueScript.plain (a.cuedPerform s place) = a.perform s := by
  simp [Action.cuedPerform, Action.perform, plain_action]

theorem plain_step (total index : Nat) (a : Action) :
    CueProg.plain (cuedStep s total index a) = walkStep s total index a := by
  have inner : CueProg.plain (a.cuedPerform s [index]).run = (a.perform s).run :=
    plain_perform s [index] a
  rw [walkStep_eq]
  simp only [cuedStep, Prog.bind_eq, plain_bind, plain_quiet]
  congr 1
  funext stop
  cases stop with
  | true => simp [plain_bind]
  | false => simp [plain_bind, inner, Request.ask]

theorem plain_from (total index : Nat) (as : List Action) :
    CueProg.plain (cuedFrom s total index as) = runFrom s total index as := by
  induction as generalizing index with
  | nil => rfl
  | cons a as ih =>
      simp only [cuedFrom, runFrom, Prog.bind_eq, plain_bind, plain_step]
      congr 1
      funext o
      cases o with
      | some r => rfl
      | none => exact ih (index + 1)

/-- **A run with its cues taken out is the run itself.** -/
theorem plain_cued (t : Task) : CueProg.plain (t.cued s) = t.run s := by
  simp only [Task.cued, Task.run, Prog.bind_eq, plain_bind, plain_quiet, plain_from]

end Plain
end TaskReplay
