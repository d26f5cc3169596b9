import TaskReplay.Proofs.Engine.EmergencyStop
import TaskReplay.Proofs.Engine.Returns

/-!
# The error that an engine shows

Three moves speak of the last error: a claim forgets it, an emergency stop and the finish of a failed
run set it. The engine shows what was said last:

* `voice` -- what a line of the log says of the last error; `lastError_of_log` -- the latest word is
  the one that the engine shows;
* `holds_of_late_finish` -- a run that finishes after a move, with no claim between, held the engine
  at that move;
* `FailsLate` -- a run gives the engine back with its failure, and no emergency stop comes after that;
* `emergency_message_kept_iff` -- **the message of an emergency stop is kept until the next claim
  unless the run that it stopped fails**; then the failure takes its place.
-/

namespace TaskReplay.Engine

open Machine (Reaches)

/-! ## 1. What is said of the last error -/

/-- What a line says of the last error. -/
def voice : Line → Option (Option String)
  | .answered _ (.transition (.claim _ _ _ _)) (some _) => some none
  | .answered _ (.transition .emergencyStop) _ => some (some emergencyMessage)
  | .answered _ (.transition (.finish (some message))) _ => some (some message)
  | _ => none

section Voice

variable {m : System} {n k : Nat} {newer older : List Line}

/-- What one question and its answer do to the last error. -/
theorem lastError_after (e : Engine) {q : EngineRequest} {x : q.Answer} (allowed : Allows e q x)
    (n : Nat) : (e.after q).state.lastError = (voice (.answered n q x)).getD e.state.lastError := by
  cases q with
  | transition t =>
      obtain rfl : x = (e.apply t).map (·.state) := allowed
      cases t with
      | claim run task total startedAt =>
          simp only [after, apply]
          split <;> rfl
      | pause =>
          simp only [after, apply]
          split <;> rfl
      | resume =>
          simp only [after, apply]
          split <;> rfl
      | stop =>
          simp only [after, apply]
          split <;> rfl
      | emergencyStop => rfl
      | advance i =>
          simp only [after, apply]
          split <;> rfl
      | finish error => cases error <;> rfl
  | _ => rfl

/-- **The engine shows what was said last** of the error, and none if nothing was. -/
theorem lastError_of_log (h : Reachable m) :
    m.state.state.lastError = (m.log.findSome? voice).getD none := by
  induction h with
  | here => rfl
  | @step m m' k h _ hs ih =>
      cases hs with
      | call c free => exact ih
      | @answer c q next x asks allowed =>
          show (m.state.after q).state.lastError = _
          rw [lastError_after m.state allowed k, ih]
          show _ = (List.findSome? voice (.answered k q x :: m.log)).getD none
          rw [List.findSome?_cons]
          cases voice (.answered k q x) <;> rfl

/-! ## 2. Runs that finish late -/

/-- The error of a finish is the text of a run's failure. -/
theorem failure_of_finish {message : String} {y : Option EngineState} (h : Reachable m)
    (hl : m.log = newer ++ .answered n (.transition (.finish (some message))) y :: older) :
    ∃ f : RunFailure, message = f.message := by
  obtain ⟨m₁, c, next, h₁, rfl, -, asks, -⟩ := Reaches.at_answer h rfl hl
  obtain ⟨r, same⟩ := Call.errorOf_of_finish (Reachable.stands h₁ asks)
  cases r with
  | ok outcome => cases same
  | error f => exact ⟨f, Option.some.inj same⟩

/-- In these lines no start takes the engine. -/
def Unclaimed (lines : List Line) : Prop :=
  ∀ n run task total startedAt s,
    .answered n (.transition (.claim run task total startedAt)) (some s) ∉ lines

/-- A run that finishes with no claim since some time held the engine at that time. -/
theorem holds_of_late_finish {mid : List Line} {e : Option String} {y : Option EngineState}
    (h : Reachable m)
    (hl : m.log = newer ++ .answered n (.transition (.finish e)) y :: (mid ++ older))
    (unclaimed : Unclaimed mid) : Holds n older := by
  by_contra apart
  obtain ⟨later, earlier, run, task, total, startedAt, s, rfl⟩ :=
    claim_of_holds apart (holds_of_finish h hl)
  exact unclaimed n run task total startedAt s (by simp)

/-- Nobody holds the engine right after a finish. -/
theorem not_holds_of_finish {e : Option String} {y : Option EngineState} (h : Reachable m)
    (hl : m.log = newer ++ .answered n (.transition (.finish e)) y :: older) :
    ¬ Holds k (.answered n (.transition (.finish e)) y :: older) := by
  obtain ⟨m₁, c, next, h₁, rfl, turn, asks, allowed, -⟩ := Reaches.at_answer h rfl hl
  have h₂ : Reachable (m₁.reply service n c (.transition (.finish e)) y (next y)) :=
    Reaches.step h₁ turn (.answer y asks allowed)
  intro held
  have named := (current_iff_holds h₂ k).mpr held
  cases e <;> cases named

/-! ## 3. Failures after a stop -/

/-- Run `n` has given the engine back with its failure, and no emergency stop came after that. -/
def FailsLate (n : Nat) (f : RunFailure) (lines : List Line) : Prop :=
  ∃ newest y mid, lines = newest ++ .answered n (.transition (.finish (some f.message))) y :: mid ∧
    ∀ k x, .answered k (.transition .emergencyStop) x ∉ newest

/-- The text of a failure is not that of an emergency stop. -/
theorem message_ne_emergencyMessage (f : RunFailure) : f.message ≠ emergencyMessage := by
  intro same
  have first := congrArg (fun s => s.toList.head?) same
  simp [RunFailure.message, emergencyMessage] at first

/-- What is said of the last error in lines without a claim. -/
theorem voice_of_mem {lines : List Line} {line : Line} {v : Option String} (hl : line ∈ lines)
    (unclaimed : Unclaimed lines) (hv : voice line = some v) :
    (∃ k x, line = .answered k (.transition .emergencyStop) x ∧ v = some emergencyMessage) ∨
      ∃ n message y, line = .answered n (.transition (.finish (some message))) y ∧
        v = some message := by
  unfold voice at hv
  split at hv
  · exact absurd hl (unclaimed _ _ _ _ _ _)
  · exact .inl ⟨_, _, rfl, (Option.some.inj hv).symm⟩
  · exact .inr ⟨_, _, _, rfl, (Option.some.inj hv).symm⟩
  · cases hv

variable {x : Option EngineState}

/-- A run that fails late held the engine at the stop, and its failure is what the engine shows. -/
theorem FailsLate.shown {f : RunFailure} (h : Reachable m)
    (hl : m.log = newer ++ .answered k (.transition .emergencyStop) x :: older)
    (unclaimed : Unclaimed newer) (late : FailsLate n f newer) :
    Holds n older ∧ m.state.state.lastError = some f.message := by
  obtain ⟨newest, y, mid, rfl, unstopped⟩ := late
  have split : m.log = newest ++ .answered n (.transition (.finish (some f.message))) y ::
      ((mid ++ [.answered k (.transition .emergencyStop) x]) ++ older) := by simpa using hl
  have held : Holds n older := by
    refine holds_of_late_finish h split fun i run task total startedAt s => ?_
    have := unclaimed i run task total startedAt s
    simp_all
  -- after the finish nobody holds the engine and nobody claims it, so no other run finishes
  have quiet : ∀ line ∈ newest, voice line = none := by
    intro line hline
    by_contra loud
    obtain ⟨v, hv⟩ := Option.ne_none_iff_exists'.mp loud
    have unclaimed' : Unclaimed newest := fun i run task total startedAt s hi =>
      unclaimed i run task total startedAt s (List.mem_append_left _ hi)
    rcases voice_of_mem hline unclaimed' hv with ⟨j, z, rfl, -⟩ | ⟨j, message, z, rfl, -⟩
    · exact unstopped j z hline
    · obtain ⟨last, first, rfl⟩ := List.append_of_mem hline
      have again : m.log = last ++ .answered j (.transition (.finish (some message))) z ::
          (first ++ .answered n (.transition (.finish (some f.message))) y ::
            ((mid ++ [.answered k (.transition .emergencyStop) x]) ++ older)) := by
        simpa using split
      refine not_holds_of_finish h split (holds_of_late_finish h again fun i run task total t s hi => ?_)
      exact unclaimed' i run task total t s (by simp [hi])
  refine ⟨held, ?_⟩
  rw [lastError_of_log h, split, List.findSome?_append, List.findSome?_eq_none_iff.mpr quiet]
  rfl

/-- **What becomes of the message of an emergency stop** as long as nobody claims the engine: it is
kept, unless the run that held the engine at the stop gives it back with a failure; then the engine
shows that failure. -/
theorem emergency_message_kept_iff (h : Reachable m)
    (hl : m.log = newer ++ .answered k (.transition .emergencyStop) x :: older)
    (unclaimed : Unclaimed newer) :
    (m.state.state.lastError = some emergencyMessage ↔ ∀ n f, ¬ FailsLate n f newer) ∧
      ∀ n f, FailsLate n f newer → Holds n older ∧ m.state.state.lastError = some f.message := by
  refine ⟨⟨fun kept n f late => ?_, fun never => ?_⟩, fun n f => FailsLate.shown h hl unclaimed⟩
  · have shown := (late.shown h hl unclaimed).2
    exact message_ne_emergencyMessage f (Option.some.inj (shown.symm.trans kept))
  · rw [lastError_of_log h, hl, List.findSome?_append]
    cases hw : newer.findSome? voice with
    | none => rfl
    | some v =>
        obtain ⟨newest, line, mid, rfl, hv, quiet⟩ := List.findSome?_eq_some_iff.mp hw
        rcases voice_of_mem (by simp) unclaimed hv with ⟨j, z, rfl, rfl⟩ | ⟨n, message, y, rfl, rfl⟩
        · rfl
        · have split : m.log = newest ++ .answered n (.transition (.finish (some message))) y ::
              (mid ++ .answered k (.transition .emergencyStop) x :: older) := by simpa using hl
          obtain ⟨f, rfl⟩ := failure_of_finish h split
          refine absurd ⟨newest, y, mid, rfl, fun j z hj => ?_⟩ (never n f)
          cases quiet _ hj

end Voice

/-! ## 4. A click that fails after the stop -/

section Replaced

/-- Why its run fails when the mouse is gone. -/
def mouseGone : RunFailure := ⟨0, "a", .dispatch (.device "mouse gone")⟩

/-- A run that was told to stop at its click. -/
def clickStopped : System := clickBegun |> proceed never 1 .emergencyStop

/-- The click has failed after that. -/
def clickFailed : System :=
  clickStopped |>
    proceedIn (fun _ => some clickTask) (.error (.device "mouse gone")) never 0 (.start ⟨0⟩)

/-- Lines that nowhere forget the last error hold no claim. -/
theorem unclaimed_of_voices {lines : List Line} (h : some none ∉ lines.map voice) :
    Unclaimed lines := fun _ _ _ _ _ _ hi => h (List.mem_map.mpr ⟨_, hi, rfl⟩)

theorem clickFailed_inTurn : ReachableInTurn clickFailed := by
  have first : turns 0 (Machine.initial Engine.initial) := fun k _ a ha => nomatch ha
  have h₀ : ReachableInTurn (Machine.initial Engine.initial) := .here
  -- the start rests at its click while the stop is called and returns
  obtain ⟨h₁, turn₁⟩ := h₀.proceed first awaitsDevice (.start ⟨0⟩)
  have rest₁ : Resting clickBegun := resting_of_turn turn₁ rfl rfl
  obtain ⟨h₂, turn₂⟩ := h₁.proceed (n := 1) (fun k _ => rest₁ k) never .emergencyStop
  have rest₂ : Resting clickStopped := resting_of_turn turn₂ rfl trivial
  exact (h₂.proceed (n := 0) (fun k _ => rest₂ k) never (.start ⟨0⟩)).1

/-- A run that is told to stop during its click, which then fails. -/
theorem exists_failed_late : ∃ (m : System) (newer older : List Line) (x : Option EngineState),
    ReachableInTurn m ∧ m.log = newer ++ .answered 1 (.transition .emergencyStop) x :: older ∧
      Unclaimed newer ∧ FailsLate 0 mouseGone newer := by
  let newer := clickFailed.log.take 13
  have newest : (newer.take 3).map voice = [none, none, none] := rfl
  refine ⟨clickFailed, newer, clickFailed.log.drop 14, some clickStopped.state.state,
    clickFailed_inTurn, rfl, unclaimed_of_voices (by decide),
    newer.take 3, some clickFailed.state.state, newer.drop 4, rfl, fun k x hk => ?_⟩
  have loud : some (some emergencyMessage) ∈ (newer.take 3).map voice :=
    List.mem_map.mpr ⟨_, hk, rfl⟩
  rw [newest] at loud
  simp at loud

/-- A click that fails after an emergency stop puts its own message in place of the stop's. -/
theorem emergency_message_kept_click : ∃ (m : System) (newer older : List Line)
    (x : Option EngineState), ReachableInTurn m ∧
      m.log = newer ++ .answered 1 (.transition .emergencyStop) x :: older ∧ Unclaimed newer ∧
      FailsLate 0 mouseGone newer ∧ Holds 0 older ∧
      m.state.state.lastError =
        some "action a (step 0) failed: dispatch failed: device error: mouse gone" := by
  obtain ⟨m, newer, older, x, h, log, unclaimed, late⟩ := exists_failed_late
  obtain ⟨held, shown⟩ := (emergency_message_kept_iff h.reachable log unclaimed).2 0 mouseGone late
  exact ⟨m, newer, older, x, h, log, unclaimed, late, held, shown⟩

/-- The message of an emergency stop is not always kept until the next claim. -/
theorem emergencyMessage_lost : ¬ ∀ (m : System) (newer older : List Line) (k : Nat)
    (x : Option EngineState), ReachableInTurn m →
      m.log = newer ++ .answered k (.transition .emergencyStop) x :: older → Unclaimed newer →
      m.state.state.lastError = some emergencyMessage := by
  intro claim
  obtain ⟨m, newer, older, x, h, log, unclaimed, late⟩ := exists_failed_late
  have shown := (late.shown h.reachable log unclaimed).2
  have kept := claim m newer older 1 x h log unclaimed
  exact message_ne_emergencyMessage mouseGone (Option.some.inj (shown.symm.trans kept))

end Replaced
end TaskReplay.Engine
