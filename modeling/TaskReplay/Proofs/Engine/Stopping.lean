import TaskReplay.Proofs.Engine.SingleRun

/-!
# Runs that were told to stop

Calls change places only where they wait. Then a run looks for a stop and begins its next step with
nothing in between:

* `stopped_of_reaches` -- a stop is for good;
* `unstopped_of_clear` -- between a look that saw no stop and the next wait, no stop is wished;
* `claim_after_stop` -- **a step that begins after an emergency stop belongs to a run that claimed the
  engine after that stop**.
-/

namespace TaskReplay.Engine

open Machine (Reaches)

/-! ## 1. A stop is for good -/

section Stop

variable {e e' : Engine} {k : Nat} {φ ψ : Phase} {n : Nat} {m m' : System}

theorem stopped_withControl {run : Nat} {c : Control} (h : (e.control k).stopped = true)
    (hc : (e.control run).stopped = true → c.stopped = true) :
    ((e.withControl run c).control k).stopped = true := by
  rw [control_withControl]
  split
  · next same => subst same; exact hc h
  · exact h

/-- No move takes a stop back. -/
theorem stopped_apply {t : Transition} (ht : e.apply t = some e')
    (h : (e.control k).stopped = true) : (e'.control k).stopped = true := by
  cases t with
  | claim run task total startedAt =>
      simp only [apply] at ht
      split at ht <;> cases ht
      exact h
  | pause =>
      simp only [apply] at ht
      split at ht <;> cases ht
      exact stopped_withControl (c := (e.control _).pause.1) h (by simp)
  | resume =>
      simp only [apply] at ht
      split at ht <;> cases ht
      exact stopped_withControl (c := (e.control _).resume.1) h (by simp)
  | stop =>
      have stopped : (e.stopCurrent.control k).stopped = true := by
        rw [control_stopCurrent]
        split
        · rfl
        · exact h
      simp only [apply] at ht
      split at ht <;> cases ht <;> exact stopped
  | emergencyStop =>
      cases ht
      show (e.stopCurrent.control k).stopped = true
      rw [control_stopCurrent]
      split
      · rfl
      · exact h
  | advance i =>
      simp only [apply] at ht
      split at ht <;> cases ht <;> exact h
  | finish error =>
      cases ht
      exact h

theorem stopped_after (q : EngineRequest) (h : (e.control k).stopped = true) :
    ((e.after q).control k).stopped = true := by
  cases q with
  | transition t =>
      cases ht : e.apply t with
      | none => simpa [after, ht] using h
      | some e' => simpa [after, ht] using stopped_apply ht h
  | _ => exact h

theorem stopped_of_step (hs : m.Step service n m') (h : (m.state.control k).stopped = true) :
    (m'.state.control k).stopped = true := by
  cases hs with
  | call c free => exact h
  | @answer c q next x asks allowed => exact stopped_after q h

/-- **A stop is for good.** -/
theorem stopped_of_reaches {turn : Nat → System → Prop} (hr : Reaches service turn m m')
    (h : (m.state.control k).stopped = true) : (m'.state.control k).stopped = true := by
  induction hr with
  | here => exact h
  | step _ _ hs ih => exact stopped_of_step hs ih

/-- An emergency stop stops the run that holds the engine. -/
theorem stopped_of_emergencyStop (hk : e.current = some k) :
    ((e.after (.transition .emergencyStop)).control k).stopped = true := by
  show (e.stopCurrent.control k).stopped = true
  rw [control_stopCurrent, if_pos hk]
  rfl

end Stop

/-! ## 2. From the look to the step -/

section Clear

variable {m m' : System} {n k : Nat}

/-- A run has no stop wished between a look that saw none and its next wait. -/
theorem Act.unstopped {e e' : Engine} {φ : Phase} {h' : Hold} (act : Act n e φ e' (.holding h'))
    (clear : h'.clear = true) : (e.control n).stopped = false ∧ e' = e := by
  cases act with
  | same apart => exact absurd rfl (apart h')
  | claim => cases clear
  | @run h q x order may allowed =>
      cases q with
      | stopped =>
          have seen : x = (e.control n).stopped := allowed
          have clear : (!x) = true := clear
          rw [← seen]
          exact ⟨by simpa using clear, rfl⟩
      | _ => cases clear
  | world => cases clear
  | advance => cases clear
  | ignore => cases clear

/-- **From the look to the step**: no stop is wished of a run that has looked and has not waited
since, as long as it is about to go on. -/
theorem unstopped_of_clear {h : Hold} (hm : ReachableInTurn m) (hh : phase n m.log = .holding h)
    (clear : h.clear = true) (awake : ¬ m.AtRest EngineRequest.waits n) :
    (m.state.control n).stopped = false := by
  induction hm with
  | here => cases hh
  | @step m m' k reached turn hs ih =>
      by_cases hk : n = k
      · subst hk
        have act := act_of_step (ReachableInTurn.reachable reached) hs
        rw [hh] at act
        obtain ⟨unstopped, same⟩ := act.unstopped clear
        rw [same]
        exact unstopped
      · -- another call acted, so this one rests
        refine absurd (fun a ha => ?_) awake
        rw [hs.calls_of_ne hk] at ha
        exact turn n hk a ha

end Clear

/-! ## 3. Claims after an emergency stop -/

section Claims

variable {m : System} {n k : Nat} {older : List Line}

/-- Only a claim leads to holding the engine. -/
theorem claim_of_step {φ : Phase} {q : EngineRequest} {x : q.Answer} {h : Hold}
    (before : ∀ h, φ ≠ .holding h) (hs : φ.step q x = .holding h) (n : Nat) :
    ∃ run task total startedAt s, (Entry.answered n q x : Line) =
      .answered n (.transition (.claim run task total startedAt)) (some s) := by
  cases φ with
  | outside =>
      cases q with
      | transition t =>
          cases t with
          | claim run task total startedAt =>
              cases x with
              | none => cases hs
              | some s => exact ⟨run, task, total, startedAt, s, rfl⟩
          | _ => cases hs
      | _ => cases hs
  | holding h' => exact absurd rfl (before h')
  | ended => cases q <;> cases hs

/-- A call that came to hold the engine has claimed it. -/
theorem claim_of_holds {mid : List Line} (hOut : ¬ Holds n older) (hh : Holds n (mid ++ older)) :
    ∃ later earlier run task total startedAt s, mid = later ++
      .answered n (.transition (.claim run task total startedAt)) (some s) :: earlier := by
  obtain ⟨later, earlier, q, x, rfl, before, h, holding⟩ :=
    Machine.phaseAt_enters (P := fun φ => ∃ h, φ = Phase.holding h) hOut hh
  obtain ⟨run, task, total, startedAt, s, line⟩ :=
    claim_of_step (fun h holds => before ⟨h, holds⟩) holding n
  exact ⟨later, earlier, run, task, total, startedAt, s, by rw [line]⟩

/-- Where a step begins, the call holds the engine, the step is one of its task, and no stop is
wished of its run. -/
theorem Begins.unstopped {newer : List Line} {line : Line} (h : ReachableInTurn m)
    (hl : m.log = newer ++ line :: older) (hb : Begins n line) :
    ∃ (m₁ : System) (hd : Hold), ReachableInTurn m₁ ∧ m₁.log = older ∧ 0 < hd.total ∧
      phase n older = .holding hd ∧ (m₁.state.control n).stopped = false ∧
      ∃ c q next, m₁.calls n = some ⟨c, .ask q next⟩ := by
  obtain ⟨run, i, total, a, rfl⟩ := hb
  obtain ⟨m₁, c, next, h₁, rfl, -, asks, -, -⟩ := Reaches.at_answer h rfl hl
  obtain ⟨rfl, hd, hφ⟩ := holds_of_run h.reachable hl
  have awake : ¬ m₁.AtRest EngineRequest.waits run := fun rest => nomatch rest _ asks
  obtain ⟨-, hd', same, -, clear, within⟩ :=
    Call.holding_of_run ((ReachableInTurn.reachable h₁).in_order asks)
  obtain rfl : hd = hd' := Phase.holding.inj (hφ.symm.trans same)
  exact ⟨m₁, hd, h₁, rfl, by omega, hφ, unstopped_of_clear h₁ hφ clear awake, _, _, _, asks⟩

/-- **A step that begins after an emergency stop** belongs to a run that claimed the engine after
that stop. -/
theorem claim_after_stop {newer mid : List Line} {line : Line} {x : Option EngineState}
    (h : ReachableInTurn m)
    (hl : m.log = newer ++ line :: (mid ++ .answered k (.transition .emergencyStop) x :: older))
    (hb : Begins n line) :
    ∃ later earlier run task total startedAt s, mid = later ++
      .answered n (.transition (.claim run task total startedAt)) (some s) :: earlier := by
  obtain ⟨m₁, hd, h₁, hlog, -, hφ, unstopped, -⟩ := hb.unstopped h hl
  have holds : Holds n (mid ++ .answered k (.transition .emergencyStop) x :: older) := ⟨hd, hφ⟩
  refine claim_of_holds ?_ holds
  obtain ⟨m₂, c, next, h₂, rfl, -, -, -, since⟩ := Reaches.at_answer h₁ rfl hlog
  -- had the call held the engine at the emergency stop, its run would have been stopped
  have free : ¬ Holds n m₂.log := by
    intro held
    have current := (current_iff_holds (ReachableInTurn.reachable h₂) n).mpr held
    have stopped := stopped_of_reaches since (stopped_of_emergencyStop current)
    rw [unstopped] at stopped
    cases stopped
  rintro ⟨h', holding⟩
  rw [phase_answered] at holding
  split at holding
  · obtain ⟨_, _, _, _, _, line⟩ := claim_of_step (fun h held => free ⟨h, held⟩) holding n
    cases line
  · exact free ⟨h', holding⟩

end Claims
end TaskReplay.Engine
