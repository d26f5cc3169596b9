import TaskReplay.Proofs.Engine.Acts
import TaskReplay.Proofs.Engine.Starting

/-!
# One run at a time

Calls on one engine interleave as they like, and yet the engine is never held by two runs:

* `Phase.rank` -- a call moves forward only: it stands outside, then holds the engine, then has ended;
* `current_iff_holds` -- the engine names the call that holds it, and names none if none does;
* `reachable_singleRun` -- **one run at a time**: what follows for claims, for finishes, and for the
  calls of runs on devices and screen.
-/

namespace TaskReplay.Engine

/-! ## 1. Calls move forward -/

/-- How far a call has come. -/
def Phase.rank : Phase → Nat
  | outside => 0
  | holding _ => 1
  | ended => 2

theorem Phase.rank_le_step (φ : Phase) (q : EngineRequest) (x : q.Answer) :
    φ.rank ≤ (φ.step q x).rank := by
  cases φ with
  | outside => exact Nat.zero_le _
  | holding h =>
      cases q with
      | transition t => cases t <;> simp [Phase.step, rank]
      | _ => simp [Phase.step, rank]
  | ended => cases q <;> simp [Phase.step, rank]

section Forward

variable {n : Nat} {older : List Line}

theorem phase_answered (k : Nat) (q : EngineRequest) (x : q.Answer) :
    phase n (.answered k q x :: older) =
      if k = n then (phase n older).step q x else phase n older := rfl

/-- A call does not go back as the log grows. -/
theorem rank_le_append (newer : List Line) :
    (phase n older).rank ≤ (phase n (newer ++ older)).rank := by
  induction newer with
  | nil => exact Nat.le_refl _
  | cons line newer ih =>
      cases line with
      | called k c => exact ih
      | answered k q x =>
          rw [List.cons_append, phase_answered]
          split
          · exact Nat.le_trans ih (Phase.rank_le_step _ q x)
          · exact ih

theorem holds_iff_rank {log : List Line} : Holds n log ↔ (phase n log).rank = 1 := by
  unfold Holds
  cases phase n log <;> simp [Phase.rank]

/-- A call that holds the engine, and held it earlier, held it all the time between. -/
theorem holds_between {mid newer : List Line} (hOld : Holds n older)
    (hNew : Holds n (newer ++ (mid ++ older))) : Holds n (mid ++ older) := by
  rw [holds_iff_rank] at *
  have up : (phase n older).rank ≤ (phase n (mid ++ older)).rank := rank_le_append mid
  have down : (phase n (mid ++ older)).rank ≤ (phase n (newer ++ (mid ++ older))).rank :=
    rank_le_append newer
  omega

end Forward

/-! ## 2. Who holds the engine -/

section Holder

variable {m m' : System} {n k : Nat} {e e' : Engine} {φ φ' : Phase}

/-- If the engine names the acting call exactly while it holds the engine, it does so afterwards. -/
theorem Act.current_iff (act : Act n e φ e' φ') (hn : e.current = some n ↔ ∃ h, φ = .holding h) :
    e'.current = some n ↔ ∃ h, φ' = .holding h := by
  cases act with
  | same => exact hn
  | claim => simp [claimed]
  | finish => simp [released]
  | _ => simpa using hn

/-- Whether the engine names another call does not change. -/
theorem Act.current_of_ne (act : Act n e φ e' φ')
    (hn : e.current = some n ↔ ∃ h, φ = .holding h) (hk : k ≠ n) :
    e'.current = some k ↔ e.current = some k := by
  cases act with
  | claim task total startedAt free => simp [claimed, free, hk.symm]
  | @finish h order state rest =>
      have held : e.current = some n := hn.mpr ⟨h, rfl⟩
      simp [released, held, hk.symm]
  | _ => simp

theorem holds_of_ne (hs : m.Step service n m') (hk : k ≠ n) : Holds k m'.log ↔ Holds k m.log := by
  unfold Holds phase
  rw [hs.phaseAt_of_ne hk]

/-- **The engine names the call that holds it**, and names none if none does. -/
theorem current_iff_holds (h : Reachable m) : ∀ k, m.state.current = some k ↔ Holds k m.log := by
  induction h with
  | here =>
      intro k
      exact ⟨nofun, fun ⟨h, hh⟩ => nomatch hh⟩
  | @step m m' n h _ hs ih =>
      intro k
      have act := act_of_step h hs
      by_cases hk : k = n
      · subst hk
        exact act.current_iff (ih k)
      · rw [act.current_of_ne (ih n) hk, ih k, holds_of_ne hs hk]

/-- Two calls never hold the engine at once. -/
theorem holds_unique (h : Reachable m) (hn : Holds n m.log) (hk : Holds k m.log) : n = k := by
  rw [← current_iff_holds h] at hn hk
  exact Option.some.inj (hn.symm.trans hk)

end Holder

/-! ## 3. One run at a time -/

/-- **One run at a time**, in the state of a system and all through its log. -/
structure SingleRun (m : System) : Prop where
  /-- The engine's slot is taken exactly while a run is between its claim and its finish. -/
  slot : ∀ n, m.state.current = some n ↔ Holds n m.log
  /-- There is at most one such run. -/
  one : ∀ n k, Holds n m.log → Holds k m.log → n = k
  /-- A start claims the engine for itself, and only when no run holds it. -/
  claims : ∀ newer older n run task total startedAt s,
    m.log = newer ++ .answered n (.transition (.claim run task total startedAt)) (some s) :: older →
      run = n ∧ ∀ k, ¬ Holds k older
  /-- Only the run that holds the engine finishes, and it clears no other. -/
  finishes : ∀ newer older n error x,
    m.log = newer ++ .answered n (.transition (.finish error)) x :: older →
      Holds n older ∧ ∀ k, Holds k older → k = n
  /-- A run works only while its own call holds the engine. -/
  works : ∀ newer older n run q x, m.log = newer ++ .answered n (.run run q) x :: older →
    run = n ∧ Holds n older
  /-- Between two requests of a run come no requests of another. -/
  apart : ∀ l₄ l₃ l₂ l₁ n k i j r q q' q'' x x' x'',
    m.log = l₄ ++ .answered r (.run n q'') x'' :: (l₃ ++ .answered j (.run k q') x' ::
      (l₂ ++ .answered i (.run n q) x :: l₁)) → k = n

section SingleRun

variable {m : System} {n : Nat} {newer older : List Line}

/-- A request of a run comes from the call that holds the engine. -/
theorem holds_of_run {run : Nat} {q : Request} {x : q.Answer} (h : Reachable m)
    (hl : m.log = newer ++ .answered n (.run run q) x :: older) : run = n ∧ Holds n older := by
  obtain ⟨m₁, c, -, rfl, may, -⟩ := h.at_answer hl
  obtain ⟨own, hd, holding, -⟩ := Call.holding_of_run may
  exact ⟨own, hd, holding⟩

/-- A finish comes from the call that holds the engine. -/
theorem holds_of_finish {error : Option String} {x : Option EngineState} (h : Reachable m)
    (hl : m.log = newer ++ .answered n (.transition (.finish error)) x :: older) :
    Holds n older := by
  obtain ⟨m₁, c, -, rfl, may, -⟩ := h.at_answer hl
  exact Call.holding_of_finish may

/-- A claim that is not refused finds the engine held by nobody. -/
theorem free_of_claim {run total : Nat} {task : TaskId} {startedAt : Timestamp} {s : EngineState}
    (h : Reachable m)
    (hl : m.log = newer ++ .answered n (.transition (.claim run task total startedAt)) (some s) ::
      older) : run = n ∧ ∀ k, ¬ Holds k older := by
  obtain ⟨m₁, c, h₁, rfl, may, allowed⟩ := h.at_answer hl
  have free : m₁.state.current = none := by
    by_cases hb : m₁.state.busy = true
    · have made : some s = _ := allowed
      simp [apply, hb] at made
    · exact (by simpa [busy] using hb : _ ∧ _).1
  refine ⟨Call.own_of_claim may, fun k hk => ?_⟩
  rw [← current_iff_holds h₁, free] at hk
  cases hk

/-- **One run at a time**: whichever calls are made and however their steps interleave. -/
theorem reachable_singleRun (h : Reachable m) : SingleRun m where
  slot := current_iff_holds h
  one _ _ := holds_unique h
  claims _ _ _ _ _ _ _ _ hl := free_of_claim h hl
  finishes newer older n error x hl := by
    obtain ⟨m₁, _, h₁, rfl, -⟩ := h.at_answer hl
    have held := holds_of_finish h hl
    exact ⟨held, fun k hk => holds_unique h₁ hk held⟩
  works _ _ _ _ _ _ hl := holds_of_run h hl
  apart l₄ l₃ l₂ l₁ n k i j r q q' q'' x x' x'' hl := by
    -- the log at the middle request, between the two requests of run `n`
    have mid : m.log = (l₄ ++ .answered r (.run n q'') x'' :: l₃) ++ .answered j (.run k q') x' ::
        (l₂ ++ .answered i (.run n q) x :: l₁) := by simpa using hl
    have old : m.log = (l₄ ++ .answered r (.run n q'') x'' :: (l₃ ++ .answered j (.run k q') x' ::
        l₂)) ++ .answered i (.run n q) x :: l₁ := by simpa using hl
    obtain ⟨rfl, heldNew⟩ := holds_of_run h hl
    obtain ⟨rfl, heldMid⟩ := holds_of_run h mid
    obtain ⟨rfl, heldOld⟩ := holds_of_run h old
    obtain ⟨m₁, _, h₁, hm₁, -⟩ := h.at_answer mid
    have between : Holds n (l₂ ++ .answered n (.run n q) x :: l₁) := by
      have := @holds_between n l₁ (l₂ ++ [.answered n (.run n q) x])
        (l₃ ++ [.answered k (.run k q') x']) heldOld (by simpa using heldNew)
      simpa using this
    rw [← hm₁] at heldMid between
    exact holds_unique h₁ heldMid between

/-- Three starts: while the second waits for its task, the first claims the engine and comes to its
click; then the second goes on, and the third is made. -/
def raced : System :=
  Machine.initial Engine.initial |> proceed awaitsTask 1 (.start ⟨0⟩)
    |> proceed awaitsDevice 0 (.start ⟨0⟩) |> proceed never 1 (.start ⟨0⟩)
    |> proceed never 2 (.start ⟨0⟩)

/-- The first start holds the engine; the second has lost the claim and the third found the engine
busy. -/
theorem singleRun_raced : Reachable raced ∧ Holds 0 raced.log ∧
    .answered 1 (.transition (.claim 1 ⟨0⟩ 1 .epoch)) none ∈ raced.log ∧
    raced.calls 1 = some ⟨.start ⟨0⟩, .done (.ended (.error .alreadyRunning))⟩ ∧
    .answered 2 .busy true ∈ raced.log ∧
    raced.calls 2 = some ⟨.start ⟨0⟩, .done (.ended (.error .alreadyRunning))⟩ ∧
    SingleRun raced := by
  have h : Reachable raced :=
    (((Reachable.proceed .here awaitsTask 1 _).proceed awaitsDevice 0 _).proceed never 1 _).proceed
      never 2 _
  have lost : raced.log[2]? = some (.answered 1 (.transition (.claim 1 ⟨0⟩ 1 .epoch)) none) := rfl
  have busy : raced.log[0]? = some (.answered 2 .busy true) := rfl
  exact ⟨h, ⟨_, rfl⟩, List.mem_of_getElem? lost, rfl, List.mem_of_getElem? busy, rfl,
    reachable_singleRun h⟩

end SingleRun
end TaskReplay.Engine
