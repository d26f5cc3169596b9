import TaskReplay.Proofs.Engine.SingleRun

/-!
# The snapshot, the wishes and the run agree

The engine keeps a snapshot for observers and, apart from it, the wishes about its run; the run has a
pace of its own. They agree in every reachable system:

* `Control.Fits` -- the wishes that go with a status;
* `EngineStatus.Moves` -- the ways a status can change in one step;
* `Sound` -- the invariant, one field for each thing that has to agree; `sound_act` -- every act
  keeps it;
* `reachable_coherent` -- **what observers may rely on**: status, wishes, progress and the moves.
-/

namespace TaskReplay

/-! ## 1. Statuses and wishes -/

/-- The wishes about a run that go with a status of the engine that the run holds. -/
def Control.Fits (c : Control) : EngineStatus → Prop
  | .running => c.paused = false ∧ c.stopped = false
  | .paused => c.paused = true ∧ c.stopped = false
  | .stopping | .idle => c.stopped = true

/-- The ways a status can change in one step. -/
inductive EngineStatus.Moves : EngineStatus → EngineStatus → Prop where
  | stay (s : EngineStatus) : Moves s s
  | start : Moves .idle .running
  | pause : Moves .running .paused
  | resume : Moves .paused .running
  | stop {s : EngineStatus} (active : s = .running ∨ s = .paused) : Moves s .stopping
  | rest (s : EngineStatus) : Moves s .idle

/-- Whether a snapshot tells of a run. -/
def EngineStatus.Active (s : EngineStatus) : Prop := s = .running ∨ s = .paused

/-- A snapshot without any trace of a run. -/
structure EngineState.Cleared (s : EngineState) : Prop where
  task : s.taskId = none
  index : s.index = none
  total : s.total = none
  startedAt : s.startedAt = none

theorem EngineState.cleared_clearProgress (s : EngineState) : s.clearProgress.Cleared :=
  ⟨rfl, rfl, rfl, rfl⟩

namespace Engine

/-- A snapshot that shows where a run stands. -/
structure Shows (s : EngineState) (h : Hold) : Prop where
  task : s.taskId = some h.task
  index : s.index = some h.stage.index
  total : s.total = some h.total
  startedAt : s.startedAt ≠ none

/-! ## 2. The invariant -/

/-- **The invariant**: the engine `e` agrees with where its calls stand. -/
structure Sound (e : Engine) (φ : Nat → Phase) : Prop where
  held : e.state.status ≠ .idle → e.current ≠ none
  fits : ∀ n, e.current = some n → (e.control n).Fits e.state.status
  fresh : ∀ n, φ n = .outside → e.control n = .fresh
  within : ∀ n h, φ n = .holding h →
    h.stage.index ≤ h.total ∧ ∀ s, h.told = some s → s.index ≤ h.total
  progress : ∀ n h, φ n = .holding h → e.state.status.Active → Shows e.state h
  cleared : ¬ e.state.status.Active → e.state.Cleared

theorem sound_initial : Sound Engine.initial fun _ => .outside where
  held h := absurd rfl h
  fits _ h := nomatch h
  fresh _ _ := rfl
  within _ _ h := nomatch h
  progress _ _ h := nomatch h
  cleared _ := ⟨rfl, rfl, rfl, rfl⟩

/-! ## 3. What acts do to wishes and progress -/

@[simp] theorem Hold.ask_task (h : Hold) (q : Request) (x : q.Answer) : (h.ask q x).task = h.task := by
  cases q <;> rfl

@[simp] theorem Hold.ask_total (h : Hold) (q : Request) (x : q.Answer) :
    (h.ask q x).total = h.total := by
  cases q <;> rfl

@[simp] theorem Hold.ask_stage (h : Hold) (q : Request) (x : q.Answer) :
    (h.ask q x).stage = h.stage := by
  cases q <;> rfl

/-- A stage that a run tells in order lies within its task. -/
theorem Hold.told_le_total {h : Hold} {q : Request} {x : q.Answer} {s : Stage} (ht : h.told = none)
    (may : h.mayAsk q) (hs : (h.ask q x).told = some s) : s.index ≤ h.total := by
  cases q with
  | tell news =>
      cases news with
      | paused i => cases hs
      | step i total a moment =>
          cases moment with
          | started =>
              obtain rfl : Stage.begun i = s := Option.some.inj hs
              exact Nat.le_of_lt may.2
          | completed =>
              obtain rfl : Stage.completed i = s := Option.some.inj hs
              exact may.2
          | failed e again => cases hs
  | _ => exact absurd (ht.symm.trans hs) nofun

section Acts

variable {n k : Nat} {e e' : Engine} {φ : Nat → Phase} {ψ : Phase}

/-- Only the wishes about the run that holds the engine change. -/
theorem Act.control_of_ne {φ : Phase} (act : Act n e φ e' ψ) (hk : e.current ≠ some k) :
    e'.control k = e.control k := by
  have other {run : Nat} (held : e.current = some run) (c : Control) :
      (e.withControl run c).control k = e.control k := by
    rw [control_withControl, if_neg]
    rintro rfl
    exact hk held
  cases act with
  | pause run held => exact other held _
  | resume run held => exact other held _
  | stop run held => exact other held _
  | emergencyStop => exact (control_stopCurrent e k).trans (if_neg hk)
  | _ => rfl

/-- A call that stands outside stood there before. -/
theorem Act.outside_of_outside {φ : Phase} (act : Act n e φ e' .outside) : φ = .outside := by
  cases act <;> rfl

/-- Statuses change only as they should. -/
theorem Act.moves {φ : Phase} (act : Act n e φ e' ψ) : e.state.status.Moves e'.state.status := by
  cases act with
  | claim task total startedAt free idle => rw [idle]; exact .start
  | pause run held running => rw [running]; exact .pause
  | resume run held paused => rw [paused]; exact .resume
  | stop run held active => exact .stop active
  | emergencyStop => exact .rest _
  | finish order state rest =>
      obtain ⟨executions, lastError, rfl⟩ := rest
      exact .rest _
  | _ => exact .stay _

/-! ## 4. Acts keep the invariant -/

theorem Sound.held_act (h : Sound e φ) (act : Act n e (φ n) e' ψ) :
    e'.state.status ≠ .idle → e'.current ≠ none := by
  intro hs
  generalize hφ : φ n = φn at act
  cases act with
  | claim task total startedAt free idle => simp [claimed]
  | pause run held => simp [held]
  | resume run held => simp [held]
  | stop run held => simp [held]
  | emergencyStop => exact absurd rfl hs
  | finish order state rest =>
      obtain ⟨executions, lastError, rfl⟩ := rest
      exact absurd rfl hs
  | _ => exact h.held hs

theorem Sound.fits_act (h : Sound e φ) (act : Act n e (φ n) e' ψ) (hk : e'.current = some k) :
    (e'.control k).Fits e'.state.status := by
  generalize hφ : φ n = φn at act
  -- the wishes about the run that holds the engine, when they have just been set
  have own {run : Nat} (held : e.current = some run) (c : Control) (hk : e.current = some k) :
      (e.withControl run c).control k = c := by
    obtain rfl : run = k := Option.some.inj (held.symm.trans hk)
    rw [control_withControl, if_pos rfl]
  cases act with
  | claim task total startedAt free idle =>
      obtain rfl : n = k := Option.some.inj hk
      show (e.control n).Fits .running
      rw [h.fresh n hφ]
      exact ⟨rfl, rfl⟩
  | pause run held running =>
      have fits := h.fits run held
      rw [running] at fits
      show ((e.withControl run _).control k).Fits .paused
      rw [own held _ hk]
      simp [Control.pause, Control.Fits, fits.2]
  | resume run held paused =>
      have fits := h.fits run held
      rw [paused] at fits
      show ((e.withControl run _).control k).Fits .running
      rw [own held _ hk]
      exact ⟨rfl, fits.2⟩
  | stop run held active =>
      show ((e.withControl run _).control k).Fits .stopping
      rw [own held _ hk]
      rfl
  | emergencyStop =>
      have current : e.current = some k := by simpa using hk
      show (e.stopCurrent.control k).Fits .idle
      rw [control_stopCurrent, if_pos current]
      rfl
  | finish => cases hk
  | _ => exact h.fits k hk

theorem Sound.within_act {h' : Hold} (h : Sound e φ) (act : Act n e (φ n) e' ψ)
    (hψ : ψ = .holding h') :
    h'.stage.index ≤ h'.total ∧ ∀ s, h'.told = some s → s.index ≤ h'.total := by
  generalize hφ : φ n = φn at act
  cases act with
  | same => exact h.within n h' (hφ.trans hψ)
  | claim task total startedAt =>
      cases hψ
      exact ⟨Nat.zero_le _, nofun⟩
  | run q x order may =>
      cases hψ
      refine ⟨by simpa using (h.within n _ hφ).1, fun s hs => ?_⟩
      simpa using Hold.told_le_total order may hs
  | world =>
      cases hψ
      obtain ⟨stage, told⟩ := h.within n _ hφ
      exact ⟨stage, told⟩
  | advance told active =>
      cases hψ
      refine ⟨?_, nofun⟩
      simpa [Hold.heed, told] using (h.within n _ hφ).2 _ told
  | ignore told inactive =>
      cases hψ
      refine ⟨?_, nofun⟩
      simpa [Hold.heed, told] using (h.within n _ hφ).2 _ told
  | _ => cases hψ

/-- The progress of the acting call, if it holds the engine. -/
theorem Sound.progress_act {h' : Hold} (h : Sound e φ) (act : Act n e (φ n) e' ψ)
    (hψ : ψ = .holding h') (active : e'.state.status.Active) : Shows e'.state h' := by
  generalize hφ : φ n = φn at act
  cases act with
  | same => exact h.progress n h' (hφ.trans hψ) active
  | claim task total startedAt =>
      cases hψ
      exact ⟨rfl, rfl, rfl, nofun⟩
  | run q x order may =>
      cases hψ
      obtain ⟨task, index, total, startedAt⟩ := h.progress n _ hφ active
      exact ⟨by simpa using task, by simpa using index, by simpa using total, startedAt⟩
  | world =>
      cases hψ
      obtain ⟨task, index, total, startedAt⟩ := h.progress n _ hφ active
      exact ⟨task, index, total, startedAt⟩
  | advance told active' =>
      cases hψ
      obtain ⟨task, -, total, startedAt⟩ := h.progress n _ hφ active'
      exact ⟨task, by simp [Hold.heed, told], total, startedAt⟩
  | ignore told inactive =>
      rcases inactive with hs | hs <;> simp [EngineStatus.Active, hs] at active
  | _ => cases hψ

/-- The progress of another call, if it holds the engine. -/
theorem Sound.progress_of_ne {h' : Hold} (h : Sound e φ)
    (names : ∀ k, e.current = some k ↔ ∃ h, φ k = .holding h) (act : Act n e (φ n) e' ψ) (hk : k ≠ n)
    (hφk : φ k = .holding h') (active : e'.state.status.Active) : Shows e'.state h' := by
  -- the engine names call `k`, so call `n` can neither claim nor note anything down
  have named : e.current = some k := (names k).mpr ⟨h', hφk⟩
  generalize hφ : φ n = φn at act
  cases act with
  | claim task total startedAt free => rw [free] at named; cases named
  | pause run held running =>
      obtain ⟨task, index, total, startedAt⟩ := h.progress k _ hφk (.inl running)
      exact ⟨task, index, total, startedAt⟩
  | resume run held paused =>
      obtain ⟨task, index, total, startedAt⟩ := h.progress k _ hφk (.inr paused)
      exact ⟨task, index, total, startedAt⟩
  | stop => rcases active with hs | hs <;> cases hs
  | emergencyStop => rcases active with hs | hs <;> cases hs
  | advance =>
      have other := (names n).mpr ⟨_, hφ⟩
      exact absurd (Option.some.inj (named.symm.trans other)) hk
  | finish order state rest =>
      obtain ⟨executions, lastError, rfl⟩ := rest
      rcases active with hs | hs <;> cases hs
  | _ => exact h.progress k _ hφk active

theorem Sound.cleared_act (h : Sound e φ) (act : Act n e (φ n) e' ψ)
    (inactive : ¬ e'.state.status.Active) : e'.state.Cleared := by
  generalize hφ : φ n = φn at act
  cases act with
  | claim => exact absurd (.inl rfl) inactive
  | pause => exact absurd (.inr rfl) inactive
  | resume => exact absurd (.inl rfl) inactive
  | stop => exact EngineState.cleared_clearProgress _
  | emergencyStop => exact ⟨rfl, rfl, rfl, rfl⟩
  | advance told active => exact absurd active inactive
  | finish order state rest =>
      obtain ⟨executions, lastError, rfl⟩ := rest
      exact ⟨rfl, rfl, rfl, rfl⟩
  | _ => exact h.cleared inactive

/-- **Every act keeps the invariant.** -/
theorem sound_act (h : Sound e φ) (names : ∀ k, e.current = some k ↔ ∃ h, φ k = .holding h)
    (act : Act n e (φ n) e' ψ) : Sound e' (Function.update φ n ψ) where
  held := h.held_act act
  fits k := h.fits_act act
  fresh k hk := by
    have outside : φ k = .outside := by
      by_cases hn : k = n
      · subst hn
        rw [Function.update_self] at hk
        subst hk
        exact act.outside_of_outside
      · rwa [Function.update_of_ne hn] at hk
    rw [act.control_of_ne, h.fresh k outside]
    rw [Ne, names k, outside]
    exact nofun
  within k h' hk := by
    by_cases hn : k = n
    · subst hn
      exact h.within_act act (by rwa [Function.update_self] at hk)
    · exact h.within k h' (by rwa [Function.update_of_ne hn] at hk)
  progress k h' hk active := by
    by_cases hn : k = n
    · subst hn
      exact h.progress_act act (by rwa [Function.update_self] at hk) active
    · exact h.progress_of_ne names act hn (by rwa [Function.update_of_ne hn] at hk) active
  cleared := h.cleared_act act

end Acts

/-! ## 5. Reachable systems -/

section Reachable

variable {m m' : System} {n : Nat}

/-- Where the calls stand after a step. -/
theorem phases_step (hs : m.Step service n m') :
    (fun k => phase k m'.log) = Function.update (fun k => phase k m.log) n (phase n m'.log) := by
  funext k
  by_cases hk : k = n
  · subst hk
    rw [Function.update_self]
  · rw [Function.update_of_ne hk]
    exact hs.phaseAt_of_ne hk

/-- **The invariant holds in every reachable system.** -/
theorem sound_of_reachable (h : Reachable m) : Sound m.state fun k => phase k m.log := by
  induction h with
  | here => exact sound_initial
  | step h _ hs ih =>
      rw [phases_step hs]
      exact sound_act ih (current_iff_holds h) (act_of_step h hs)

/-- The only question in order while a stage is told and not noted down is to note it down. -/
theorem advance_of_told {h : Hold} {s : Stage} {c : Call} {q : EngineRequest} (told : h.told = some s)
    (may : c.may n (.holding h) q) : q = .transition (.advance s.index) := by
  have some_told {p : Prop} (hn : h.told = none) : p := by rw [told] at hn; cases hn
  cases c with
  | start task =>
      cases q with
      | transition t =>
          cases t with
          | advance i =>
              obtain ⟨s', told', rfl⟩ := may
              obtain rfl : s = s' := Option.some.inj (told.symm.trans told')
              rfl
          | finish error => exact some_told may
          | _ => exact may.elim
      | run k q => exact some_told may.2.1
      | busy => exact may.elim
      | loadSettings => exact may.elim
      | _ => exact some_told may
  | _ => exact may.elim

/-- A stage that was told is noted down by the next thing the call does. -/
theorem noted_next {h : Hold} {s : Stage} (hm : Reachable m) (hh : phase n m.log = .holding h)
    (told : h.told = some s) :
    ∃ c next, m.calls n = some ⟨c, .ask (.transition (.advance s.index)) next⟩ := by
  cases ha : m.calls n with
  | none => rw [hm.outside_of_free ha] at hh; cases hh
  | some a =>
      obtain ⟨c, rest⟩ := a
      cases rest with
      | done r => exact absurd hh (hm.not_holding_of_done ha h)
      | ask q next =>
          have may := hm.in_order ha
          rw [hh] at may
          obtain rfl := advance_of_told told may
          exact ⟨c, next, rfl⟩

/-- **What observers may rely on** in a system. -/
structure Coherent (m : System) : Prop where
  /-- A status other than idle means that a run holds the engine. -/
  held : m.state.state.status ≠ .idle → ∃ n, m.state.current = some n
  /-- The wishes about the run that holds the engine fit the status. -/
  fits : ∀ n, m.state.current = some n → (m.state.control n).Fits m.state.state.status
  /-- While a run is active, the snapshot shows its task, its number of steps and the step where it
  stands. -/
  progress : m.state.state.status.Active → ∃ n h, m.state.current = some n ∧
    phase n m.log = .holding h ∧ Shows m.state.state h ∧ h.stage.index ≤ h.total
  /-- The step where a run stands is the one it told last, up to the moment of noting that down. -/
  noted : ∀ n h s, phase n m.log = .holding h → h.told = some s →
    ∃ c next, m.calls n = some ⟨c, .ask (.transition (.advance s.index)) next⟩
  /-- While no run is active, the snapshot shows no trace of one. -/
  cleared : ¬ m.state.state.status.Active → m.state.state.Cleared
  /-- Whatever happens next, the status changes only as it should. -/
  moves : ∀ n m', m.Step service n m' → m.state.state.status.Moves m'.state.state.status

/-- **Snapshot, wishes and run agree in every reachable system.** -/
theorem reachable_coherent (h : Reachable m) : Coherent m := by
  have sound := sound_of_reachable h
  have held (hs : m.state.state.status ≠ .idle) : ∃ n, m.state.current = some n :=
    Option.ne_none_iff_exists'.mp (sound.held hs)
  refine ⟨held, sound.fits, fun active => ?_, fun _ _ _ => noted_next h, sound.cleared,
    fun _ _ hs => (act_of_step h hs).moves⟩
  obtain ⟨n, hn⟩ := held (by rcases active with hs | hs <;> rw [hs] <;> nofun)
  obtain ⟨hd, hh⟩ := (current_iff_holds h n).mp hn
  exact ⟨n, hd, hn, hh, sound.progress n hd hh active, (sound.within n hd hh).1⟩

/-- A run that is paused at its click. -/
def pausedRun : System := clickBegun |> proceed never 1 .pause

/-- The same run after it was resumed and told to stop, still at its click. -/
def stoppingRun : System := pausedRun |> proceed never 2 .resume |> proceed never 3 .stop

/-- The same run after its click, which the engine no longer notes down, and after its end. -/
def endedRun : System := stoppingRun |> proceed never 0 (.start ⟨0⟩)

/-- A run that is paused, resumed and stopped before its end agrees with what observers see. -/
theorem coherent_paused :
    Reachable pausedRun ∧ pausedRun.state.state.status = .paused ∧
      (pausedRun.state.control 0).paused = true ∧ Coherent pausedRun ∧
    Reachable stoppingRun ∧ stoppingRun.state.state.status = .stopping ∧
      stoppingRun.state.current = some 0 ∧ (stoppingRun.state.control 0).stopped = true ∧
      Coherent stoppingRun ∧
    Reachable endedRun ∧ .answered 0 (.transition (.advance 1)) none ∈ endedRun.log ∧
      endedRun.state.state.status = .idle ∧ endedRun.state.current = none ∧ Coherent endedRun := by
  have h₀ : Reachable clickBegun := Reachable.proceed .here awaitsDevice 0 _
  have h₁ : Reachable pausedRun := h₀.proceed never 1 _
  have h₂ : Reachable stoppingRun := (h₁.proceed never 2 _).proceed never 3 _
  have h₃ : Reachable endedRun := h₂.proceed never 0 _
  have ignored : endedRun.log[10]? = some (.answered 0 (.transition (.advance 1)) none) := rfl
  exact ⟨h₁, rfl, rfl, reachable_coherent h₁, h₂, rfl, rfl, rfl, reachable_coherent h₂, h₃,
    List.mem_of_getElem? ignored, rfl, rfl, reachable_coherent h₃⟩

end Reachable
end Engine
end TaskReplay
