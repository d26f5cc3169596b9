import TaskReplay.Proofs.Engine.Order

/-!
# What a step of a system can do

Any number of calls act on one engine, in any order. This file says once what one step can do to the
engine and to where the acting call stands; invariants are proved by cases on it:

* `Reachable.in_order` -- the question at which a call stands is in order;
* `Act` -- the moves with their guards and effects, and the steps that are no moves;
* `act_of_step` -- **every step of a reachable system is an `Act`**.
-/

namespace TaskReplay.Engine

open Machine (Reaches)

/-! ## 1. Questions in reachable systems -/

section Order

variable {m : System} {n : Nat} {c : Call} {q : EngineRequest} {next : q.Answer → EngineProg Reply}

/-- The question at which a call stands is in order. -/
theorem Reachable.in_order (h : Reachable m) (ha : m.calls n = some ⟨c, .ask q next⟩) :
    c.may n (phase n m.log) q :=
  ((Machine.follows_of_reaches program_follows h n).2 _ ha).1

/-- A call that has not begun stands outside. -/
theorem Reachable.outside_of_free (h : Reachable m) (hn : m.calls n = none) :
    phase n m.log = .outside :=
  (Machine.follows_of_reaches program_follows h n).1 hn

/-- A call that has returned does not hold the engine. -/
theorem Reachable.not_holding_of_done {r : Reply} (h : Reachable m)
    (ha : m.calls n = some ⟨c, .done r⟩) (hd : Hold) : phase n m.log ≠ .holding hd :=
  (Machine.follows_of_reaches program_follows h n).2 _ ha hd

/-- A question that was answered had been in order, and the engine allowed the answer. -/
theorem Reachable.at_answer {newer older : List Line} {x : q.Answer} (h : Reachable m)
    (hl : m.log = newer ++ .answered n q x :: older) :
    ∃ (m₁ : System) (c : Call), Reachable m₁ ∧ m₁.log = older ∧ c.may n (phase n older) q ∧
      Allows m₁.state q x := by
  obtain ⟨m₁, c, next, h₁, rfl, -, asks, allowed, -⟩ := Reaches.at_answer h rfl hl
  exact ⟨m₁, c, h₁, rfl, Reachable.in_order h₁ asks, allowed⟩

end Order

/-! ## 2. Acts -/

/-- The engine after its run has given it back. -/
def released (e : Engine) (state : EngineState) : Engine := { e with current := none, state := state }

/-- **What a step of call `n` can do** to the engine and to where the call stands. -/
inductive Act (n : Nat) (e : Engine) : Phase → Engine → Phase → Prop where
  /-- Nothing that counts. -/
  | same {φ : Phase} (apart : ∀ h, φ ≠ .holding h) : Act n e φ e φ
  /-- A start takes the engine, which nobody holds and which is idle. -/
  | claim (task : TaskId) (total : Nat) (startedAt : Timestamp) (free : e.current = none)
      (idle : e.state.status = .idle) :
      Act n e .outside (e.claimed n task total startedAt) (.holding (.begin task total))
  | pause (run : Nat) (held : e.current = some run) (running : e.state.status = .running) :
      Act n e .outside { e.withControl run (e.control run).pause.1 with
        state := { e.state with status := .paused } } .outside
  | resume (run : Nat) (held : e.current = some run) (paused : e.state.status = .paused) :
      Act n e .outside { e.withControl run (e.control run).resume.1 with
        state := { e.state with status := .running } } .outside
  | stop (run : Nat) (held : e.current = some run)
      (active : e.state.status = .running ∨ e.state.status = .paused) :
      Act n e .outside { e.withControl run (e.control run).stop with
        state := { e.state with status := .stopping }.clearProgress } .outside
  | emergencyStop :
      Act n e .outside { e.stopCurrent with
        state := { { e.state with status := .idle }.clearProgress with
          lastError := some emergencyMessage } } .outside
  /-- A question of the run. -/
  | run {h : Hold} (q : Request) (x : q.Answer) (order : h.told = none) (may : h.mayAsk q)
      (allowed : Allows e (.run n q) x) : Act n e (.holding h) e (.holding (h.ask q x))
  /-- A question to stores, observers, the log or the clock. -/
  | world {h : Hold} : Act n e (.holding h) e (.holding { h with clear := false })
  /-- The engine notes down the stage that its run has told. -/
  | advance {h : Hold} {s : Stage} (told : h.told = some s)
      (active : e.state.status = .running ∨ e.state.status = .paused) :
      Act n e (.holding h) { e with state := { e.state with index := some s.index } }
        (.holding { h.heed with clear := false })
  /-- The engine is being stopped and notes nothing down. -/
  | ignore {h : Hold} {s : Stage} (told : h.told = some s)
      (inactive : e.state.status = .idle ∨ e.state.status = .stopping) :
      Act n e (.holding h) e (.holding { h.heed with clear := false })
  | finish {h : Hold} (order : h.told = none) (state : EngineState)
      (rest : ∃ executions lastError, state =
        { { e.state with status := .idle }.clearProgress with
          executions := executions, lastError := lastError }) :
      Act n e (.holding h) (e.released state) .ended

section Acts

variable {m m' : System} {n : Nat} {e : Engine}

theorem act_of_command {t : Transition} {φ : Phase} {q : EngineRequest} {x : q.Answer}
    (ht : Act n e .outside ((e.apply t).getD e) .outside)
    (hp : ∀ x, Phase.step .outside (.transition t) x = .outside)
    (hm : commandMay t φ q) : Act n e φ (e.after q) (Phase.step φ q x) := by
  cases φ with
  | outside =>
      cases q with
      | transition t' =>
          obtain rfl : t' = t := hm
          rw [hp]
          exact ht
      | publish event => exact .same nofun
      | log notice => exact .same nofun
      | _ => exact hm.elim
  | holding h => exact hm.elim
  | ended => exact hm.elim

theorem act_of_pause : Act n e .outside ((e.apply .pause).getD e) .outside := by
  cases hc : e.current with
  | none => simpa [apply, hc] using Act.same (n := n) (e := e) (φ := .outside) nofun
  | some run =>
      cases hs : e.state.status with
      | running => simpa [apply, hc, hs] using Act.pause (n := n) run hc hs
      | _ => simpa [apply, hc, hs] using Act.same (n := n) (e := e) (φ := .outside) nofun

theorem act_of_resume : Act n e .outside ((e.apply .resume).getD e) .outside := by
  cases hc : e.current with
  | none => simpa [apply, hc] using Act.same (n := n) (e := e) (φ := .outside) nofun
  | some run =>
      cases hs : e.state.status with
      | paused => simpa [apply, hc, hs] using Act.resume (n := n) run hc hs
      | _ => simpa [apply, hc, hs] using Act.same (n := n) (e := e) (φ := .outside) nofun

theorem act_of_stop : Act n e .outside ((e.apply .stop).getD e) .outside := by
  cases hc : e.current with
  | none => simpa [apply, hc] using Act.same (n := n) (e := e) (φ := .outside) nofun
  | some run =>
      cases hs : e.state.status with
      | running => simpa [apply, hc, hs, stopCurrent] using Act.stop (n := n) run hc (.inl hs)
      | paused => simpa [apply, hc, hs, stopCurrent] using Act.stop (n := n) run hc (.inr hs)
      | _ => simpa [apply, hc, hs] using Act.same (n := n) (e := e) (φ := .outside) nofun

theorem act_of_claim (n : Nat) (e : Engine) (task : TaskId) (total : Nat) (startedAt : Timestamp) :
    Act n e .outside ((e.apply (.claim n task total startedAt)).getD e)
      (Phase.step .outside (.transition (.claim n task total startedAt))
        ((e.apply (.claim n task total startedAt)).map (·.state))) := by
  by_cases hb : e.busy = true
  · simpa [apply, hb, Phase.step] using Act.same (n := n) (e := e) (φ := .outside) nofun
  · obtain ⟨free, idle⟩ : e.current = none ∧ e.state.status = .idle := by simpa [busy] using hb
    simpa [apply, hb, Phase.step, claimed] using Act.claim (n := n) task total startedAt free idle

theorem act_of_advance {h : Hold} {s : Stage} (told : h.told = some s) :
    Act n e (.holding h) ((e.apply (.advance s.index)).getD e)
      (.holding { h.heed with clear := false }) := by
  cases hs : e.state.status with
  | running => simpa [apply, hs] using Act.advance (n := n) told (.inl hs)
  | paused => simpa [apply, hs] using Act.advance (n := n) told (.inr hs)
  | idle => simpa [apply, hs] using Act.ignore (n := n) told (.inl hs)
  | stopping => simpa [apply, hs] using Act.ignore (n := n) told (.inr hs)

theorem act_of_start {task : TaskId} {φ : Phase} {q : EngineRequest} {x : q.Answer}
    (hm : startMay n task φ q) (hx : Allows e q x) :
    Act n e φ (e.after q) (Phase.step φ q x) := by
  cases φ with
  | outside =>
      cases q with
      | transition t =>
          cases t with
          | claim run task total startedAt =>
              obtain ⟨rfl, rfl⟩ := hm
              obtain rfl : x = _ := hx
              exact act_of_claim run e task total startedAt
          | _ => exact hm.elim
      | busy => exact .same nofun
      | loadTask id => exact .same nofun
      | loadSettings => exact .same nofun
      | now => exact .same nofun
      | _ => exact hm.elim
  | holding h =>
      cases q with
      | transition t =>
          cases t with
          | advance i =>
              obtain ⟨s, told, rfl⟩ := hm
              exact act_of_advance told
          | finish error => exact .finish hm _ (by cases error <;> exact ⟨_, _, rfl⟩)
          | _ => exact hm.elim
      | run k q =>
          obtain ⟨rfl, order, may⟩ := hm
          exact .run q x order may hx
      | loadTask id => exact .world
      | saveTask t => exact .world
      | now => exact .world
      | publish event => exact .world
      | log notice => exact .world
      | _ => exact hm.elim
  | ended =>
      cases q with
      | publish event => exact .same nofun
      | log notice => exact .same nofun
      | _ => exact hm.elim

/-- **Every step of a reachable system is an act** of the call that makes it. -/
theorem act_of_step (h : Reachable m) (hs : m.Step service n m') :
    Act n m.state (phase n m.log) m'.state (phase n m'.log) := by
  cases hs with
  | call c free =>
      show Act n m.state (phase n m.log) m.state (phase n m.log)
      rw [h.outside_of_free free]
      exact .same nofun
  | @answer c q next x asks allowed =>
      have may := h.in_order asks
      show Act n m.state (phase n m.log) (m.state.after q) (phase n (.answered n q x :: m.log))
      rw [show phase n (.answered n q x :: m.log) = Phase.step (phase n m.log) q x from
        Machine.phaseAt_answered .. |>.trans (if_pos rfl)]
      cases c with
      | start task => exact act_of_start may allowed
      | pause => exact act_of_command act_of_pause (fun _ => rfl) may
      | resume => exact act_of_command act_of_resume (fun _ => rfl) may
      | stop => exact act_of_command act_of_stop (fun _ => rfl) may
      | emergencyStop => exact act_of_command .emergencyStop (fun _ => rfl) may

end Acts
end TaskReplay.Engine
