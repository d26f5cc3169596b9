import TaskReplay.Proofs.Engine.Coherence
import TaskReplay.Proofs.Engine.Stopping

/-!
# Which starts outlive an emergency stop

An emergency stop acts on the run that holds the engine. A start that has not claimed the engine yet
knows nothing of it, and nothing is left behind that its claim would look at:

* `Course` -- where a start stands, with the task it has loaded; `course_of_reachable` -- the places
  of `Starting` are all there are;
* `OutlivesStop` -- an emergency stop can be called and return, and a start that was under way before
  it can begin a step after it;
* `outlivesStop_of_waits` -- every start that waits for its task or for the settings can do that;
* `outlives_stop_iff` -- **and no other start can**.
-/

namespace TaskReplay.Engine

open Machine (Reaches OthersStay)

/-! ## 1. The course of a start -/

/-- Where start `n` stands, the task it has loaded, and what is left of it. -/
inductive Course (n : Nat) (id : TaskId) : Option Task → Phase → EngineProg Reply → Prop where
  | called : Course n id none .outside (Call.program n (.start id))
  | task : Course n id none .outside (atTask n id)
  | settings (t : Task) : Course n id (some t) .outside (atSettings n id t)
  | prepared (t : Task) (st : Settings) : Course n id (some t) .outside (prepared n id (.ok (t, st)))
  | claims (t : Task) (st : Settings) (now : Timestamp) :
      Course n id (some t) .outside (atClaim n id t st now)
  | refused (o : Option Task) (r : Reply) : Course n id o .outside (.done r)
  | runs (t : Task) {h : Hold} (total : h.total = t.actions.length) (p : EngineProg Reply) :
      Course n id (some t) (.holding h) p
  | ended (o : Option Task) (p : EngineProg Reply) : Course n id o .ended p

section Course

variable {n : Nat} {id : TaskId} {o : Option Task} {φ : Phase} {m m' : System}

/-- A start that holds the engine keeps the number of its steps. -/
theorem total_of_step {h : Hold} {q : EngineRequest} (x : q.Answer) :
    Phase.step (.holding h) q x = .ended ∨
      ∃ h', Phase.step (.holding h) q x = .holding h' ∧ h'.total = h.total := by
  cases q with
  | transition t =>
      cases t with
      | finish error => exact .inl rfl
      | advance i => exact .inr ⟨_, rfl, rfl⟩
      | _ => exact .inr ⟨_, rfl, rfl⟩
  | run k q => exact .inr ⟨_, rfl, Hold.ask_total h q x⟩
  | _ => exact .inr ⟨_, rfl, rfl⟩

theorem course_loaded (t : Task) : ∃ o, Course n id o .outside (loaded n id t) := by
  unfold loaded
  split
  · split
    · exact ⟨_, .settings t⟩
    · exact ⟨none, .refused _ _⟩
  · exact ⟨none, .refused _ _⟩

/-- One answer leads a start from one place to the next; a task once loaded stays. -/
theorem course_step {q : EngineRequest} {next : q.Answer → EngineProg Reply}
    (h : Course n id o φ (.ask q next)) (x : q.Answer) :
    ∃ o', (∀ t, o = some t → o' = some t) ∧ Course n id o' (φ.step q x) (next x) := by
  generalize hp : Prog.ask q next = p at h
  cases h with
  | called =>
      rw [start_program] at hp
      cases hp
      cases x with
      | true => exact ⟨none, fun _ h => h, .refused _ _⟩
      | false => exact ⟨none, fun _ h => h, .task⟩
  | task =>
      cases hp
      cases x with
      | error e => exact ⟨none, fun _ h => h, .refused _ _⟩
      | ok found =>
          cases found with
          | none => exact ⟨none, fun _ h => h, .refused _ _⟩
          | some t =>
              obtain ⟨o', course⟩ : ∃ o, Course n id o .outside (loaded n id t) := course_loaded t
              exact ⟨o', (fun _ h => nomatch h), course⟩
  | settings t =>
      cases hp
      cases x with
      | ok st => exact ⟨some t, fun _ h => h, .prepared t st⟩
      | error e => exact ⟨some t, fun _ h => h, .refused _ _⟩
  | prepared t st =>
      cases hp
      exact ⟨some t, fun _ h => h, .claims t st x⟩
  | claims t st now =>
      cases hp
      cases x with
      | none => exact ⟨some t, fun _ h => h, .refused _ _⟩
      | some s => exact ⟨some t, fun _ h => h, .runs t rfl _⟩
  | refused o r => cases hp
  | @runs t h total p =>
      rcases total_of_step (h := h) x with ended | ⟨h', holds, same⟩
      · rw [ended]
        exact ⟨some t, fun _ h => h, .ended _ _⟩
      · rw [holds]
        exact ⟨some t, fun _ h => h, .runs t (same.trans total) _⟩
  | ended o p =>
      have ended : Phase.step .ended q x = .ended := by cases q <;> rfl
      rw [ended]
      exact ⟨o, fun _ h => h, .ended _ _⟩

/-- A step of the system leads a start that is under way from one place to the next. -/
theorem course_of_step {k : Nat} {p : EngineProg Reply} (hs : m.Step service k m')
    (ha : m.calls n = some ⟨.start id, p⟩) (h : Course n id o (phase n m.log) p) :
    ∃ o' p', (∀ t, o = some t → o' = some t) ∧ m'.calls n = some ⟨.start id, p'⟩ ∧
      Course n id o' (phase n m'.log) p' := by
  by_cases hk : n = k
  · subst hk
    cases hs with
    | call c free => rw [free] at ha; cases ha
    | @answer c q next x asks allowed =>
        rw [asks] at ha
        cases ha
        obtain ⟨o', same, course⟩ := course_step h x
        refine ⟨o', next x, same, Function.update_self .., ?_⟩
        rw [show (m.reply service n _ q x (next x)).log = .answered n q x :: m.log from rfl,
          phase_answered, if_pos rfl]
        exact course
  · have same : phase n m'.log = phase n m.log := hs.phaseAt_of_ne hk
    exact ⟨o, p, fun _ h => h, by rw [hs.calls_of_ne hk, ha], by rw [same]; exact h⟩

/-- The course of a start that is under way goes on. -/
theorem course_of_reaches {turn : Nat → System → Prop} {p : EngineProg Reply}
    (hr : Reaches service turn m m') (ha : m.calls n = some ⟨.start id, p⟩)
    (h : Course n id o (phase n m.log) p) :
    ∃ o' p', (∀ t, o = some t → o' = some t) ∧ m'.calls n = some ⟨.start id, p'⟩ ∧
      Course n id o' (phase n m'.log) p' := by
  induction hr with
  | here => exact ⟨o, p, fun _ h => h, ha, h⟩
  | step _ _ hs ih =>
      obtain ⟨o₁, p₁, same₁, ha₁, h₁⟩ := ih
      obtain ⟨o₂, p₂, same₂, ha₂, h₂⟩ := course_of_step hs ha₁ h₁
      exact ⟨o₂, p₂, fun t ht => same₂ t (same₁ t ht), ha₂, h₂⟩

/-- **Every start under way stands at one of the places of its course.** -/
theorem course_of_reachable {p : EngineProg Reply} (h : Reachable m)
    (ha : m.calls n = some ⟨.start id, p⟩) : ∃ o, Course n id o (phase n m.log) p := by
  induction h generalizing p with
  | here => cases ha
  | @step m m' k h _ hs ih =>
      rcases hs.calls_before ha with ⟨p₀, ha₀⟩ | ⟨free, log, rfl⟩
      · obtain ⟨o, course⟩ := ih ha₀
        obtain ⟨o', p', -, ha', course'⟩ := course_of_step hs ha₀ course
        rw [ha] at ha'
        cases ha'
        exact ⟨o', course'⟩
      · have outside : phase n m.log = .outside := Reachable.outside_of_free h free
        rw [log]
        show ∃ o, Course n id o (phase n m.log) _
        rw [outside]
        exact ⟨none, .called⟩

end Course

/-! ## 2. Calls driven on by themselves -/

section Solo

variable {m : System} {n k : Nat} {id : TaskId} {e : Engine} {p : EngineProg Reply}

/-- Every question has an allowed answer, except a wait for the end of a pause that is pending. -/
theorem exists_allowed (e : Engine) (q : EngineRequest)
    (h : ∀ n, q = .run n .awaitResume → (e.control n).pausePending = false) :
    ∃ x, Allows e q x := by
  cases q with
  | busy => exact ⟨_, rfl⟩
  | loadTask id => exact ⟨.ok none, trivial⟩
  | loadSettings => exact ⟨.ok .initial, trivial⟩
  | saveTask t => exact ⟨.ok (), trivial⟩
  | now => exact ⟨.epoch, trivial⟩
  | transition t => exact ⟨_, rfl⟩
  | publish event => exact ⟨.ok (), trivial⟩
  | log notice => exact ⟨(), trivial⟩
  | run n q =>
      cases q with
      | device call => exact ⟨.ok (), trivial⟩
      | search template confidence area => exact ⟨.ok ⟨false, none, none, none⟩, trivial⟩
      | sleep ms => exact ⟨_, rfl⟩
      | stopped => exact ⟨_, rfl⟩
      | pausePending => exact ⟨_, rfl⟩
      | awaitResume => exact ⟨false, h n rfl⟩
      | draw range => exact ⟨default, trivial⟩
      | clock => exact ⟨0, trivial⟩
      | read name => exact ⟨none, trivial⟩
      | _ => exact ⟨(), trivial⟩

/-- A run that is stopped can be driven to its end. -/
theorem ends_alone {c : Call} (h : Reachable m) (ha : m.calls n = some ⟨c, p⟩)
    (hs : (m.state.control n).stopped = true) :
    ∃ newer e' r, Alone service n m.state p newer e' (.done r) := by
  have follows := (Machine.follows_of_reaches program_follows h n).2 _ ha
  obtain ⟨newer, e', r, alone, -⟩ := alone_done (S := service) (n := n)
    (I := fun e => (e.control n).stopped = true) (fun e φ q stopped may => by
      obtain ⟨x, allowed⟩ := exists_allowed e q (by
        rintro k rfl
        obtain ⟨rfl, -⟩ := Call.holding_of_run may
        simp [Control.pausePending, stopped])
      exact ⟨x, allowed, stopped_after q stopped⟩) follows hs
  exact ⟨newer, e', r, alone⟩

/-- What an emergency stop leaves in a log, latest line first. -/
def stopLines (n : Nat) (s : EngineState) : List Line :=
  [.answered n (.publish ⟨.statusChanged, s.taskId, s.toJson⟩) (.ok ()),
    .answered n (.log .emergencyStop) (), .answered n (.transition .emergencyStop) (some s)]

/-- An emergency stop by itself. -/
theorem emergencyStop_alone (k : Nat) (e : Engine) :
    Alone service k e (Call.program k .emergencyStop)
      (stopLines k (e.after (.transition .emergencyStop)).state)
      (e.after (.transition .emergencyStop)) (.done .nothing) := by
  have asks : Alone service k e (Call.program k .emergencyStop) [] e
      (.ask (.transition .emergencyStop) _) := .here
  have logs : Alone service k e _ _ (e.after (.transition .emergencyStop)) (.ask (.log _) _) :=
    asks.answer (some (e.after (.transition .emergencyStop)).state) rfl
  have tells : Alone service k e _ _ (e.after (.transition .emergencyStop)) (.ask (.publish _) _) :=
    logs.answer () trivial
  exact tells.answer (.ok ()) trivial

end Solo

/-! ## 3. Starts that outlive an emergency stop -/

/-- **Call `n` can outlive an emergency stop**: one that is called from now on can return and be
followed by a step of call `n`. -/
def OutlivesStop (m : System) (n : Nat) : Prop :=
  ∃ (m₁ m₂ : System) (k : Nat) (mid : List Line) (line : Line),
    m.calls k = none ∧ Reaches service turns m m₁ ∧
      m₁.calls k = some ⟨.emergencyStop, .done .nothing⟩ ∧
      Reaches service turns m₁ m₂ ∧ m₂.log = line :: (mid ++ m₁.log) ∧ Begins n line

section Outlives

variable {m m₁ : System} {n k : Nat} {id : TaskId} {p : EngineProg Reply}

theorem atRest_of_done {c : Call} {r : Reply} (ha : m.calls k = some ⟨c, .done r⟩) :
    m.AtRest EngineRequest.waits k := by
  intro a h
  rw [ha] at h
  cases h
  trivial

/-- If one call has returned and the others stayed where they rested, all calls rest. -/
theorem resting_of_done {c : Call} {r : Reply} (rest : Resting m) (stay : OthersStay k m m₁)
    (ha : m₁.calls k = some ⟨c, .done r⟩) : Resting m₁ := by
  intro j
  by_cases hj : j = k
  · subst hj
    exact atRest_of_done ha
  · exact Machine.inTurn_of_othersStay stay (fun i _ => rest i) j hj

/-- From a resting system an emergency stop can be called and return. -/
theorem stop_returns (h : ReachableInTurn m) (rest : Resting m) :
    ∃ k m₁, m.calls k = none ∧ Reaches service turns m m₁ ∧
      m₁.calls k = some ⟨.emergencyStop, .done .nothing⟩ ∧ OthersStay k m m₁ ∧
      m₁.state = m.state.after (.transition .emergencyStop) := by
  obtain ⟨N, free⟩ := Machine.exists_free h
  have hfree : m.calls N = none := free N (Nat.le_refl N)
  obtain ⟨m₁, reached, state, done, -, stay⟩ := Reaches.call_alone (S := service) (c := .emergencyStop)
    turns (fun m' hm' => Machine.inTurn_of_othersStay hm' fun k _ => rest k) hfree
    (emergencyStop_alone N m.state)
  exact ⟨N, m₁, hfree, reached, done, stay, state⟩

/-- Nobody holds the engine once the call that held it has returned and the others stand where they
stood. -/
theorem current_of_done {j : Nat} {c : Call} {r : Reply} (h : Reachable m) (h₁ : Reachable m₁)
    (held : Holds j m.log) (done : m₁.calls j = some ⟨c, .done r⟩)
    (same : ∀ k, k ≠ j → phase k m₁.log = phase k m.log) : m₁.state.current = none := by
  cases hc : m₁.state.current with
  | none => rfl
  | some k =>
      obtain ⟨hd, hh⟩ := (current_iff_holds h₁ k).mp hc
      by_cases hk : k = j
      · subst hk
        exact absurd hh (h₁.not_holding_of_done done hd)
      · have before : Holds k m.log := ⟨hd, (same k hk).symm.trans hh⟩
        exact absurd (holds_unique h before held) hk

/-- After that, the run that holds the engine can wind down. -/
theorem winds_down (h : ReachableInTurn m) (rest : Resting m)
    (stopped : ∀ k, m.state.current = some k → (m.state.control k).stopped = true) :
    ∃ m₁, Reaches service turns m m₁ ∧ Resting m₁ ∧ m₁.state.current = none ∧
      ∀ k, ¬ Holds k m.log → m₁.calls k = m.calls k := by
  cases hc : m.state.current with
  | none => exact ⟨m, .here, rest, hc, fun _ _ => rfl⟩
  | some j =>
      have held : Holds j m.log := (current_iff_holds h.reachable j).mp hc
      cases ha : m.calls j with
      | none =>
          obtain ⟨hd, hh⟩ := held
          rw [h.reachable.outside_of_free ha] at hh
          cases hh
      | some a =>
          obtain ⟨c, p⟩ := a
          obtain ⟨newer, e', r, alone⟩ := ends_alone h.reachable ha (stopped j hc)
          obtain ⟨m₁, reached, state, done, log, stay⟩ := Reaches.alone turns
            (fun m' hm' => Machine.inTurn_of_othersStay hm' fun k _ => rest k) ha alone
          have h₁ : Reachable m₁ := Reaches.anyone (Reaches.trans h reached)
          have free : m₁.state.current = none := by
            refine current_of_done h.reachable h₁ held done fun k hk => ?_
            rw [log]
            exact alone.phaseAt_of_ne hk m.log
          refine ⟨m₁, reached, resting_of_done rest stay done, free, fun k hk => stay k ?_⟩
          rintro rfl
          exact hk held

/-- A start that waits for its task or for the settings has not claimed the engine. -/
theorem outside_of_waits (h : Reachable m) (ha : m.calls n = some ⟨.start id, p⟩)
    (hp : p = atTask n id ∨ ∃ t, p = atSettings n id t) : phase n m.log = .outside := by
  have follows := (Machine.follows_of_reaches program_follows h n).2 _ ha
  cases hφ : phase n m.log with
  | outside => rfl
  | holding hd =>
      rw [show Machine.phaseAt Phase.step .outside n m.log = .holding hd from hφ] at follows
      rcases hp with rfl | ⟨t, rfl⟩
      · -- a task that is gone would end the call while it holds the engine
        exact absurd rfl (follows.2 (.ok none) _)
      · exact follows.1.elim
  | ended =>
      rw [show Machine.phaseAt Phase.step .outside n m.log = .ended from hφ] at follows
      rcases hp with rfl | ⟨t, rfl⟩
      · exact follows.1.elim
      · exact follows.1.elim

/-- **Every start that waits for its task, or for the settings with a task that has a step, can
outlive an emergency stop.** -/
theorem outlivesStop_of_waits (h : ReachableInTurn m) (rest : Resting m)
    (ha : m.calls n = some ⟨.start id, p⟩)
    (hp : p = atTask n id ∨ ∃ t, p = atSettings n id t ∧ t.actions ≠ []) : OutlivesStop m n := by
  obtain ⟨k, m₁, hk, reached₁, done, stay₁, state⟩ := stop_returns h rest
  have rest₁ : Resting m₁ := resting_of_done rest stay₁ done
  have stopped (j : Nat) (hj : m₁.state.current = some j) :
      (m₁.state.control j).stopped = true := by
    rw [state] at hj ⊢
    exact stopped_of_emergencyStop (by simpa [after, apply] using hj)
  have h₁ : ReachableInTurn m₁ := Reaches.trans h reached₁
  obtain ⟨m₂, reached₂, rest₂, free, stay₂⟩ := winds_down h₁ rest₁ stopped
  have h₂ : ReachableInTurn m₂ := Reaches.trans h₁ reached₂
  have waits : p = atTask n id ∨ ∃ t, p = atSettings n id t := by
    rcases hp with here | ⟨t, here, -⟩
    · exact .inl here
    · exact .inr ⟨t, here⟩
  -- the start stands where it stood
  have other : n ≠ k := by
    rintro rfl
    rw [hk] at ha
    cases ha
  have ha₁ : m₁.calls n = some ⟨.start id, p⟩ := by rw [stay₁ n other, ha]
  have notHeld : ¬ Holds n m₁.log := by
    rintro ⟨hd, holding⟩
    rw [outside_of_waits h₁.reachable ha₁ waits] at holding
    cases holding
  have ha₂ : m₂.calls n = some ⟨.start id, p⟩ := by rw [stay₂ n notHeld, ha₁]
  have sound := sound_of_reachable h₂.reachable
  have idle : m₂.state.state.status = .idle := by
    by_contra busy
    exact sound.held busy free
  have calm := sound.fresh n (outside_of_waits h₂.reachable ha₂ waits)
  obtain ⟨mid, line, e', p', alone, begins⟩ := begins_of_waits free idle calm hp
  obtain ⟨m₃, reached₃, -, -, log, -⟩ := Reaches.alone turns
    (fun m' hm' => Machine.inTurn_of_othersStay hm' fun k _ => rest₂ k) ha₂ alone
  obtain ⟨newer, grown⟩ := Reaches.log reached₂
  refine ⟨m₁, m₃, k, mid ++ newer, line, hk, reached₁, done, reached₂.trans reached₃, ?_, begins⟩
  rw [log, grown, List.cons_append, List.append_assoc]

end Outlives

/-! ## 4. Starts that do not -/

/-- Whether a call has made an emergency stop, read off its questions. -/
def stopMade : Bool → (q : EngineRequest) → q.Answer → Bool
  | _, .transition .emergencyStop, _ => true
  | b, _, _ => b

section Made

variable {m m₁ : System} {n k : Nat} {c : Call}

theorem stopMade_follows (n : Nat) (c : Call) :
    (c.program n).Follows ⟨fun _ _ => True, stopMade⟩ (fun r b => r = .nothing → b = true)
      false := by
  have any {α : Type} (p : EngineProg α) (b : Bool) :
      p.Follows ⟨fun _ _ => True, stopMade⟩ (fun _ _ => True) b :=
    (Prog.asks_true p).follows (I := fun _ => True) (fun _ _ _ _ => trivial)
      (fun _ _ _ _ _ => trivial) trivial
  cases c with
  | start task => exact (any _ _).bind fun _ _ _ => nofun
  | pause => exact (any _ _).bind fun _ _ _ => nofun
  | resume => exact (any _ _).bind fun _ _ _ => nofun
  | stop => exact (any _ _).bind fun _ _ _ => nofun
  | emergencyStop =>
      have kept {α : Type} (p : EngineProg α) :
          p.Follows ⟨fun _ _ => True, stopMade⟩ (fun _ b => b = true) true := by
        refine (Prog.asks_true p).follows (I := fun b => b = true) (fun _ _ _ _ => trivial) ?_ rfl
        rintro b q x rfl -
        cases q with
        | transition t => cases t <;> rfl
        | _ => rfl
      exact ⟨trivial, fun x => (kept _).mono fun r b (hb : b = true) (_ : r = .nothing) => hb⟩

/-- Only the move itself makes an emergency stop. -/
theorem line_of_stopMade {q : EngineRequest} {x : q.Answer} (h : stopMade false q x = true) (n : Nat) :
    ∃ y, (Entry.answered n q x : Line) = .answered n (.transition .emergencyStop) y := by
  cases q with
  | transition t =>
      cases t with
      | emergencyStop => exact ⟨x, rfl⟩
      | _ => cases h
  | _ => cases h

/-- An emergency stop that has returned has made its move since it was called. -/
theorem stop_in_log {turn : Nat → System → Prop} (h : Reachable m) (hr : Reaches service turn m m₁)
    (free : m.calls k = none) (done : m₁.calls k = some ⟨c, .done .nothing⟩) :
    ∃ later earlier x, m₁.log =
      later ++ .answered k (.transition .emergencyStop) x :: (earlier ++ m.log) := by
  have h₁ : Reachable m₁ := Reaches.trans h (Reaches.anyone hr)
  have before := (Machine.follows_of_reaches stopMade_follows h k).1 free
  have now := (Machine.follows_of_reaches stopMade_follows h₁ k).2 _ done rfl
  obtain ⟨newer, log⟩ := Reaches.log hr
  rw [log] at now
  obtain ⟨later, earlier, q, x, rfl, unmade, made⟩ :=
    Machine.phaseAt_enters (P := fun b => b = true) (by rw [before]; nofun) now
  rw [Bool.not_eq_true] at unmade
  rw [unmade] at made
  obtain ⟨y, line⟩ := line_of_stopMade made k
  exact ⟨later, earlier, y, by rw [log, List.append_assoc, List.cons_append, line]⟩

end Made

section Outlives

variable {m m₁ : System} {n k : Nat} {id : TaskId} {p : EngineProg Reply}

/-- A start that outlives an emergency stop had not claimed the engine when that was called. -/
theorem outside_of_outlives (h : ReachableInTurn m) (hs : OutlivesStop m n) :
    phase n m.log = .outside := by
  obtain ⟨m₁, m₂, k, mid, line, free, hr, done, hr', log, begins⟩ := hs
  obtain ⟨later, earlier, x, hlog⟩ := stop_in_log h.reachable hr free done
  have h₂ : ReachableInTurn m₂ := Reaches.trans (Reaches.trans h hr) hr'
  have hl : m₂.log = [] ++ line :: ((mid ++ later) ++
      .answered k (.transition .emergencyStop) x :: (earlier ++ m.log)) := by
    rw [log, hlog]
    simp
  obtain ⟨l₂, l₁, run, task, total, startedAt, s, hclaim⟩ := claim_after_stop h₂ hl begins
  rw [hclaim] at hl
  have hc : m₂.log = (line :: l₂) ++ .answered n (.transition (.claim run task total startedAt))
      (some s) :: (l₁ ++ .answered k (.transition .emergencyStop) x :: (earlier ++ m.log)) := by
    rw [hl]
    simp
  have notHeld := (free_of_claim h₂.reachable hc).2 n
  obtain ⟨_, hd, -, -, -, hφ, -⟩ := begins.unstopped h₂ hl
  -- from the call of the stop over the claim to the step, the start only moves forward
  have up : (phase n m.log).rank ≤ _ :=
    rank_le_append (l₁ ++ .answered k (.transition .emergencyStop) x :: earlier)
  have on : (phase n
      (l₁ ++ .answered k (.transition .emergencyStop) x :: (earlier ++ m.log))).rank ≤ _ :=
    rank_le_append (l₂ ++ [.answered n (.transition (.claim run task total startedAt)) (some s)])
  simp only [List.append_assoc, List.cons_append, List.nil_append] at up on hφ
  rw [hφ] at on
  rw [holds_iff_rank] at notHeld
  have rank : (Phase.holding hd).rank = 1 := rfl
  have zero : (phase n m.log).rank = 0 := by omega
  cases hm : phase n m.log with
  | outside => rfl
  | _ => rw [hm] at zero; cases zero

/-- **Which starts outlive an emergency stop**: exactly those that wait for their task, and those that
wait for the settings with a task that has a step. -/
theorem outlives_stop_iff (h : ReachableInTurn m) (rest : Resting m)
    (ha : m.calls n = some ⟨.start id, p⟩) :
    OutlivesStop m n ↔ p = atTask n id ∨ ∃ t, p = atSettings n id t ∧ t.actions ≠ [] := by
  refine ⟨fun hs => ?_, outlivesStop_of_waits h rest ha⟩
  have outside := outside_of_outlives h hs
  obtain ⟨m₁, m₂, k, mid, line, -, hr, -, hr', log, begins⟩ := hs
  have h₂ : ReachableInTurn m₂ := Reaches.trans (Reaches.trans h hr) hr'
  have last : m₂.log = [] ++ line :: (mid ++ m₁.log) := log
  obtain ⟨_, hd, -, -, some_step, hφ, -⟩ := begins.unstopped h₂ last
  obtain ⟨run, i, total, a, rfl⟩ := begins
  have holding : phase n m₂.log = .holding (hd.ask (.tell (.step i total a .started)) ()) := by
    rw [log, phase_answered, if_pos rfl, hφ]
    rfl
  obtain ⟨o, course⟩ := course_of_reachable h.reachable ha
  obtain ⟨o', p', same, ha', course'⟩ := course_of_reaches (hr.trans hr') ha course
  rw [outside] at course
  rw [holding] at course'
  have awake {q : EngineRequest} {next : q.Answer → EngineProg Reply} (hq : p = .ask q next) :
      q.waits = true := by
    subst hq
    exact rest n _ ha
  -- the stop finds the start outside, its step finds it holding the engine: of the places outside,
  -- only the two waits are at rest and lead there
  cases course with
  | called => exact nomatch awake (start_program n id)
  | task => exact .inl rfl
  | settings t =>
      refine .inr ⟨t, rfl, fun none => ?_⟩
      cases same t rfl
      cases course' with
      | runs _ total => simp [none] at total; omega
  | prepared t st => exact nomatch awake rfl
  | claims t st now => exact nomatch awake rfl
  | refused o r =>
      have done := Reaches.calls_done (hr.trans hr') ha
      exact absurd holding (h₂.reachable.not_holding_of_done done _)

/-- A start that waits for its task, with nothing else under way, outlives an emergency stop. -/
theorem outlives_stop_waiting : ∃ m : System, ReachableInTurn m ∧ Resting m ∧
    m.calls 0 = some ⟨.start ⟨0⟩, atTask 0 ⟨0⟩⟩ ∧ OutlivesStop m 0 := by
  obtain ⟨m, h, rest, -, waits⟩ := exists_waiting ⟨0⟩
  exact ⟨m, h, rest, waits, (outlives_stop_iff h rest waits).mpr (.inl rfl)⟩

/-- Not every start that was under way is kept from its steps by an emergency stop. -/
theorem emergencyStop_lost : ¬ ∀ (m : System) (n : Nat) (id : TaskId) (p : EngineProg Reply),
    ReachableInTurn m → m.calls n = some ⟨.start id, p⟩ → ¬ OutlivesStop m n := by
  intro claim
  obtain ⟨m, h, rest, -, waits⟩ := exists_waiting ⟨0⟩
  exact claim m 0 ⟨0⟩ _ h waits (outlivesStop_of_waits h rest waits (.inl rfl))

end Outlives
end TaskReplay.Engine
