import TaskReplay.Proofs.Engine.Office

/-!
# Starts that are refused

A start that is refused has looked and asked, and done nothing else:

* `Idle` -- looking and asking: what leaves an office as it is and is heard by nobody;
* `idle_of_refused` -- a start that was refused was idle all the time, even if it got as far as its
  claim;
* `firstRefusal` -- the reasons for a refusal in their order, out of what the look-ups gave;
* `refused_start_leaves_no_trace` -- **the same steps of the other calls lead to the same office
  without the start that was refused**, and the reason it gives is the first that applies, if no other
  run holds the engine meanwhile.
-/

namespace TaskReplay.Engine

open Machine (Reaches phaseAt others)

/-! ## 1. Idle questions -/

/-- Questions that only look, and claims that are refused. -/
def Idle : (q : EngineRequest) → q.Answer → Prop
  | .busy, _ | .loadTask _, _ | .loadSettings, _ | .now, _ => True
  | .transition _, none => True
  | _, _ => False

/-- A line that tells of more than looking: of an event, a call on a device or on the screen, a task
that was saved, a notice in the log or a move that was made. -/
def marks : Line → Bool
  | .called _ _ | .answered _ .busy _ | .answered _ (.loadTask _) _ | .answered _ .loadSettings _
  | .answered _ .now _ | .answered _ (.transition _) none => false
  | _ => true

section Idle

variable {n : Nat} {q : EngineRequest} {x : q.Answer}

theorem marks_of_idle (h : Idle q x) : marks (.answered n q x) = false := by
  cases q with
  | transition t =>
      cases x with
      | none => rfl
      | some s => exact h.elim
  | _ => first | rfl | exact h.elim

/-- What is idle leaves an office as it is. -/
theorem Office.after_of_idle {o : Office} (allowed : o.Allows q x) (h : Idle q x) :
    o.after q x = o := by
  cases q with
  | transition t =>
      cases x with
      | some s => exact h.elim
      | none =>
          have refused : none = (o.engine.apply t).map (·.state) := allowed
          have same : o.engine.apply t = none := by simpa using refused.symm
          simp [Office.after, Engine.after, same]
  | saveTask t => exact h.elim
  | _ => rfl

/-- A start is idle as long as it stays outside. -/
theorem idle_of_outside {task : TaskId} (may : startStands n task .outside q)
    (stays : Stand.step .outside q x = .outside) : Idle q x := by
  cases q with
  | transition t =>
      cases t with
      | claim => cases x with
        | none => trivial
        | some s => cases stays
      | _ => exact may.elim
  | _ => trivial

end Idle

/-! ## 2. Refused starts -/

section Refused

variable {m : System} {n : Nat} {id : TaskId} {e : EngineError}

/-- A start that was refused has never held the engine. -/
theorem outside_of_refused (h : Reachable m)
    (ha : m.calls n = some ⟨.start id, .done (.ended (.error e))⟩) (refused : e.refusal = true) :
    stand n m.log = .outside := by
  rcases h.goes ha with ⟨result, same, -⟩ | ⟨_, -, -, outside⟩
  · cases result with
    | ok outcome => cases same
    | error f =>
        cases same
        cases refused
  · exact outside

/-- A call that stands outside has always stood there. -/
theorem outside_before {newer older : List Line} (h : stand n (newer ++ older) = .outside) :
    stand n older = .outside := by
  have up : (phase n older).rank ≤ (phase n (newer ++ older)).rank := rank_le_append newer
  rw [← rank_stand, ← rank_stand, h] at up
  cases hs : stand n older with
  | outside => rfl
  | _ =>
      rw [hs] at up
      exact absurd up (by simp [Stand.rank])

/-- **A start that was refused has only looked.** -/
theorem idle_of_refused (h : Reachable m)
    (ha : m.calls n = some ⟨.start id, .done (.ended (.error e))⟩) (refused : e.refusal = true)
    (q : EngineRequest) (x : q.Answer) (hx : .answered n q x ∈ m.log) : Idle q x := by
  obtain ⟨newer, older, hl⟩ := List.append_of_mem hx
  obtain ⟨m₁, c, next, p, h₁, rfl, asks, ha₁⟩ := Reaches.call_at_answer h rfl hl
  rw [ha] at ha₁
  cases ha₁
  have outside := outside_of_refused h ha refused
  rw [hl] at outside
  have after : stand n (.answered n q x :: m₁.log) = .outside := outside_before outside
  have before : stand n m₁.log = .outside :=
    outside_before (show stand n ([.answered n q x] ++ m₁.log) = .outside from after)
  have may := Reachable.stands h₁ asks
  rw [before] at may
  rw [stand_answered, if_pos rfl, before] at after
  exact idle_of_outside may after

end Refused

/-! ## 3. The first reason that applies -/

/-- The refusal that a start of a task returns, if it returns one. -/
def refusal? : Except EngineError RunOutcome → Option EngineError
  | .error e => if e.refusal then some e else none
  | .ok _ => none

/-- **The first reason to refuse a start**, out of what the look-ups of its task and of the settings
give: the store fails, the task is missing, is disabled, is invalid, the settings fail. -/
def firstRefusal (id : TaskId) (found : Except Failure (Option Task))
    (settings : Except Failure Settings) : Option EngineError :=
  match found with
  | .error e => some (.storage e)
  | .ok none => some (.taskNotFound id)
  | .ok (some t) =>
    if t.enabled = false then some (.taskDisabled id)
    else if t.problems ≠ [] then some (.invalid t.problems)
    else
      match settings with
      | .error e => some (.storage e)
      | .ok _ => none

/-- What a start has found. -/
structure Findings where
  /-- What the first look-up of its task gave. -/
  task : Option (Except Failure (Option Task))
  settings : Option (Except Failure Settings)
  /-- It found the engine taken. -/
  hindered : Bool

/-- What a start has found after a question and its answer. -/
def Findings.step (f : Findings) : (q : EngineRequest) → q.Answer → Findings
  | .busy, taken => { f with hindered := f.hindered || taken }
  | .transition (.claim _ _ _ _), made => { f with hindered := f.hindered || made.isNone }
  | .loadTask _, found => { f with task := f.task.or (some found) }
  | .loadSettings, found => { f with settings := some found }
  | _, _ => f

/-- What call `n` has found, read off the log of a system. -/
def findings (n : Nat) (log : List Line) : Findings :=
  phaseAt Findings.step ⟨none, none, false⟩ n log

/-- What a start returns goes with what it has found. -/
def Findings.Explains (id : TaskId) (f : Findings) (r : Except EngineError RunOutcome) : Prop :=
  f.hindered = false → ∃ found, f.task = some found ∧ ∀ settings,
    (∀ s, f.settings = some s → s = settings) → refusal? r = firstRefusal id found settings

section Findings

variable {α : Type} {n : Nat} {id : TaskId} {f : Findings} {p : EngineProg α}

/-- What a start may ask once it has claimed the engine. -/
def LateQuestion : EngineRequest → Prop
  | .busy | .loadSettings | .transition (.claim _ _ _ _) => False
  | _ => True

theorem late_of_tells {q : EngineRequest} (h : q.tells = true) : LateQuestion q := by
  cases q <;> trivial

theorem late_of_records {q : EngineRequest} (h : q.records = true) : LateQuestion q := by
  cases q <;> trivial

theorem late_of_plays {q : EngineRequest} (h : Underway n q) : LateQuestion q := by
  cases q with
  | transition t => cases t <;> trivial
  | _ => trivial

theorem finish_late (r : RunResult) : (finish id r).Asks LateQuestion := by
  refine ((move_asks _).mono fun q hq => ?_).bind fun _ => ?_
  · rcases hq with tells | rfl
    · exact late_of_tells tells
    · trivial
  · cases r with
    | ok outcome => exact (publish_asks _ _ _).mono fun _ => late_of_tells
    | error e => exact ⟨trivial, fun _ => (publish_asks _ _ _).mono fun _ => late_of_tells⟩

theorem runClaimed_late (t : Task) (st : Settings) :
    (runClaimed n id t st).Asks LateQuestion :=
  ((Prog.Asks.expand (runEffect_plays n id) _).mono fun _ => late_of_plays).bind fun r =>
    ((recordRun_asks id r.isOk).mono fun _ => late_of_records).bind fun _ =>
      (finish_late r).bind fun _ => trivial

/-- What is asked of a start is only what it finds. -/
abbrev finding : Protocol EngineRequest EngineRequest.Answer Findings :=
  ⟨fun _ _ => True, Findings.step⟩

/-- A start that has claimed the engine finds nothing new. -/
theorem late_finds (known : f.task ≠ none) (hp : p.Asks LateQuestion) :
    p.Follows finding (fun _ f' => f' = f) f := by
  refine hp.follows (I := fun f' => f' = f) (fun _ _ _ _ => trivial) ?_ rfl
  rintro _ q x rfl hq
  cases q with
  | loadTask id =>
      obtain ⟨y, hy⟩ := Option.ne_none_iff_exists'.mp known
      simp only [Findings.step, hy, Option.some_or]
      rw [← hy]
  | transition t => cases t <;> first | rfl | exact hq.elim
  | busy => exact hq.elim
  | loadSettings => exact hq.elim
  | _ => rfl

/-- What follows the look-ups: a refusal that they explain, or a claim and a run. -/
theorem prepared_finds {found : Except Failure (Option Task)} (known : f.task = some found)
    {r : Except EngineError (Task × Settings)}
    (hr : ∀ settings, (∀ s, f.settings = some s → s = settings) →
      firstRefusal id found settings = refusal? (r.map fun _ => .completed)) :
    (prepared n id r).Follows finding (fun r f => ∀ r', r = .ended r' → f.Explains id r') f := by
  cases r with
  | error e =>
      rintro r' same -
      cases same
      exact ⟨found, known, fun settings hs => (hr settings hs).symm⟩
  | ok loaded =>
      obtain ⟨t, st⟩ := loaded
      refine ⟨trivial, fun now => ⟨trivial, fun made => ?_⟩⟩
      cases made with
      | none =>
          rintro r' - hindered
          simp [Findings.step] at hindered
      | some s =>
          have same : { f with hindered := f.hindered || false } = f := by rw [Bool.or_false]
          show Prog.Follows finding _ (afterClaim n id t st (some s))
            { f with hindered := f.hindered || false }
          rw [same]
          have known' : f.task ≠ none := by rw [known]; nofun
          refine (late_finds known' ((broadcast_asks s).mono fun _ => late_of_tells)).bind
            fun _ f' hf' => ?_
          subst hf'
          refine (late_finds known' (runClaimed_late t st)).bind fun r f' hf' => ?_
          subst hf'
          rintro r' ended -
          cases ended
          refine ⟨found, known, fun settings hs => ?_⟩
          rw [hr settings hs]
          cases r <;> rfl

/-- A start whose task was found checks the task before it looks up the settings. -/
theorem loaded_finds (t : Task) : (loaded n id t).Follows finding
    (fun r f => ∀ r', r = .ended r' → f.Explains id r') ⟨some (.ok (some t)), none, false⟩ := by
  unfold loaded
  split
  · next enabled =>
    cases hv : t.validate with
    | error ps =>
        have invalid : t.problems ≠ [] ∧ ps = t.problems := by
          simp only [Task.validate] at hv
          split at hv <;> simp_all
        exact prepared_finds rfl fun _ _ => by simp [firstRefusal, enabled, invalid.1, invalid.2]; rfl
    | ok u =>
        have valid : t.problems = [] := (Task.validate_eq_ok_iff t).mp hv
        refine ⟨trivial, fun loaded => ?_⟩
        have asked (settings : Except Failure Settings) (hs : ∀ s, some loaded = some s → s = settings) :
            loaded = settings := hs loaded rfl
        cases loaded with
        | ok st =>
            refine prepared_finds rfl fun settings hs => ?_
            rw [← asked settings hs]
            simp [firstRefusal, enabled, valid]
            rfl
        | error e =>
            refine prepared_finds rfl fun settings hs => ?_
            rw [← asked settings hs]
            simp [firstRefusal, enabled, valid]
            rfl
  · next disabled =>
    exact prepared_finds rfl fun _ _ => by simp [firstRefusal, disabled]; rfl

/-- **What a start returns is explained by what it has found**, unless it found the engine taken. -/
theorem start_finds : (Call.program n (.start id)).Follows finding
    (fun r f => ∀ r', r = .ended r' → f.Explains id r') ⟨none, none, false⟩ := by
  rw [start_program]
  refine ⟨trivial, fun taken => ?_⟩
  cases taken with
  | true =>
      rintro r' - hindered
      simp [Findings.step] at hindered
  | false =>
      refine ⟨trivial, fun found => ?_⟩
      cases found with
      | error e => exact prepared_finds rfl fun _ _ => rfl
      | ok found =>
          cases found with
          | none => exact prepared_finds rfl fun _ _ => rfl
          | some t =>
              show Prog.Follows finding _ (loaded n id t) ⟨some (.ok (some t)), none, false⟩
              exact loaded_finds t

end Findings

/-! ## 4. Refusals -/

/-- No other run holds the engine whenever call `n` goes on. -/
def Undisturbed (n : Nat) (log : List Line) : Prop :=
  ∀ newer q x older, log = newer ++ .answered n q x :: older → ∀ k, k ≠ n → ¬ Holds k older

section Refusals

variable {m : System} {n : Nat} {id : TaskId}

/-- An engine that nobody holds is not busy. -/
theorem free_of_unheld (h : Reachable m) (unheld : ∀ k, ¬ Holds k m.log) :
    m.state.busy = false := by
  have free : m.state.current = none := by
    cases hc : m.state.current with
    | none => rfl
    | some k => exact absurd ((current_iff_holds h k).mp hc) (unheld k)
  have idle : m.state.state.status = .idle := by
    by_contra active
    exact (sound_of_reachable h).held active free
  simp [busy, free, idle]

/-- What is not asked late is asked outside. -/
theorem Call.outside_of_early {c : Call} {s : Stand} {q : EngineRequest} (may : c.stands n s q)
    (early : ¬ LateQuestion q) : s = .outside := by
  cases s with
  | outside => rfl
  | _ =>
      refine absurd ?_ early
      cases c with
      | start task =>
          cases q with
          | transition t => cases t <;> trivial
          | _ => trivial
      | _ => exact may.elim

/-- An engine that is not busy hinders nobody. -/
theorem unhindered_step {e : Engine} {f : Findings} {q : EngineRequest} {x : q.Answer}
    (allowed : Allows e q x) (unhindered : f.hindered = false)
    (free : LateQuestion q ∨ e.busy = false) : (f.step q x).hindered = false := by
  cases q with
  | busy =>
      have seen : x = e.busy := allowed
      rcases free with late | free
      · exact late.elim
      · simp [Findings.step, unhindered, seen, free]
  | transition t =>
      cases t with
      | claim run task total startedAt =>
          have made : x = (e.apply (.claim run task total startedAt)).map (·.state) := allowed
          rcases free with late | free
          · exact late.elim
          · simp [Findings.step, unhindered, made, apply, free]
      | _ => exact unhindered
  | _ => exact unhindered

/-- A start that nobody disturbs finds the engine free. -/
theorem unhindered (h : Reachable m) (hu : Undisturbed n m.log) :
    (findings n m.log).hindered = false := by
  by_contra hindered
  obtain ⟨later, earlier, q, x, hl, before, after⟩ := Machine.phaseAt_came
    (P := fun f : Findings => f.hindered = true) ((Bool.not_eq_false _).mp hindered) nofun
  obtain ⟨m₁, c, next, h₁, rfl, -, asks, allowed, -⟩ := Reaches.at_answer h rfl hl
  -- the engine is free then, since neither another call nor the start itself holds it
  have free : LateQuestion q ∨ m₁.state.busy = false := by
    by_cases late : LateQuestion q
    · exact .inl late
    · refine .inr (free_of_unheld h₁ fun k hk => ?_)
      by_cases own : k = n
      · subst own
        rw [holds_iff_stand, Call.outside_of_early (Reachable.stands h₁ asks) late] at hk
        cases hk
      · exact hu later q x m₁.log hl k own hk
  rw [unhindered_step allowed ((Bool.not_eq_true _).mp before) free] at after
  cases after

/-- What a start has returned is explained by what it has found. -/
theorem explained {r : Except EngineError RunOutcome} (h : Reachable m)
    (ha : m.calls n = some ⟨.start id, .done (.ended r)⟩) : (findings n m.log).Explains id r := by
  have all (k : Nat) (c : Call) : (c.program k).Follows finding
      (fun r f => ∀ id r', c = .start id → r = .ended r' → f.Explains id r') ⟨none, none, false⟩ := by
    cases c with
    | start task => exact start_finds.mono fun r f hr id r' same => by cases same; exact hr r'
    | _ =>
        refine (Prog.asks_true _).follows (I := fun _ => True) (fun _ _ _ _ => trivial)
          (fun _ _ _ _ _ => trivial) trivial |>.mono ?_
        exact fun _ _ _ _ _ same => nomatch same
  have ended := (Machine.follows_call_of_reaches all h n).2 _ ha
  exact ended id r rfl rfl

end Refusals

/-! ## 5. In an office -/

section Office

variable {shelf : Shelf} {m : OfficeSystem} {n : Nat} {id : TaskId}
  {r : Except EngineError RunOutcome}

/-- A call whose lines are all idle leaves no mark. -/
theorem marks_others {n : Nat} {log : List Line}
    (idle : ∀ q x, .answered n q x ∈ log → Idle q x) : (others n log).filter marks = log.filter marks := by
  induction log with
  | nil => rfl
  | cons line log ih =>
      have rest := ih fun q x hx => idle q x (List.mem_cons_of_mem _ hx)
      cases line with
      | called k c =>
          by_cases hk : k = n <;> simpa [hk, marks] using rest
      | answered k q x =>
          by_cases hk : k = n
          · subst hk
            have unmarked := marks_of_idle (n := k) (idle q x (List.mem_cons_self ..))
            simpa [unmarked] using rest
          · simp [hk, List.filter_cons, rest]

/-- **A start that is refused has no effect**: the same steps of the other calls, without that start,
lead to the same engine and the same stored tasks, past the same events, the same calls on devices and
the same moves. And what it returns, if no other run holds the engine meanwhile, is the first refusal
that applies. -/
theorem refused_start_leaves_no_trace (h : Opened shelf m)
    (ha : m.calls n = some ⟨.start id, .done (.ended r)⟩) :
    (refusal? r ≠ none →
      Opened shelf (m.without n) ∧ (m.without n).state = m.state ∧
        (m.without n).log.filter marks = m.log.filter marks) ∧
    (Undisturbed n m.log → ∃ found, (findings n m.log).task = some found ∧ ∀ settings,
      (∀ s, (findings n m.log).settings = some s → s = settings) →
        refusal? r = firstRefusal id found settings) := by
  refine ⟨fun refused => ?_, fun undisturbed => ?_⟩
  · cases r with
    | ok outcome => exact absurd rfl refused
    | error e =>
        have refused : e.refusal = true := by
          by_contra run
          exact refused (if_neg run)
        have idle := idle_of_refused h.reachable ha refused
        exact ⟨Reaches.without (S := office) (fun o _ _ => Office.after_of_idle) h idle, rfl,
          marks_others idle⟩
  · exact explained h.reachable ha (unhindered h.reachable undisturbed)

end Office

/-! ## 6. A race, and a task that is disabled -/

section Runs

variable {m : System} {n : Nat}

/-- A call is undisturbed where there is no other. -/
theorem undisturbed_of_free (h : Reachable m) (free : ∀ k, k ≠ n → m.calls k = none) :
    Undisturbed n m.log := by
  intro newer q x older hl k hk held
  have outside := h.outside_of_free (free k hk)
  rw [hl, List.append_cons] at outside
  have up : (phase k older).rank ≤ (phase k (newer ++ [.answered n q x] ++ older)).rank :=
    rank_le_append _
  rw [outside, holds_iff_rank.mp held] at up
  exact absurd up (by decide)

/-- A shelf with one task. -/
def oneTask : Shelf := Shelf.empty.put oneStep

/-- Where a start has loaded all it needs. -/
def atNow : EngineRequest → Bool
  | .now => true
  | _ => false

/-- Where a start has claimed the engine. -/
def atPublish : EngineRequest → Bool
  | .publish _ => true
  | _ => false

/-- Two starts: when the first has loaded all it needs, the second claims the engine; then the first
goes on. -/
def race : OfficeSystem :=
  opening oneTask |> Office.proceed (.ok ()) atNow 1 (.start ⟨0⟩)
    |> Office.proceed (.ok ()) atPublish 0 (.start ⟨0⟩) |> Office.proceed (.ok ()) never 1 (.start ⟨0⟩)

theorem race_opened : Opened oneTask race :=
  ((Opened.proceed .here (.ok ()) atNow 1 _).proceed (.ok ()) atPublish 0 _).proceed (.ok ()) never 1 _

/-- A task that may not be started. -/
def disabledStep : Task := { oneStep with enabled := false }

/-- A start of it that nobody disturbs. -/
def disabledStart : OfficeSystem :=
  opening (Shelf.empty.put disabledStep) |> Office.proceed (.ok ()) never 0 (.start ⟨0⟩)

theorem disabledStart_opened : Opened (Shelf.empty.put disabledStep) disabledStart :=
  Opened.proceed .here (.ok ()) never 0 _

/-- A start that loses a race leaves no trace, though it has loaded everything; and one of a disabled
task that nobody disturbs says that it is disabled, whatever the settings would have given. -/
theorem refused_start_leaves_no_trace_race :
    (∃ m : OfficeSystem, Opened oneTask m ∧
      m.calls 1 = some ⟨.start ⟨0⟩, .done (.ended (.error .alreadyRunning))⟩ ∧
      m.state.engine.current = some 0 ∧ Opened oneTask (m.without 1)) ∧
    ∃ m : OfficeSystem, Opened (Shelf.empty.put disabledStep) m ∧ Undisturbed 0 m.log ∧
      ∃ found, (findings 0 m.log).task = some found ∧
        ∀ settings, some (.taskDisabled ⟨0⟩) = firstRefusal ⟨0⟩ found settings := by
  refine ⟨?_, ?_⟩
  · have returned : race.calls 1 = some ⟨.start ⟨0⟩, .done (.ended (.error .alreadyRunning))⟩ := rfl
    exact ⟨race, race_opened, returned, rfl,
      ((refused_start_leaves_no_trace race_opened returned).1 nofun).1⟩
  · have h := disabledStart_opened
    have alone (k : Nat) (hk : k ≠ 0) : disabledStart.calls k = none := by
      match k with
      | 0 => exact absurd rfl hk
      | k + 1 => rfl
    have undisturbed : Undisturbed 0 disabledStart.log := undisturbed_of_free h.reachable alone
    have returned : disabledStart.calls 0 =
      some ⟨.start ⟨0⟩, .done (.ended (.error (.taskDisabled ⟨0⟩)))⟩ := rfl
    have unasked : (findings 0 disabledStart.log).settings = none := rfl
    obtain ⟨found, known, first⟩ := (refused_start_leaves_no_trace h returned).2 undisturbed
    exact ⟨disabledStart, h, undisturbed, found, known, fun settings =>
      first settings fun s hs => by rw [unasked] at hs; cases hs⟩

end Runs
end TaskReplay.Engine
