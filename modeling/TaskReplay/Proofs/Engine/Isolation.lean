import TaskReplay.Proofs.Engine.Reel
import TaskReplay.Proofs.Engine.Starting
import TaskReplay.Proofs.Run.StopSafety

/-!
# Observers and storage leave a run alone

Whether events are published, whether the record of a run can be read and saved, and what others write
into the stores meanwhile: none of it touches the run or what a start returns. It may move the moment
at which the engine is given back, for a record that fails is over sooner than one that is saved; what
others do between the one moment and the other meets a run in one start and an engine at rest in the
other. On film:

* `perform_eq` -- what others do is a move that observers are told of, told or not;
* `Reel.course` -- the states that the engine has gone through and will go through if nothing but the
  interventions to come happens; `amounts_wait`, `amounts_close` -- waiting changes nothing about it;
* `Steady` -- a program whose film is the same whatever accidents there are: `steady_publish`,
  `steady_move`, and from these `steady_effect` for what a run asks, `steady_expand` for whole runs;
* `play_closing` -- the end of a start: the engine is given back at a time that hangs on accidents;
* `Parted` -- how far two starts can differ; `parted_start` -- starts from their first question to
  their last;
* `start_isolated` -- **two starts that differ in accidents only go alike**, but for that moment;
  `start_parted` -- it can be told from the states if somebody intervenes just then.
-/

namespace TaskReplay.Engine

open EngineRequest (ask)
open Reel (hold play serve settled)

variable {w : Circumstances} {n : Nat} {α β : Type}

/-! ## 1. What others do -/

/-- The move that others make by it. -/
def Intervention.move : Intervention → Transition
  | pause => .pause
  | resume => .resume
  | stop => .stop
  | emergencyStop => .emergencyStop

/-- The reel after a move that observers are told of, unless it is refused. -/
def Reel.moved (f : Reel) (t : Transition) : Reel :=
  match f.engine.apply t with
  | some e => { f with
      engine := e
      states := (f.now, e.state) :: f.states
      freed := f.freedBy t
      told := statusEvent e.state :: f.told }
  | none => f

section Interventions

variable (a : Accidents) (f : Reel) (i : Intervention)

/-- A publication that fails leaves a line in the log, and nothing on the reel. -/
theorem run_publish (type : EventType) (task : Option TaskId) (data : Json) :
    ((publish type task data).run (serve w a n) f).2 =
      { f with told := ⟨type, task, data⟩ :: f.told } := by
  simp only [publish, Prog.bind_eq, ask, Prog.request_bind, Prog.run_ask]
  cases (serve w a n f (.publish ⟨type, task, data⟩)).1 <;> rfl

/-- **What others do is the same whatever accidents there are.** -/
theorem perform_eq : f.perform w a n i = f.moved i.move := by
  have told (s : EngineState) (g : Reel) : ((broadcast s).run (serve w a n) g).2 =
      { g with told := statusEvent s :: g.told } := run_publish a g _ _ _
  have moved (t : Transition) : ((move t).run (serve w a n) f).2 = f.moved t := by
    simp only [move, Prog.bind_eq, ask, Prog.request_bind, Prog.run_ask]
    cases h : f.engine.apply t <;>
      simp [serve, Reel.answer, Reel.after, Reel.moved, h, Prog.run_bind, told]
  cases i with
  | emergencyStop =>
      simp [Reel.perform, Intervention.call, Call.program, emergencyStop, ask, Prog.run_bind, serve,
        Reel.answer, Reel.after, Reel.moved, Intervention.move, apply, told]
  | _ => exact (congrArg Prod.snd (Prog.run_bind ..)).trans (moved _)

@[simp] theorem now_perform : (f.perform w a n i).now = f.now := by
  rw [perform_eq, Reel.moved]
  split <;> rfl

@[simp] theorem due_perform : (f.perform w a n i).due = f.due := by
  rw [perform_eq, Reel.moved]
  split <;> rfl

@[simp] theorem asked_perform : (f.perform w a n i).asked = f.asked := by
  rw [perform_eq, Reel.moved]
  split <;> rfl

@[simp] theorem freed_perform : (f.perform w a n i).freed = f.freed := by
  rw [perform_eq, Reel.moved]
  split
  · cases i <;> rfl
  · rfl

/-- Others neither take the engine nor give it back. -/
theorem current_perform : (f.perform w a n i).engine.current = f.engine.current := by
  have kept (e : Engine) (h : f.engine.apply i.move = some e) : e.current = f.engine.current := by
    cases i <;> simp only [Intervention.move, apply] at h
    case emergencyStop =>
      cases h
      exact current_stopCurrent _
    case stop => split at h <;> cases h <;> exact current_stopCurrent _
    all_goals split at h <;> cases h; rfl
  rw [perform_eq, Reel.moved]
  split
  · next e h => exact kept e h
  · rfl

end Interventions

/-! ## 2. Waits -/

section Waits

variable (a b : Accidents) (f : Reel) (s : Suspension) (k : Nat)

theorem wait_alike : f.wait w a n s k = f.wait w b n s k := by
  have alike (due : List (Nat × Intervention)) (f : Reel) :
      Reel.pass w a n s k due f = Reel.pass w b n s k due f := by
    induction due generalizing f with
    | nil => rfl
    | cons e rest ih => simp only [Reel.pass, perform_eq, ih]
  exact alike f.due f

theorem close_alike : f.close w a n = f.close w b n := by simp only [Reel.close, perform_eq]

/-- How long an answer is waited for is no accident if it is none how long it takes. -/
theorem hold_alike {q : EngineRequest} (h : f.lasts w a n q = f.lasts w b n q) :
    f.hold w a n q = f.hold w b n q := by
  cases q with
  | run k q => cases q <;> simp only [hold, wait_alike a b, h]
  | _ => simp only [hold, wait_alike a b, h]

/-- A wait that heeds nothing comes to its end. -/
theorem wait_settle (t : Nat) :
    (f.wait w a n (.settle t) k).1 = true ∧ (f.wait w a n (.settle t) k).2.now = t := by
  have ends (due : List (Nat × Intervention)) (f : Reel) :
      (Reel.pass w a n (.settle t) k due f).1 = true ∧ (Reel.pass w a n (.settle t) k due f).2.now = t := by
    induction due generalizing f with
    | nil => exact ⟨rfl, rfl⟩
    | cons e rest ih =>
        rw [Reel.pass]
        split
        · exact ih _
        · exact ⟨rfl, rfl⟩
  exact ends f.due f

/-- **A wait in two parts is the whole wait.** -/
theorem wait_settle_settle {t u : Nat} (htu : t ≤ u) (hf : f.now ≤ t) :
    (f.wait w a n (.settle t) k).2.wait w a n (.settle u) k = f.wait w a n (.settle u) k := by
  unfold Reel.wait
  induction due : f.due generalizing f with
  | nil => simp [Reel.pass, settled, Suspension.wake?, due]
  | cons e rest ih =>
      obtain ⟨s, i⟩ := e
      simp only [Reel.pass, Suspension.wake?, Option.all_some]
      by_cases hs : s ≤ t
      · simp only [hs, Nat.le_trans hs htu, decide_true, if_true]
        exact ih _ (by simp only [now_perform]; omega) (by simp only [due_perform])
      · -- what comes after the first part comes at the same time as if there were no parts
        have here : max t s = s := Nat.max_eq_right (by omega)
        have there : max f.now s = s := Nat.max_eq_right (by omega)
        simp [hs, settled, Suspension.wake?, due, Reel.pass, here, there]

end Waits

/-- **What is kept** as time passes and others do what they do. -/
structure Lasting (w : Circumstances) (a : Accidents) (n : Nat) (P : Reel → Prop) : Prop where
  later : ∀ f now due, due ⊆ f.due → P f → P { f with now, due }
  perform : ∀ f i, P f → P (f.perform w a n i)

section Lasting

variable {a : Accidents} {P : Reel → Prop} {f : Reel}

theorem Lasting.wait (hP : Lasting w a n P) (s : Suspension) (k : Nat) (h : P f) :
    P (f.wait w a n s k).2 := by
  have ended (f : Reel) (h : P f) : P (f.settled s k).2 := by
    unfold settled
    split
    · exact hP.later f _ _ (List.Subset.refl _) h
    · exact h
  unfold Reel.wait
  induction due : f.due generalizing f with
  | nil => exact ended f h
  | cons d rest ih =>
      rw [Reel.pass]
      split
      · have passed := hP.later f (max f.now d.1) rest (due ▸ List.subset_cons_self d rest) h
        exact ih (hP.perform _ d.2 passed) (due_perform ..)
      · exact ended f h

theorem Lasting.hold (hP : Lasting w a n P) (q : EngineRequest) (h : P f) : P (f.hold w a n q).2 := by
  cases q with
  | run k q =>
      cases q with
      | awaitResume =>
          simp only [Reel.hold]
          split
          · exact hP.wait _ _ h
          · exact h
      | _ => exact hP.wait _ _ h
  | log notice => exact h
  | now => exact h
  | _ => exact hP.wait _ _ h

theorem Lasting.play (hP : Lasting w a n P) (after : ∀ f since q, P f → P (f.after since q))
    (p : EngineProg α) (h : P f) : P (f.play w a n p).2 := by
  induction p generalizing f with
  | done r => exact h
  | ask q next ih =>
      have held := hP.hold q h
      simp only [Reel.play]
      rcases hq : f.hold w a n q with ⟨ends, g⟩
      rw [hq] at held
      cases ends with
      | true => exact ih _ (after _ _ _ held)
      | false => exact held

theorem Lasting.close (hP : Lasting w a n P) (h : P f) : P (f.close w a n) := by
  have closed (due : List (Nat × Intervention)) (g : Reel) (hg : P g) :
      P (due.foldl (fun g d => Reel.perform w a n { g with now := max g.now d.1 } d.2) g) := by
    induction due generalizing g with
    | nil => exact hg
    | cons d rest ih => exact ih _ (hP.perform _ d.2 (hP.later g _ _ (List.Subset.refl _) hg))
  exact closed f.due _ (hP.later f f.now [] (List.nil_subset _) h)

/-- Whether anybody holds the engine. -/
theorem lasting_current (c : Option Nat) : Lasting w a n fun f => f.engine.current = c where
  later _ _ _ _ h := h
  perform f i h := (current_perform a f i).trans h

/-- That interventions to come are from a plan. -/
theorem lasting_due (plan : List (Nat × Intervention)) : Lasting w a n fun f => f.due ⊆ plan where
  later _ _ _ hdue h := List.Subset.trans hdue h
  perform f i h := by rwa [due_perform]

/-- **Giving the engine back is a move**, and so among the states. -/
def Reel.Noted (f : Reel) : Prop := ∀ t, f.freed = some t → ∃ s, (t, s) ∈ f.states

theorem lasting_noted : Lasting w a n Reel.Noted where
  later _ _ _ _ h := h
  perform f i h t ht := by
    rw [freed_perform] at ht
    obtain ⟨s, hs⟩ := h t ht
    rw [perform_eq, Reel.moved]
    split
    · exact ⟨s, .tail _ hs⟩
    · exact ⟨s, hs⟩

theorem noted_after (f : Reel) (since : Nat) (q : EngineRequest) (h : f.Noted) :
    (f.after since q).Noted := by
  cases q with
  | transition move =>
      rw [Reel.after]
      split
      · next e made =>
        intro t ht
        cases move with
        | finish error =>
            obtain rfl : f.now = t := Option.some.inj ht
            exact ⟨e.state, .head _⟩
        | _ =>
            obtain ⟨s, hs⟩ := h t ht
            exact ⟨s, .tail _ hs⟩
      · exact h
  | _ => exact h

theorem due_after (f : Reel) (since : Nat) (q : EngineRequest) : (f.after since q).due = f.due := by
  cases q with
  | transition t =>
      simp only [Reel.after]
      split <;> rfl
  | _ => rfl

end Lasting

/-! ## 3. What is still to come -/

/-- The states that interventions to come bring about if nothing else happens, each at its time and
latest first. -/
def ahead : Engine → Nat → List (Nat × Intervention) → List (Nat × EngineState)
  | _, _, [] => []
  | e, now, (t, i) :: rest =>
    match e.apply i.move with
    | some e' => ahead e' (max now t) rest ++ [(max now t, e'.state)]
    | none => ahead e (max now t) rest

/-- **The course of the engine**: the states that it has gone through, and those that it will go through
if nothing but the interventions to come happens. -/
def Reel.course (f : Reel) : List (Nat × EngineState) := ahead f.engine f.now f.due ++ f.states

/-- **A reel that amounts to another one**: nothing but the time and what observers were told differs
once all interventions have come. -/
structure Reel.Amounts (f g : Reel) : Prop where
  asked : f.asked = g.asked
  freed : f.freed = g.freed
  course : f.course = g.course

section Ahead

variable {e : Engine} {now later t u k : Nat} {due rest : List (Nat × Intervention)} {f g h : Reel}
  {i : Intervention}

theorem Reel.Amounts.trans (hfg : f.Amounts g) (hgh : g.Amounts h) : f.Amounts h :=
  ⟨hfg.asked.trans hgh.asked, hfg.freed.trans hgh.freed, hfg.course.trans hgh.course⟩

/-- Whether the first intervention to come comes after a time, if there is one. -/
def After (t : Nat) (due : List (Nat × Intervention)) : Prop := ∀ d, due.head? = some d → t < d.1

/-- What comes later does not hang on how late it is. -/
theorem ahead_eq (hnow : now ≤ later) (hdue : After later due) :
    ahead e now due = ahead e later due := by
  cases due with
  | nil => rfl
  | cons d rest =>
      have first : later < d.1 := hdue d rfl
      have here : max now d.1 = d.1 := Nat.max_eq_right (by omega)
      have there : max later d.1 = d.1 := Nat.max_eq_right (by omega)
      simp only [ahead, here, there]

/-- What is still to come does not lie in the past. -/
theorem le_of_mem_ahead {x : Nat × EngineState} (hx : x ∈ ahead e now due) : now ≤ x.1 := by
  induction due generalizing e now with
  | nil => cases hx
  | cons d rest ih =>
      rw [ahead] at hx
      split at hx
      · rcases List.mem_append.mp hx with hx | hx
        · exact Nat.le_trans (Nat.le_max_left ..) (ih hx)
        · rw [List.mem_singleton.mp hx]
          exact Nat.le_max_left ..
      · exact Nat.le_trans (Nat.le_max_left ..) (ih hx)

/-- **An intervention that comes was to come.** -/
theorem course_perform (a : Accidents) (hdue : f.due = (t, i) :: rest) :
    (Reel.perform w a n { f with now := max f.now t, due := rest } i).course = f.course := by
  rw [perform_eq, Reel.moved, Reel.course, Reel.course, hdue, ahead]
  show _ = (match f.engine.apply i.move with | some e' => _ | none => _) ++ _
  cases f.engine.apply i.move <;> simp

/-- **Waiting changes nothing about the course.** -/
theorem amounts_wait (a : Accidents) (ht : f.now ≤ t) : (f.wait w a n (.settle t) k).2.Amounts f := by
  unfold Reel.wait
  induction due : f.due generalizing f with
  | nil => exact ⟨rfl, rfl, by simp [Reel.pass, settled, Suspension.wake?, Reel.course, due, ahead]⟩
  | cons d rest ih =>
      obtain ⟨s, i⟩ := d
      simp only [Reel.pass, Suspension.wake?, Option.all_some, decide_eq_true_eq]
      split
      · next comes =>
        have here : Reel.Amounts (Reel.perform w a n { f with now := max f.now s, due := rest } i) f :=
          ⟨asked_perform .., freed_perform .., course_perform a due⟩
        exact (ih (by simp only [now_perform]; omega) (by simp only [due_perform])).trans here
      · next stays =>
        refine ⟨rfl, rfl, ?_⟩
        have first : After t f.due := fun d hd => by
          rw [due] at hd
          cases hd
          omega
        show ahead f.engine t f.due ++ f.states = ahead f.engine f.now f.due ++ f.states
        rw [ahead_eq ht first]

theorem due_settled (s : Suspension) : (f.settled s k).2.due = f.due := by
  unfold settled
  split <;> rfl

/-- After a wait nothing is to come that should have come while it lasted. -/
theorem after_wait (a : Accidents) : After t (f.wait w a n (.settle t) k).2.due := by
  unfold Reel.wait
  induction due : f.due generalizing f with
  | nil =>
      intro d hd
      rw [Reel.pass, due_settled, due] at hd
      cases hd
  | cons d rest ih =>
      obtain ⟨s, i⟩ := d
      simp only [Reel.pass, Suspension.wake?, Option.all_some, decide_eq_true_eq]
      split
      · exact ih (by simp only [due_perform])
      · next stays =>
        intro d hd
        rw [due_settled, due] at hd
        cases hd
        omega

/-- A wait in which nothing comes. -/
theorem wait_calm (a : Accidents) (calm : After t f.due) :
    (f.wait w a n (.settle t) k).2 = { f with now := t } := by
  unfold Reel.wait
  cases due : f.due with
  | nil => simp [Reel.pass, settled, Suspension.wake?, due]
  | cons d rest =>
      have later : ¬ d.1 ≤ t := Nat.not_le.mpr (calm d (by rw [due]; rfl))
      simp [Reel.pass, settled, Suspension.wake?, later, due]

/-- **What is still to come comes in the end.** -/
theorem amounts_close (a : Accidents) (f : Reel) :
    (f.close w a n).Amounts f ∧ (f.close w a n).states = f.course := by
  have closed (due : List (Nat × Intervention)) (g : Reel) (hg : g.due = []) :
      let h := due.foldl (fun g d => Reel.perform w a n { g with now := max g.now d.1 } d.2) g
      h.Amounts { g with due := due } ∧ h.due = [] := by
    induction due generalizing g with
    | nil => exact ⟨⟨rfl, rfl, by rw [List.foldl_nil, Reel.course, hg]; rfl⟩, hg⟩
    | cons d rest ih =>
        have next := ih (Reel.perform w a n { g with now := max g.now d.1 } d.2)
          ((due_perform ..).trans hg)
        refine ⟨next.1.trans ⟨asked_perform .., freed_perform .., ?_⟩, next.2⟩
        have before := course_perform (w := w) (n := n) (f := { g with due := d :: rest }) a rfl
        rw [← before, Reel.course, Reel.course, perform_eq, perform_eq, Reel.moved, Reel.moved]
        cases g.engine.apply d.2.move <;> rfl
  obtain ⟨amounts, done⟩ := closed f.due { f with due := [] } rfl
  refine ⟨amounts, ?_⟩
  have course : (f.close w a n).course = f.course := amounts.course
  have rest : (f.close w a n).due = [] := done
  rw [← course, Reel.course, rest, ahead, List.nil_append]

end Ahead

/-! ## 4. Programs that heed no accident -/

/-- **The films of a program compare** in some way, whatever accidents there are. -/
def Compare (w : Circumstances) (n : Nat) (R : Option α × Reel → Option α × Reel → Prop)
    (p : EngineProg α) (f : Reel) : Prop :=
  ∀ a b, R (f.play w a n p) (f.play w b n p)

/-- **A program heeds no accident** where its film is the same whatever accidents there are. -/
abbrev Steady (w : Circumstances) (n : Nat) (p : EngineProg α) (f : Reel) : Prop := Compare w n Eq p f

section Steady

variable {p : EngineProg α} {f : Reel}

theorem play_bind (a : Accidents) (p : EngineProg α) (k : α → EngineProg β) (f : Reel) :
    f.play w a n (p.bind k) =
      match f.play w a n p with
      | (some r, g) => g.play w a n (k r)
      | (none, g) => (none, g) := by
  induction p generalizing f with
  | done r => rfl
  | ask q next ih =>
      simp only [Prog.ask_bind, play]
      rcases f.hold w a n q with ⟨ends, g⟩
      cases ends with
      | true => exact ih _ _
      | false => rfl

theorem steady_done (r : α) : Steady w n (.done r) f := fun _ _ => rfl

/-- What comes after a program that heeds no accident compares as it does by itself. -/
theorem Steady.bind {R : Option β × Reel → Option β × Reel → Prop} [Std.Refl R]
    {k : α → EngineProg β} (hp : Steady w n p f)
    (hk : ∀ r g, g.due ⊆ f.due → Compare w n R (k r) g) : Compare w n R (p.bind k) f := by
  intro a b
  have due : (f.play w b n p).2.due ⊆ f.due :=
    (lasting_due f.due).play (fun g s q hg => by rwa [due_after]) p (List.Subset.refl _)
  rw [play_bind, play_bind, hp a b]
  rcases hq : f.play w b n p with ⟨_ | r, g⟩
  · exact Std.Refl.refl _
  · rw [hq] at due
    exact hk r g due a b

/-- A question that takes its time and has its answer whatever accidents there are. Whether anybody
holds the engine does not change until it is answered. -/
theorem compare_ask {R : Option α × Reel → Option α × Reel → Prop} [Std.Refl R] {q : EngineRequest}
    {next : q.Answer → EngineProg α} (lasts : ∀ a b, f.lasts w a n q = f.lasts w b n q)
    (answer : ∀ a b g, g.engine.current = f.engine.current →
      f.answer w a n g q = f.answer w b n g q)
    (hn : ∀ a g, g.engine.current = f.engine.current → g.due ⊆ f.due →
      Compare w n R (next (f.answer w a n g q)) (g.after f.now q)) :
    Compare w n R (.ask q next) f := by
  intro a b
  have same : (f.hold w b n q).2.engine.current = f.engine.current := (lasting_current _).hold q rfl
  have due : (f.hold w b n q).2.due ⊆ f.due := (lasting_due f.due).hold q (List.Subset.refl _)
  simp only [play]
  rw [hold_alike a b f (lasts a b)]
  rcases held : f.hold w b n q with ⟨ends, g⟩
  rw [held] at same due
  cases ends with
  | true =>
      simp only [answer a b g same]
      exact hn b g same due a b
  | false => exact Std.Refl.refl _

/-- Whether the answer to a question may be an accident. -/
def risky : EngineRequest → Bool
  | .loadTask _ | .loadSettings | .saveTask _ | .publish _ => true
  | _ => false

theorem compare_safe {R : Option α × Reel → Option α × Reel → Prop} [Std.Refl R] {q : EngineRequest}
    (h : risky q = false) {next : q.Answer → EngineProg α}
    (hn : ∀ x g, g.due ⊆ f.due → Compare w n R (next x) g) : Compare w n R (.ask q next) f := by
  refine compare_ask (fun a b => ?_) (fun a b g _ => ?_) fun a g _ due => hn _ _ ?_
  · cases q <;> first | rfl | cases h
  · cases q <;> first | rfl | cases h
  · rw [due_after]
    exact due

/-- A question that is answered after so long. -/
theorem play_settles (a : Accidents) {q : EngineRequest} {next : q.Answer → EngineProg α} {t k : Nat}
    (h : f.hold w a n q = f.wait w a n (.settle t) k) :
    f.play w a n (.ask q next) =
      ((f.wait w a n (.settle t) k).2.after f.now q).play w a n
        (next (f.answer w a n (f.wait w a n (.settle t) k).2 q)) := by
  have ends : f.wait w a n (.settle t) k = (true, (f.wait w a n (.settle t) k).2) :=
    Prod.ext (wait_settle ..).1 rfl
  simp only [play, h]
  rw [ends]

/-- A publication takes as long if it fails, and leaves the same on film. -/
theorem play_publish (a : Accidents) (type : EventType) (task : Option TaskId) (data : Json) :
    f.play w a n (publish type task data) =
      (some (), (f.hold w a n (.publish ⟨type, task, data⟩)).2.after f.now
        (.publish ⟨type, task, data⟩)) := by
  simp only [publish, Prog.bind_eq, ask, Prog.request_bind]
  rw [play_settles a rfl]
  generalize f.answer w a n _ (.publish ⟨type, task, data⟩) = x
  cases x <;> rfl

theorem steady_publish (type : EventType) (task : Option TaskId) (data : Json) :
    Steady w n (publish type task data) f := by
  intro a b
  rw [play_publish, play_publish, hold_alike a b f rfl]

theorem steady_broadcast (s : EngineState) : Steady w n (broadcast s) f := steady_publish _ _ _

theorem steady_move (t : Transition) : Steady w n (move t) f :=
  compare_safe rfl fun x _ _ => match x with
    | some s => (steady_broadcast s).bind fun _ _ _ => steady_done true
    | none => steady_done false

/-! ## 5. Runs -/

theorem steady_progress (task : TaskId) (news : StepNews) : Steady w n (progress task news) f := by
  match news with
  | .paused _ => exact steady_done ()
  | .step index total action .started =>
      exact (steady_move _).bind fun _ _ _ => steady_publish _ _ _
  | .step index total action .completed =>
      exact (steady_move _).bind fun _ _ _ => steady_publish _ _ _
  | .step index total action (.failed error continued) => exact steady_publish _ _ _

theorem steady_effect (task : TaskId) (q : Request) : Steady w n (runEffect n task q) f := by
  cases q with
  | tell news => exact compare_safe rfl fun _ _ _ => steady_progress task news
  | _ => exact compare_safe rfl fun _ _ _ => steady_done _

/-- **A run heeds no accident**, whatever it asks. -/
theorem steady_expand (task : TaskId) (p : RunProg α) :
    Steady w n (p.expand (runEffect n task)) f := by
  induction p generalizing f with
  | done r => exact steady_done r
  | ask q next ih => exact (steady_effect task q).bind fun x _ _ => ih x

end Steady

/-! ## 6. The end of a start -/

section Closing

variable {f : Reel} {t : Nat}

/-- The reel once the engine was given back at time `t` with an error, or none. -/
def Reel.given (w : Circumstances) (a : Accidents) (n : Nat) (f : Reel) (t : Nat)
    (error : Option String) : Reel :=
  (f.wait w a n (.settle t) n).2.after f.now (.transition (.finish error))

/-- Telling observers changes nothing about the course. -/
theorem amounts_publish (a : Accidents) (type : EventType) (task : Option TaskId) (data : Json)
    (f : Reel) : ∃ g, f.play w a n (publish type task data) = (some (), g) ∧ g.Amounts f := by
  refine ⟨_, play_publish .., ?_⟩
  have waited : (f.hold w a n (.publish ⟨type, task, data⟩)).2.Amounts f :=
    amounts_wait a (Nat.le_add_right ..)
  exact ⟨waited.asked, waited.freed, waited.course⟩

/-- **The record of a run** is a wait, and leaves nothing else on the reel. How long it is hangs on what
comes of it. -/
theorem play_record (a : Accidents) (task : TaskId) (success : Bool) (f : Reel) :
    ∃ t, f.now ≤ t ∧
      f.play w a n (recordRun task success) = (some (), (f.wait w a n (.settle t) n).2) := by
  have waits : f.now ≤ f.now + f.lasts w a n (.loadTask task) := Nat.le_add_right ..
  simp only [recordRun, Prog.bind_eq, ask, Prog.request_bind]
  rw [play_settles a rfl]
  generalize f.now + f.lasts w a n (.loadTask task) = t at waits ⊢
  generalize f.answer w a n _ (.loadTask task) = found
  rcases found with e | _ | stored
  · exact ⟨t, waits, rfl⟩
  · exact ⟨t, waits, rfl⟩
  · -- the save follows on the look-up, so both are one wait
    have loaded : (f.wait w a n (.settle t) n).2.now = t := (wait_settle ..).2
    refine ⟨t + a.saves t, by omega, ?_⟩
    rw [← wait_settle_settle a f n (Nat.le_add_right t (a.saves t)) waits]
    show Reel.play w a n _ (.ask (.saveTask (stored.recordRun success _)) _) = _
    rw [play_settles a rfl]
    show Reel.play w a n ((Reel.wait w a n (.settle (_ + a.saves _)) n _).2) _ = _
    simp only [Reel.after, loaded]
    split <;> rfl

/-- Giving the engine back is a wait for the lock, a move, and what observers are told of it. -/
theorem play_finish (a : Accidents) (task : TaskId) (result : RunResult) (f : Reel) :
    ∃ t g, f.now ≤ t ∧ f.play w a n (finish task result) = (some (), g) ∧
      g.Amounts (f.given w a n t (errorOf result)) := by
  let move := EngineRequest.transition (.finish (errorOf result))
  let t := f.now + f.lasts w a n move
  let freed := f.given w a n t (errorOf result)
  obtain ⟨s, moved⟩ : ∃ s, f.answer w a n (f.wait w a n (.settle t) n).2 move = some s := ⟨_, rfl⟩
  obtain ⟨g, told, amounts⟩ := amounts_publish (w := w) (n := n) a .statusChanged s.taskId s.toJson
    freed
  obtain ⟨g', told', amounts'⟩ := amounts_publish (w := w) (n := n) a .runFinished (some task)
    (finishData result) g
  refine ⟨t, g', Nat.le_add_right .., ?_, amounts'.trans amounts⟩
  have made : f.play w a n (Engine.move (.finish (errorOf result))) = (some true, g) := by
    simp only [Engine.move, Prog.bind_eq, ask, Prog.request_bind]
    rw [play_settles a rfl, moved]
    show freed.play w a n ((broadcast s).bind fun _ => .done true) = _
    rw [play_bind, broadcast, told]
    rfl
  simp only [finish, Prog.bind_eq]
  rw [play_bind, made]
  cases result with
  | ok outcome => exact told'
  | error failure => exact told'

/-- **The end of a start**: the record is made or fails, and then the engine is given back, at a time
that hangs on how long that took. -/
theorem play_closing (a : Accidents) (task : TaskId) (result : RunResult) (f : Reel) :
    ∃ t g, f.now ≤ t ∧
      f.play w a n ((recordRun task result.isOk).bind fun _ => finish task result) = (some (), g) ∧
      g.Amounts (f.given w a n t (errorOf result)) := by
  obtain ⟨t₀, later₀, recorded⟩ := play_record (w := w) (n := n) a task result.isOk f
  have now : (f.wait w a n (.settle t₀) n).2.now = t₀ := (wait_settle ..).2
  obtain ⟨t, g, later, finished, amounts⟩ :=
    play_finish (w := w) (n := n) a task result (f.wait w a n (.settle t₀) n).2
  rw [now] at later
  refine ⟨t, g, Nat.le_trans later₀ later, ?_, ?_⟩
  · rw [play_bind, recorded]
    exact finished
  · rw [Reel.given, wait_settle_settle a f n later later₀] at amounts
    exact amounts

end Closing

/-! ## 7. Two ends of a start -/

/-- The states that the engine took before a time. -/
def Reel.statesBefore (f : Reel) (h : Nat) : List (Nat × EngineState) := f.states.filter (·.1 < h)

/-- **Nobody intervenes between two times.** One who does so at the earlier of them comes before it. -/
def Calm (plan : List (Nat × Intervention)) (t u : Nat) : Prop :=
  ∀ d ∈ plan, ¬ (min t u < d.1 ∧ d.1 ≤ max t u)

instance (plan : List (Nat × Intervention)) (t u : Nat) : Decidable (Calm plan t u) :=
  inferInstanceAs (Decidable (∀ d ∈ plan, _))

section Given

variable {a b : Accidents} {f : Reel} {t u h : Nat} {error : Option String}
  {plan : List (Nat × Intervention)}

/-- What giving the engine back adds to a reel. -/
theorem given_eq (a : Accidents) (f : Reel) (t : Nat) (error : Option String) :
    ∃ e : Engine, ∀ g : Reel, g = (f.wait w a n (.settle t) n).2 →
      g.engine.apply (.finish error) = some e ∧
      f.given w a n t error =
        { g with engine := e, states := (t, e.state) :: g.states, freed := some t } := by
  refine ⟨_, fun g hg => ⟨by rw [hg]; rfl, ?_⟩⟩
  have now : g.now = t := by rw [hg]; exact (wait_settle ..).2
  rw [Reel.given, ← hg]
  show { g with engine := _, states := (g.now, _) :: g.states, freed := some g.now } = _
  rw [now, hg]

theorem freed_given : (f.given w a n t error).freed = some t := by
  obtain ⟨e, given⟩ := given_eq (w := w) (n := n) a f t error
  rw [(given _ rfl).2]

theorem asked_given (ht : f.now ≤ t) : (f.given w a n t error).asked = f.asked := by
  obtain ⟨e, given⟩ := given_eq (w := w) (n := n) a f t error
  rw [(given _ rfl).2]
  exact (amounts_wait a ht).asked

/-- **Before the engine is given back** its course is the one of the run. -/
theorem course_given_before (ht : f.now ≤ t) (hh : h ≤ t) :
    (f.given w a n t error).course.filter (·.1 < h) = f.course.filter (·.1 < h) := by
  obtain ⟨e, given⟩ := given_eq (w := w) (n := n) a f t error
  have waited : _ = f.course := (amounts_wait (w := w) (n := n) (k := n) a ht).course
  have now : (f.wait w a n (.settle t) n).2.now = t := (wait_settle ..).2
  have later {e : Engine} {due : List (Nat × Intervention)} :
      (ahead e t due).filter (fun s => s.1 < h) = [] := by
    refine List.filter_eq_nil_iff.mpr fun s hs => ?_
    have := le_of_mem_ahead hs
    simp only [decide_eq_true_eq]
    omega
  rw [(given _ rfl).2, ← waited, Reel.course, Reel.course, now, List.filter_append,
    List.filter_append, later, later, List.filter_cons_of_neg (by simp only [decide_eq_true_eq]; omega)]

/-- **The engine is given back at either of two times**, and nobody intervenes between them: the course
is the same but for that time. -/
theorem course_given_calm (ht : f.now ≤ t) (htu : t ≤ u)
    (calm : ∀ d ∈ f.due, ¬ (t < d.1 ∧ d.1 ≤ u)) :
    ∃ later s earlier, (f.given w a n t error).course = later ++ (t, s) :: earlier ∧
      (f.given w b n u error).course = later ++ (u, s) :: earlier := by
  obtain ⟨e, one⟩ := given_eq (w := w) (n := n) a f t error
  obtain ⟨e', other⟩ := given_eq (w := w) (n := n) b f u error
  let g := (f.wait w a n (.settle t) n).2
  have now : g.now = t := (wait_settle ..).2
  have due : g.due ⊆ f.due := (lasting_due f.due).wait _ _ (List.Subset.refl _)
  have after : After t g.due := after_wait a
  have after' : After u g.due := fun d hd => by
    have := calm d (due (List.mem_of_head? hd))
    have := after d hd
    omega
  -- nothing comes in the rest of the longer wait
  have rest : (f.wait w b n (.settle u) n).2 = { g with now := u } := by
    rw [wait_alike b a, ← wait_settle_settle a f n htu ht]
    exact wait_calm a after'
  obtain ⟨made, course⟩ := one g rfl
  obtain ⟨made', course'⟩ := other _ rest.symm
  obtain rfl : e = e' := Option.some.inj (made.symm.trans made')
  refine ⟨ahead e t g.due, e.state, g.states, ?_, ?_⟩
  · rw [course, Reel.course, now]
  · rw [course', Reel.course, ahead_eq htu after']

end Given

/-- **How far two outcomes can differ**: not at all, or in the time at which the engine was given back
after the same run. -/
inductive Parted (w : Circumstances) (n : Nat) (plan : List (Nat × Intervention)) :
    Option α × Reel → Option α × Reel → Prop where
  | same (x : Option α × Reel) : Parted w n plan x x
  | given {f g h : Reel} {a b : Accidents} {t u : Nat} {error : Option String} (r : α)
      (due : f.due ⊆ plan) (ht : f.now ≤ t) (hu : f.now ≤ u)
      (one : g.Amounts (f.given w a n t error)) (other : h.Amounts (f.given w b n u error)) :
      Parted w n plan (some r, g) (some r, h)

instance {plan : List (Nat × Intervention)} :
    Std.Refl (Parted w n plan : Option α × Reel → Option α × Reel → Prop) := ⟨.same⟩

/-! ## 8. Starts -/

section Start

variable {f : Reel} {id : TaskId} {plan : List (Nat × Intervention)}

/-- What a program returns may be looked at otherwise. -/
theorem parted_map {p : EngineProg α} (hp : Compare w n (Parted w n plan) p f) (look : α → β) :
    Compare w n (Parted w n plan) (p.bind fun r => .done (look r)) f := by
  intro a b
  rw [play_bind, play_bind]
  have parted := hp a b
  generalize f.play w a n p = x at parted ⊢
  generalize f.play w b n p = y at parted ⊢
  cases parted with
  | same => exact .same _
  | given r due ht hu one other => exact .given (look r) due ht hu one other

theorem parted_claimed (t : Task) (st : Settings) (hdue : f.due ⊆ plan) :
    Compare w n (Parted w n plan) (runClaimed n id t st) f := by
  refine (steady_expand id (t.run st)).bind fun r g hg => ?_
  intro a b
  obtain ⟨t, g₁, later, closed, one⟩ := play_closing (w := w) (n := n) a id r g
  obtain ⟨u, g₂, later', closed', other⟩ := play_closing (w := w) (n := n) b id r g
  have whole : (do recordRun id r.isOk; finish id r; return r : EngineProg RunResult) =
      ((recordRun id r.isOk).bind fun _ => finish id r).bind fun _ => .done r :=
    (Prog.bind_assoc ..).symm
  rw [whole, play_bind, closed, play_bind, closed']
  exact .given r (List.Subset.trans hg hdue) later later' one other

theorem parted_prepared (r : Except EngineError (Task × Settings)) (hdue : f.due ⊆ plan) :
    Compare w n (Parted w n plan) (prepared n id r) f := by
  cases r with
  | error e => exact fun _ _ => .same _
  | ok found =>
      refine compare_safe rfl fun now g hg => compare_safe rfl fun x h hh => ?_
      cases x with
      | none => exact fun _ _ => .same _
      | some s =>
          refine (steady_broadcast s).bind fun _ k hk => parted_map (parted_claimed _ _ ?_) _
          have kept : (g.after f.now .now).due = g.due := due_after ..
          exact List.Subset.trans hk (List.Subset.trans hh (List.Subset.trans hg hdue))

/-- What a start finds before it holds the engine is no accident. -/
theorem parted_atSettings (t : Task) (apart : f.engine.current ≠ some n) (hdue : f.due ⊆ plan) :
    Compare w n (Parted w n plan) (atSettings n id t) f := by
  refine compare_ask (fun a b => rfl) (fun a b g same => ?_) fun a g same hg => ?_
  · simp only [Reel.answer, same, apart, if_false]
  · have kept : (g.after f.now .loadSettings).due ⊆ plan := List.Subset.trans hg hdue
    cases f.answer w a n g .loadSettings <;> exact parted_prepared _ kept

theorem parted_loaded (t : Task) (apart : f.engine.current ≠ some n) (hdue : f.due ⊆ plan) :
    Compare w n (Parted w n plan) (loaded n id t) f := by
  unfold loaded
  split
  · split
    · exact parted_atSettings t apart hdue
    · exact parted_prepared _ hdue
  · exact parted_prepared _ hdue

theorem parted_atTask (apart : f.engine.current ≠ some n) (hdue : f.due ⊆ plan) :
    Compare w n (Parted w n plan) (atTask n id) f := by
  refine compare_ask (fun a b => ?_) (fun a b g same => ?_) fun a g same hg => ?_
  · simp only [Reel.lasts, apart, if_false]
  · simp only [Reel.answer, same, apart, if_false]
  · have still : g.engine.current ≠ some n := same ▸ apart
    have kept : (g.after f.now (.loadTask id)).due ⊆ plan := List.Subset.trans hg hdue
    rcases f.answer w a n g (.loadTask id) with e | _ | t
    · exact parted_prepared _ kept
    · exact parted_prepared _ kept
    · exact parted_loaded t still kept

/-- **Starts part in nothing but when they give the engine back.** One that finds the engine held does
not even look into the stores. -/
theorem parted_start (hdue : f.due ⊆ plan) :
    Compare w n (Parted w n plan) (Call.program n (.start id)) f := by
  rw [start_program]
  refine compare_ask (fun a b => rfl) (fun a b g _ => rfl) fun a g same hg => ?_
  have kept : (g.after f.now .busy).due ⊆ plan := List.Subset.trans hg hdue
  cases busy : f.answer w a n g .busy with
  | true =>
      rw [if_pos rfl]
      exact parted_prepared _ kept
  | false =>
      have free : g.engine.current = none := by
        cases held : g.engine.current with
        | none => rfl
        | some k => simp [Reel.answer, Engine.busy, held] at busy
      exact parted_atTask (by simp [Reel.after, free]) kept

end Start

/-! ## 9. Isolation -/

/-- **Two starts go alike** but for the moment at which each gives the engine back. -/
structure Isolated (plan : List (Nat × Intervention)) (one other : Option Reply × Reel) : Prop where
  /-- They return the same, or both wait for good. -/
  result : one.1 = other.1
  /-- They make the same calls on devices and screen at the same times. -/
  calls : one.2.calls = other.2.calls
  /-- Both give the engine back, or neither. -/
  given : one.2.freed.isSome = other.2.freed.isSome
  /-- Before either has done so, the engine takes the same states at the same times. -/
  before : ∀ h, (∀ t, one.2.freed = some t → h ≤ t) → (∀ u, other.2.freed = some u → h ≤ u) →
    one.2.statesBefore h = other.2.statesBefore h
  /-- If nobody intervenes between the one moment and the other, it takes the same states all along. -/
  states : (∀ t u, one.2.freed = some t → other.2.freed = some u → Calm plan t u) →
    one.2.states.map (·.2) = other.2.states.map (·.2)
  /-- Each of them at the same time then, but for the one at that moment. -/
  moments : ∀ t u, one.2.freed = some t → other.2.freed = some u → Calm plan t u →
    ∃ later s earlier, one.2.states = later ++ (t, s) :: earlier ∧
      other.2.states = later ++ (u, s) :: earlier

section Isolation

variable {plan : List (Nat × Intervention)} {x y : Option Reply × Reel}

/-- A film goes like itself. -/
theorem isolated_self (noted : x.2.Noted) : Isolated plan x x where
  result := rfl
  calls := rfl
  given := rfl
  before _ _ _ := rfl
  states _ := rfl
  moments t u ht hu _ := by
    obtain rfl : t = u := Option.some.inj (ht.symm.trans hu)
    obtain ⟨s, hs⟩ := noted t ht
    obtain ⟨later, earlier, states⟩ := List.append_of_mem hs
    exact ⟨later, s, earlier, states, states⟩

/-- **Outcomes that part in that moment only go alike** once all interventions have come. -/
theorem Parted.isolated {a b : Accidents} (h : Parted w n plan x y) (noted : x.2.Noted) :
    Isolated plan (x.1, x.2.close w a n) (y.1, y.2.close w b n) := by
  cases h with
  | same =>
      rw [close_alike b a]
      exact isolated_self (lasting_noted.close noted)
  | @given f g h a' b' t u error r due ht hu one other =>
      obtain ⟨closed, states⟩ := amounts_close (w := w) (n := n) a g
      obtain ⟨closed', states'⟩ := amounts_close (w := w) (n := n) b h
      rw [one.course] at states
      rw [other.course] at states'
      have freed : (g.close w a n).freed = some t := (closed.trans one).freed.trans freed_given
      have freed' : (h.close w b n).freed = some u := (closed'.trans other).freed.trans freed_given
      have asked : (g.close w a n).asked = (h.close w b n).asked := by
        rw [(closed.trans one).asked, (closed'.trans other).asked, asked_given ht, asked_given hu]
      have moments (calm : Calm plan t u) : ∃ later s earlier,
          (g.close w a n).states = later ++ (t, s) :: earlier ∧
            (h.close w b n).states = later ++ (u, s) :: earlier := by
        rw [states, states']
        rcases Nat.le_total t u with htu | htu
        · exact course_given_calm ht htu fun d hd => by
            simpa [Nat.min_eq_left htu, Nat.max_eq_right htu] using calm d (due hd)
        · have swapped : ∃ later s earlier,
              (f.given w b' n u error).course = later ++ (u, s) :: earlier ∧
                (f.given w a' n t error).course = later ++ (t, s) :: earlier :=
            course_given_calm hu htu fun d hd => by
              simpa [Nat.min_eq_right htu, Nat.max_eq_left htu] using calm d (due hd)
          obtain ⟨later, s, earlier, two, one⟩ := swapped
          exact ⟨later, s, earlier, one, two⟩
      exact {
        result := rfl
        calls := by simp only [Reel.calls, asked]
        given := by rw [freed, freed']; rfl
        before := fun h hl hr => by
          rw [Reel.statesBefore, Reel.statesBefore, states, states',
            course_given_before ht (hl t freed), course_given_before hu (hr u freed')]
        states := fun calm => by
          obtain ⟨later, s, earlier, one, other⟩ := moments (calm t u freed freed')
          simp [one, other]
        moments := fun t' u' ht' hu' calm => by
          obtain rfl : t = t' := Option.some.inj (freed.symm.trans ht')
          obtain rfl : u = u' := Option.some.inj (freed'.symm.trans hu')
          exact moments calm }

/-- **Two starts that differ in accidents only go alike.** With the same interventions at the same
times, and the same answers of devices, screen, lots and clock, a start returns the same and makes the
same calls at the same times -- whichever events cannot be published, whatever others have made of the
stored task and the settings since the start took the engine, whether or not the record of the run can
be read and saved, and however long that takes. The engine takes the same states at the same times
until it is given back in one of them, and the same states all along if nobody intervenes between that
moment and the one at which it is given back in the other. -/
theorem start_isolated (w : Circumstances) (plan : List (Nat × Intervention)) (a b : Accidents)
    (e : Engine) (begun n : Nat) (id : TaskId) :
    Isolated plan (film w plan a e begun n id) (film w plan b e begun n id) := by
  let f := ((Reel.blank e plan).wait w a n (.settle begun) n).2
  have before : ((Reel.blank e plan).wait w b n (.settle begun) n).2 = f := by rw [wait_alike b a]
  have due : f.due ⊆ plan := (lasting_due plan).wait _ _ (List.Subset.refl _)
  have noted : (f.play w a n (Call.program n (.start id))).2.Noted := by
    refine lasting_noted.play noted_after _ (lasting_noted.wait _ _ fun t ht => ?_)
    cases ht
  simp only [film]
  rw [before]
  exact (parted_start due a b).isolated noted

/-- A click on a task. -/
def clickOnce : Circumstances :=
  { Surroundings.prompt with
    task := fun _ => .ok (some clickTask)
    settings := .ok .initial
    date := fun _ => .epoch
    takes := fun _ _ => 1 }

/-- Observers and stores that work; a save takes its time. -/
def allWell : Accidents where
  publish _ := .ok ()
  task _ := .ok (some clickTask)
  settings := .ok .initial
  save _ := .ok ()
  loads _ := 1
  saves _ := 50

/-- Observers and stores that are gone once the start holds the engine. -/
def allGone : Accidents :=
  let gone := .device "gone"
  { publish := fun _ => .error gone
    task := fun _ => .error gone
    settings := .error gone
    save := fun _ => .error gone
    loads := fun _ => 1
    saves := fun _ => 50 }

/-- A run that is paused and resumed, and an emergency stop after its end: whether the record is saved
or everything is gone, the engine takes the same states, though it is given back at another time. -/
theorem start_isolated_click :
    let plan := [(5, .pause), (40, .resume), (300, .emergencyStop)]
    let one := film clickOnce plan allWell .initial 0 0 ⟨0⟩
    let other := film clickOnce plan allGone .initial 0 0 ⟨0⟩
    one.2.freed = some 263 ∧ other.2.freed = some 213 ∧ Calm plan 263 213 ∧ Isolated plan one other ∧
      one.2.states.map (·.2.status) = [.idle, .idle, .running, .running, .running, .paused, .running] ∧
      one.2.states.map (·.2) = other.2.states.map (·.2) := by
  intro plan one other
  have freed : one.2.freed = some 263 := by decide +kernel
  have freed' : other.2.freed = some 213 := by decide +kernel
  have calm : Calm plan 263 213 := by decide
  have isolated : Isolated plan one other := start_isolated ..
  refine ⟨freed, freed', calm, isolated, by decide +kernel, isolated.states fun t u ht hu => ?_⟩
  obtain rfl : 263 = t := Option.some.inj (freed.symm.trans ht)
  obtain rfl : 213 = u := Option.some.inj (freed'.symm.trans hu)
  exact calm

/-- **Starts can part**: a pause that comes while the record of the one run is being saved finds the
engine of the other at rest, where the record has just failed. -/
theorem start_parted : ¬ ∀ (w : Circumstances) (plan : List (Nat × Intervention)) (a b : Accidents)
    (e : Engine) (begun n : Nat) (id : TaskId), b = { a with task := b.task } →
      (film w plan a e begun n id).2.states.map (·.2) =
        (film w plan b e begun n id).2.states.map (·.2) := by
  intro claim
  let gone : Accidents := { allWell with task := allGone.task }
  have same := claim clickOnce [(130, .pause)] allWell gone .initial 0 0 ⟨0⟩ rfl
  have one : ((film clickOnce [(130, .pause)] allWell .initial 0 0 ⟨0⟩).2.states.map (·.2)).map
      (·.status) = [.idle, .paused, .running, .running, .running] := by decide +kernel
  have other : ((film clickOnce [(130, .pause)] gone .initial 0 0 ⟨0⟩).2.states.map (·.2)).map
      (·.status) = [.idle, .running, .running, .running] := by decide +kernel
  rw [same, other] at one
  cases one

end Isolation
end TaskReplay.Engine
