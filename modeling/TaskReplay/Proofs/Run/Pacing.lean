import Mathlib.Data.List.Basic
import TaskReplay.Proofs.Run.Delays
import TaskReplay.Proofs.Run.Onward

/-!
# The pace of a run

After a step that was completed a run sleeps, and then looks for a pause before it begins the next step. On
film, where nothing but calls and waits takes time:

* `film_step` -- a step of the walk is not completed, or goes on from where its work was done;
* `play_completed`, `Pause` -- then comes the pause after it: at most one lot, and a sleep;
* `unheld_begins`, `next_begins` -- then the next step begins with a look at the pause, and at once if none is
  pending;
* `Paces`, `KeepsPauses`, `runFrom_keepsPauses` -- **so every step of a run keeps the pause after the one
  before**;
* `delay_law` -- **the law of delays**, from the numbers to the run.
-/

namespace TaskReplay

open Script

/-! ## 1. One step -/

section Step

variable {w : Surroundings} {plan : Plan} {s : Settings} {total i : Nat} {a : Action}

/-- What a step tells that is not completed. -/
abbrev Unfinished (i : Nat) (n : Nat × Moment) : Prop := n.1 = i ∧ n.2 ≠ .completed

/-- **A step of the walk** is not completed, or it goes on from where its work was done. -/
theorem film_step (w : Surroundings) (plan : Plan) (s : Settings) (total i : Nat) (a : Action) (f : Film) :
    let y := f.play w plan (walkStep s total i a).quiet
    Onward plan (Unfinished i) f y.2 ∨ ∃ h, Onward plan (Unfinished i) f h ∧
      y = h.play w plan (closeStep s total i a (.ok ())).quiet := by
  intro y
  have gate : Onward plan (Unfinished i) f (f.play w plan (gate i).quiet).2 := .play (gate_tells i) f
  have split : y = f.play w plan (RunProg.quiet _) := congrArg (fun p => f.play w plan p.quiet)
    (walkStep_eq s total i a)
  rw [quiet_bind, play_bind] at split
  rcases gated : f.play w plan (RunProg.quiet (TaskReplay.gate i)) with ⟨_ | _ | _, g⟩
  · rw [gated] at split gate
    exact .inl (split ▸ gate)
  · rw [gated] at split gate
    let started : Request := .tell (.step i total a .started)
    have begun : Onward plan (Unfinished i) g (g.take w plan started) := .take fun n news => by
      cases news
      exact ⟨rfl, nofun⟩
    have work : Onward plan (Unfinished i) (g.take w plan started) _ :=
      .play (w := w) (made_tells (perform_any s a)) _
    have played : y = (g.take w plan started).play w plan
        (RunProg.quiet ((a.perform s).run.bind (closeStep s total i a))) :=
      split.trans (play_calm (q := started) rfl _)
    rw [quiet_bind, play_bind] at played
    rcases performed : (g.take w plan started).play w plan (RunProg.quiet (a.perform s).run) with
      ⟨_ | e | u, h⟩
    · rw [performed] at played work
      exact .inl (played ▸ (gate.trans begun).trans work)
    · rw [performed] at played work
      have closed : (closeStep s total i a (.error e)).Asks (Request.Tells (Unfinished i)) := by
        refine (closeStep_tells s total i a (.error e)).mono fun q tells n news => ?_
        obtain ⟨here, -, whole⟩ := tells n news
        exact ⟨here, fun finished => by cases whole finished⟩
      exact .inl (played ▸ ((gate.trans begun).trans work).trans (.play closed h))
    · rw [performed] at played work
      exact .inr ⟨h, (gate.trans begun).trans work, played⟩
  · rw [gated] at split gate
    refine .inl (split ▸ gate.trans (.play ?_ g))
    exact (endStopped_tells i).bind fun _ => trivial

/-- The base of the pause after a step. -/
def Action.rest (s : Settings) (a : Action) : UInt64 := a.header.delayAfter.getD s.delay

/-- **The pause after a step**: at most one lot, and a sleep. -/
theorem play_recover (w : Surroundings) (plan : Plan) (s : Settings) (a : Action) (f : Film) :
    ∃ (jitter : Delay.Draw (Delay.drawRange s.delayVariation)) (lots : List Request),
      (∀ q ∈ lots, ∃ n, q = .draw n) ∧
      let g := (f.takes w plan lots).take w plan (.sleep (Delay.postStep (a.rest s).toNat jitter))
      f.play w plan (a.recover s).quiet.run = (some g.slept, g) := by
  by_cases none : a.rest s = 0
  · refine ⟨.zero _, [], nofun, ?_⟩
    have only : a.recover s = Script.sleep 0 := if_pos none
    rw [only, none]
    exact play_rest w plan f 0
  · refine ⟨f.lot w s.delayVariation, drawn s.delayVariation, fun q among => ?_, ?_⟩
    · unfold drawn at among
      split at among
      · cases among
      · exact ⟨_, List.mem_singleton.mp among⟩
    · have both : a.recover s = Script.draw s.delayVariation >>= fun jitter =>
          Script.sleep (Delay.postStep (a.rest s).toNat jitter) := if_neg none
      rw [both]
      exact (play_andThen (play_draw w plan f s.delayVariation)).trans (play_rest w plan _ _)

/-- What follows a step of the walk: the end of the run, or the steps after it. -/
def afterStep (s : Settings) (total i : Nat) (rest : List Action) : Option RunResult → RunProg RunResult
  | some result => .done result
  | none => runFrom s total (i + 1) rest

theorem runFrom_eq (rest : List Action) :
    runFrom s total i (a :: rest) = (walkStep s total i a).bind (afterStep s total i rest) := rfl

/-- A step of the walk from its look at the stop on, and what follows it. -/
def unheld (s : Settings) (total i : Nat) (a : Action) (rest : List Action) : RunProg RunResult :=
  .ask .stopped fun stop => if stop then endStopped i else .ask (.tell (.step i total a .started)) fun _ =>
    ((a.perform s).run.bind (closeStep s total i a)).bind (afterStep s total i rest)

/-- **A step of the walk begins with a look at the pause**, and goes on if none is pending. -/
theorem runFrom_looks (s : Settings) (total i : Nat) (a : Action) (rest : List Action) :
    ∃ held, runFrom s total i (a :: rest) = .ask (.mark (.index i)) fun _ => .ask .pausePending fun pending =>
      if pending then held else unheld s total i a rest := by
  apply Exists.intro
  rw [runFrom_eq, walkStep_eq, gate]
  refine congrArg _ (funext fun _ => congrArg (Prog.ask Request.pausePending) (funext fun pending => ?_))
  cases pending with
  | true => rfl
  | false =>
      refine congrArg (Prog.ask Request.stopped) (funext fun stop => ?_)
      cases stop <;> rfl

/-- **A step that was completed** is told of, and the steps after it come after its pause. -/
theorem closeStep_completed (rest : List Action) :
    (closeStep s total i a (.ok ())).bind (afterStep s total i rest) =
      .ask (.tell (.step i total a .completed)) fun _ => (a.recover s).run.bind fun
        | .ok _ => runFrom s total (i + 1) rest
        | .error _ => endStopped (i + 1) := by
  refine congrArg (Prog.ask _) (funext fun _ => ?_)
  show ((a.recover s).run.bind _).bind _ = _
  rw [Prog.bind_assoc]
  refine congrArg _ (funext fun r => ?_)
  cases r <;> rfl

/-- What comes after a step has begun tells of no other beginning of it. -/
theorem after_begin_tells (s : Settings) (total i : Nat) (a : Action) (rest : List Action) :
    (((a.perform s).run.bind (closeStep s total i a)).bind (afterStep s total i rest)).Asks
      (Request.Tells (· ≠ (i, .started))) := by
  refine ((made_tells (perform_any s a)).bind fun x => ?_).bind fun o => ?_
  · refine (closeStep_tells s total i a x).mono fun q tells n news same => ?_
    exact (tells n news).2.1 (congrArg Prod.snd same)
  · cases o with
    | some r => trivial
    | none =>
        refine (from_tells s total (i + 1) rest).mono fun q tells n news same => ?_
        have later : i + 1 ≤ n.1 := tells n news
        rw [same] at later
        exact Nat.not_succ_le_self i later

/-- A step that no pause holds begins at once, unless the run is stopped. -/
theorem unheld_begins (brisk : w.Brisk) (f : Film) (rest : List Action) :
    let x := f.play w plan (unheld s total i a rest).quiet
    x.2.scene.control.stopped = false →
    ∃ later, x.2.shots = later ++ f.shots ∧ (∃ v ∈ later, v.news? = some (i, .started)) ∧
      ∀ v ∈ later, v.news? = some (i, .started) → v.begun = f.now := by
  intro x unstopped
  let asked := f.take w plan .stopped
  have at_ask : asked.now = f.now := now_brief brisk rfl
  have goes : x = asked.play w plan (RunProg.quiet (if asked.scene.control.stopped then _ else _)) :=
    play_brief brisk (q := .stopped) rfl _
  cases stopped : asked.scene.control.stopped with
  | true =>
      rw [goes, stopped_play _ stopped] at unstopped
      cases unstopped
  | false =>
      rw [stopped] at goes
      let started : Request := .tell (.step i total a .started)
      let told := asked.shot w plan started
      have begins : x = (asked.take w plan started).play w plan (RunProg.quiet _) :=
        goes.trans (play_brief brisk (q := started) rfl _)
      have on : Onward plan (· ≠ (i, .started)) (asked.take w plan started) _ :=
        .play (w := w) (after_begin_tells s total i a rest) _
      obtain ⟨made, shots, new⟩ := on.shots
      refine ⟨made ++ [told, f.shot w plan .stopped], ?_, ⟨told, by simp, rfl⟩, fun v among news => ?_⟩
      · rw [begins, List.append_assoc]
        exact shots
      · rcases List.mem_append.mp among with later | first
        · exact absurd rfl ((new v later).2 _ news)
        · rcases List.mem_cons.mp first with rfl | last
          · exact at_ask
          · cases List.mem_singleton.mp last
            cases news

/-- **The next step** of a run that is not stopped: the run looks for a pause at once, and begins the step at
once if none is pending. -/
theorem next_begins (brisk : w.Brisk) (g : Film) (rest : List Action)
    (known : g.scene.control = wished plan g.shots) :
    let x := g.play w plan (runFrom s total i (a :: rest)).quiet
    x.2.scene.control.stopped = false →
    ∃ later look mark, x.2.shots = later ++ look :: mark :: g.shots ∧
      look.cue = .request .pausePending ∧ look.begun = g.now ∧ mark.news? = none ∧
      ((wished plan (look :: mark :: g.shots)).pausePending = false →
        (∃ v ∈ later, v.news? = some (i, .started)) ∧
        ∀ v ∈ later, v.news? = some (i, .started) → v.begun = g.now) := by
  intro x unstopped
  let marked := g.take w plan (.mark (.index i))
  let looked := marked.take w plan .pausePending
  let look := marked.shot w plan .pausePending
  let mark := g.shot w plan (.mark (.index i))
  have at_mark : marked.now = g.now := now_brief brisk rfl
  have at_look : looked.now = g.now := (now_brief brisk rfl).trans at_mark
  have looks : looked.scene.control = wished plan looked.shots := wished_take (wished_take known)
  obtain ⟨held, run⟩ := runFrom_looks s total i a rest
  have played : x = looked.play w plan
      (RunProg.quiet (if looked.scene.control.pausePending then held else unheld s total i a rest)) :=
    (congrArg (fun p => g.play w plan (RunProg.quiet p)) run).trans
      ((play_brief brisk (q := .mark (.index i)) rfl _).trans (play_brief brisk (q := .pausePending) rfl _))
  cases pending : looked.scene.control.pausePending with
  | true =>
      have grown : looked.shots <:+ x.2.shots := played ▸ shots_grow _ looked
      obtain ⟨later, shots⟩ := grown
      refine ⟨later, look, mark, shots.symm, rfl, at_mark, rfl, fun free => ?_⟩
      rw [looks] at pending
      cases pending.symm.trans free
  | false =>
      rw [pending] at played
      have goes : x = looked.play w plan (unheld s total i a rest).quiet := played
      obtain ⟨later, shots, begins, at_once⟩ := unheld_begins brisk looked rest (goes ▸ unstopped)
      rw [← goes] at shots
      exact ⟨later, look, mark, shots, rfl, at_mark, rfl, fun _ => ⟨begins, at_look ▸ at_once⟩⟩

end Step

/-! ## 2. The whole run -/

/-- **The pause after step `i`**, where shot `u` tells that it was completed, `earlier` was filmed before and
`later` after it: the run sleeps for `d`, and does not begin the next step before that is over; then it looks
for a pause, and if none is pending it begins the next step at that very moment. -/
structure Paces (plan : Plan) (i total d : Nat) (later : List Shot) (u : Shot) (earlier : List Shot) :
    Prop where
  rests : ∃ pause ∈ later, pause.cue = .request (.sleep d) ∧ pause.begun = u.begun ∧
    pause.ended = some (u.begun + d)
  notBefore : ∀ v ∈ later, v.news? = some (i + 1, .started) → u.begun + d ≤ v.begun
  onTime : i + 1 < total → ∃ after look before, later = after ++ look :: before ∧
    look.cue = .request .pausePending ∧ look.begun = u.begun + d ∧
    ((wished plan (look :: before ++ u :: earlier)).pausePending = false →
      (∃ v ∈ after, v.news? = some (i + 1, .started)) ∧
      ∀ v ∈ later, v.news? = some (i + 1, .started) → v.begun = u.begun + d)

section Run

variable {w : Surroundings} {plan : Plan} {s : Settings} {total i : Nat} {a : Action}

/-- The shots after a step was completed, up to the end of the pause: lots and the sleep. -/
structure Pause (plan : Plan) (h g : Film) (told sleep : Shot) (lots : List Shot) (d : Nat) : Prop where
  shots : g.shots = sleep :: lots ++ told :: h.shots
  silent : ∀ v ∈ sleep :: lots, v.news? = none
  cue : sleep.cue = .request (.sleep d)
  begun : sleep.begun = told.begun
  ended : sleep.ended = some (told.begun + d)
  now : g.now = told.begun + d
  control : h.scene.control = wished plan h.shots → g.scene.control = wished plan g.shots

/-- **After a step was completed** the run is stopped, or goes on once the pause is over. -/
theorem play_completed (brisk : w.Brisk) (h : Film) (rest : List Action) :
    let told := h.shot w plan (.tell (.step i total a .completed))
    let x := h.play w plan (RunProg.quiet ((closeStep s total i a (.ok ())).bind (afterStep s total i rest)))
    x.2.scene.control.stopped = false →
    ∃ (jitter : Delay.Draw (Delay.drawRange s.delayVariation)) (g : Film) (sleep : Shot) (lots : List Shot),
      Pause plan h g told sleep lots (Delay.postStep (a.rest s).toNat jitter) ∧
      x = g.play w plan (runFrom s total (i + 1) rest).quiet := by
  intro told x unstopped
  let tells : Request := .tell (.step i total a .completed)
  let h₁ := h.take w plan tells
  obtain ⟨jitter, lots, draws, slept⟩ := play_recover w plan s a h₁
  let d := Delay.postStep (a.rest s).toNat jitter
  let h₂ := h₁.takes w plan lots
  let g := h₂.take w plan (.sleep d)
  have slept' : h₁.play w plan (RunProg.quiet (a.recover s).run) = (some g.slept, g) := slept
  have x_eq : x = h₁.play w plan (RunProg.quiet ((a.recover s).run.bind _)) :=
    (congrArg (fun p => h.play w plan (RunProg.quiet p)) (closeStep_completed rest)).trans
      (play_brief brisk (q := tells) rfl _)
  rw [quiet_bind, play_bind, slept'] at x_eq
  cases stopped : g.scene.control.stopped with
  | true =>
      rw [x_eq, stopped_play _ stopped] at unstopped
      cases unstopped
  | false =>
      have whole : g.slept = .ok () := by simp [Film.slept, stopped]
      rw [whole] at x_eq
      have at_told : h₁.now = h.now := now_brief brisk rfl
      have at_lots : h₂.now = h.now := (now_takes_brief brisk fun q among => by
        obtain ⟨n, rfl⟩ := draws q among
        rfl).trans at_told
      have drew : Onward plan (fun _ => False) h₁ h₂ := .takes fun q among => by
        obtain ⟨n, rfl⟩ := draws q among
        exact tells_none rfl
      obtain ⟨shots, made, new⟩ := drew.shots
      refine ⟨jitter, g, h₂.shot w plan (.sleep d), shots, ⟨?_, fun v among => ?_, rfl, at_lots, ?_, ?_, ?_⟩,
        x_eq⟩
      · exact congrArg (h₂.shot w plan (.sleep d) :: ·) made
      · rcases List.mem_cons.mp among with rfl | lot
        · rfl
        · exact Option.eq_none_iff_forall_ne_some.mpr fun n news => (new v lot).2 n news
      · exact (ended_sleep stopped).trans (congrArg (fun t => some (t + d)) at_lots)
      · rw [now_sleep stopped, at_lots]
        rfl
      · exact fun known => wished_take (drew.control (wished_take known))

/-- What tells something is not among shots that tell nothing. -/
theorem mem_of_news {made silent : List Shot} (tell_nothing : ∀ v ∈ silent, v.news? = none) {v : Shot}
    {n : Nat × Moment} (among : v ∈ made ++ silent) (news : v.news? = some n) : v ∈ made := by
  rcases List.mem_append.mp among with told | mute
  · exact told
  · rw [tell_nothing v mute] at news
    cases news

/-- **The next step keeps to the pause.** -/
theorem Pause.paces {h g : Film} {told sleep : Shot} {lots : List Shot} {d : Nat} (brisk : w.Brisk)
    (pause : Pause plan h g told sleep lots d) (known : h.scene.control = wished plan h.shots)
    (rest : List Action) (length : total = i + 1 + rest.length) :
    let x := g.play w plan (runFrom s total (i + 1) rest).quiet
    x.2.scene.control.stopped = false →
    ∃ later, x.2.shots = later ++ told :: h.shots ∧
      (∀ v ∈ later, ∀ n, v.news? = some n → i + 1 ≤ n.1) ∧ Paces plan i total d later told h.shots := by
  intro x unstopped
  have on : Onward plan (i + 1 ≤ ·.1) g x.2 := .play (from_tells s total (i + 1) rest) g
  obtain ⟨made, shots, new⟩ := on.shots
  have all : x.2.shots = (made ++ sleep :: lots) ++ told :: h.shots := by
    rw [show x.2.shots = made ++ g.shots from shots, pause.shots]
    simp
  have next {v : Shot} {n : Nat × Moment} (among : v ∈ made ++ sleep :: lots) (news : v.news? = some n) :
      g.now ≤ v.begun ∧ i + 1 ≤ n.1 := by
    obtain ⟨later, tells⟩ := new v (mem_of_news pause.silent among news)
    exact ⟨later, tells n news⟩
  refine ⟨made ++ sleep :: lots, all, fun v among n news => (next among news).2, ⟨⟨sleep, by simp, pause.cue,
    pause.begun, pause.ended⟩, fun v among news => pause.now ▸ (next among news).1, fun more => ?_⟩⟩
  cases rest with
  | nil => exact absurd length (Nat.ne_of_gt more)
  | cons b rest =>
      obtain ⟨after, look, mark, shots', cue, begun, silent, onTime⟩ :=
        next_begins brisk g rest (pause.control known) unstopped
      have same : made ++ sleep :: lots = after ++ look :: mark :: sleep :: lots := by
        refine (List.append_left_inj (told :: h.shots)).mp ?_
        rw [← all, show x.2.shots = _ from shots', pause.shots]
        simp
      have then_shots : look :: mark :: sleep :: lots ++ told :: h.shots = look :: mark :: g.shots := by
        rw [pause.shots]
        rfl
      have look_silent : look.news? = none := by
        rw [Shot.news?, cue]
        rfl
      have mute : ∀ v ∈ look :: mark :: sleep :: lots, v.news? = none :=
        List.forall_mem_cons.mpr ⟨look_silent, List.forall_mem_cons.mpr ⟨silent, pause.silent⟩⟩
      refine ⟨after, look, mark :: sleep :: lots, same, cue, begun.trans pause.now, fun free => ?_⟩
      rw [then_shots] at free
      obtain ⟨begins, only⟩ := onTime free
      refine ⟨begins, fun v among news => ?_⟩
      rw [same] at among
      exact (only v (mem_of_news mute among news) news).trans pause.now

/-- Each step of `as` that was completed, counted from `i`, keeps its pause, told by shots. -/
def KeepsPauses (plan : Plan) (s : Settings) (total i : Nat) (as : List Action) (shots : List Shot) : Prop :=
  ∀ later u earlier k n a, shots = later ++ u :: earlier →
    u.cue = .request (.tell (.step (i + k) n a .completed)) →
    n = total ∧ as[k]? = some a ∧ ∃ jitter : Delay.Draw (Delay.drawRange s.delayVariation),
      Paces plan (i + k) total (Delay.postStep (a.rest s).toNat jitter) later u earlier

/-- A film tells of no step from `i` on. -/
def Film.Before (i : Nat) (f : Film) : Prop := ∀ u ∈ f.shots, ∀ n, u.news? = some n → n.1 < i

variable {f g : Film} {as rest : List Action} {shots later earlier : List Shot} {u : Shot}

/-- A shot that tells of a step that was completed. -/
theorem news_completed {n : Nat} (cue : u.cue = .request (.tell (.step i n a .completed))) :
    u.news? = some (i, .completed) := by
  rw [Shot.news?, cue]
  rfl

/-- Until a step is completed, nothing tells that it or a later one is. -/
theorem Film.Before.unfinished (before : f.Before i) (on : Onward plan (Unfinished i) f g) (k : Nat) :
    ∀ v ∈ g.shots, v.news? ≠ some (i + k, .completed) := by
  intro v among news
  rcases on.told among news with old | ⟨-, -, unfinished⟩
  · exact absurd (before v old _ news) (Nat.not_lt.mpr (Nat.le_add_right i k))
  · exact unfinished rfl

theorem Film.Before.next (before : f.Before i) (on : Onward plan (Unfinished i) f g) : g.Before (i + 1) := by
  intro v among n news
  rcases on.told among news with old | ⟨-, here, -⟩
  · exact Nat.lt_succ_of_lt (before v old n news)
  · exact here ▸ Nat.lt_succ_self _

/-- After the pause nothing tells of a later step. -/
theorem Pause.before {h : Film} {sleep : Shot} {lots : List Shot} {d : Nat}
    (pause : Pause plan h g (h.shot w plan (.tell (.step i total a .completed))) sleep lots d)
    (before : h.Before (i + 1)) : g.Before (i + 1) := by
  intro v among n news
  rw [pause.shots] at among
  rcases List.mem_append.mp among with silent | among
  · rw [pause.silent v silent] at news
    cases news
  · rcases List.mem_cons.mp among with rfl | old
    · cases news
      exact Nat.lt_succ_self i
    · exact before v old n news

/-- Where nothing tells that a step was completed, every step keeps its pause. -/
theorem keepsPauses_of_unfinished (none_told : ∀ k, ∀ v ∈ shots, v.news? ≠ some (i + k, .completed)) :
    KeepsPauses plan s total i as shots := by
  intro later u earlier k n a split cue
  have among : u ∈ shots := split ▸ List.mem_append_right _ List.mem_cons_self
  exact absurd (news_completed cue) (none_told k u among)

/-- A step that was not completed has no pause. -/
theorem KeepsPauses.skip (keeps : KeepsPauses plan s total (i + 1) rest shots)
    (none_told : ∀ v ∈ shots, v.news? ≠ some (i, .completed)) :
    KeepsPauses plan s total i (a :: rest) shots := by
  intro later u earlier k n a' split cue
  cases k with
  | zero =>
      have among : u ∈ shots := split ▸ List.mem_append_right _ List.mem_cons_self
      exact absurd (news_completed cue) (none_told u among)
  | succ k =>
      have shift : i + (k + 1) = i + 1 + k := by omega
      rw [shift] at cue ⊢
      exact keeps later u earlier k n a' split cue

/-- A step that was completed keeps its own pause, and the later ones theirs. -/
theorem KeepsPauses.cons (keeps : KeepsPauses plan s total (i + 1) rest shots)
    (split : shots = later ++ u :: earlier) (cue : u.cue = .request (.tell (.step i total a .completed)))
    (once : (∀ v ∈ later, v.news? ≠ some (i, .completed)) ∧ ∀ v ∈ earlier, v.news? ≠ some (i, .completed))
    (paces : ∃ jitter : Delay.Draw (Delay.drawRange s.delayVariation),
      Paces plan i total (Delay.postStep (a.rest s).toNat jitter) later u earlier) :
    KeepsPauses plan s total i (a :: rest) shots := by
  intro later' u' earlier' k n a' split' cue'
  cases k with
  | zero =>
      have told : u'.news? = some (i, .completed) := news_completed cue'
      -- the only shot that tells it
      obtain ⟨rfl, rfl, rfl⟩ := (List.append_cons_inj_of_notMem (fun among => once.1 u' among told)
        (fun among => once.2 u' among told)).mp (split.symm.trans split')
      rw [cue] at cue'
      cases cue'
      exact ⟨rfl, rfl, paces⟩
  | succ k =>
      have shift : i + (k + 1) = i + 1 + k := by omega
      rw [shift] at cue' ⊢
      exact keeps later' u' earlier' k n a' split' cue'

/-- **The steps from `i` on keep their pauses**, unless the run is stopped. -/
theorem runFrom_keepsPauses (brisk : w.Brisk) (as : List Action) (f : Film)
    (known : f.scene.control = wished plan f.shots) (before : f.Before i) (length : total = i + as.length) :
    let x := f.play w plan (runFrom s total i as).quiet
    x.2.scene.control.stopped = false → KeepsPauses plan s total i as x.2.shots := by
  induction as generalizing i f with
  | nil =>
      intro x unstopped
      have on : Onward plan (Unfinished i) f x.2 :=
        .play (p := runFrom s total i []) ⟨tells_none rfl, fun _ => trivial⟩ f
      exact keepsPauses_of_unfinished (before.unfinished on)
  | cons a rest ih =>
      intro x unstopped
      have length' : total = i + 1 + rest.length := by
        rw [length, List.length_cons]
        omega
      have run : x = f.play w plan (RunProg.quiet _) :=
        congrArg (fun p => f.play w plan (RunProg.quiet p)) (runFrom_eq (a := a) rest)
      rw [quiet_bind, play_bind] at run
      rcases film_step w plan s total i a f with on | ⟨h, on, closes⟩
      · rcases stepped : f.play w plan (walkStep s total i a).quiet with ⟨_ | _ | r, g⟩
        · rw [stepped] at run on
          exact keepsPauses_of_unfinished (run ▸ before.unfinished on)
        · rw [stepped] at run on
          have goes : x = g.play w plan (runFrom s total (i + 1) rest).quiet := run
          have keeps := ih g (on.control known) (before.next on) length' (goes ▸ unstopped)
          rw [← goes] at keeps
          refine keeps.skip fun v among news => ?_
          have on' : Onward plan (i + 1 ≤ ·.1) g x.2 := goes ▸ .play (from_tells s total (i + 1) rest) g
          rcases on'.told among news with old | ⟨-, beyond⟩
          · exact before.unfinished on 0 v old news
          · exact Nat.not_succ_le_self i beyond
        · rw [stepped] at run on
          exact keepsPauses_of_unfinished (run ▸ before.unfinished on)
      · have whole : x = h.play w plan (RunProg.quiet ((closeStep s total i a (.ok ())).bind
            (afterStep s total i rest))) := by
          rw [quiet_bind, play_bind, ← closes]
          exact run
        obtain ⟨jitter, g, sleep, lots, pause, goes⟩ := play_completed brisk h rest (whole ▸ unstopped)
        rw [← whole] at goes
        have known' := on.control known
        have keeps := ih g (pause.control known') (pause.before (before.next on)) length' (goes ▸ unstopped)
        obtain ⟨later, split, beyond, paces⟩ := pause.paces brisk known' rest length' (goes ▸ unstopped)
        rw [← goes] at keeps split
        exact keeps.cons split rfl ⟨fun v among news => Nat.not_succ_le_self i (beyond v among _ news),
          before.unfinished on 0⟩ ⟨jitter, paces⟩

end Run

/-- **The law of delays.** Delays and the pause after a step are as near to what they should be as chance
says, and no number on the way leaves its word; a step that waits sleeps for its duration; inner steps sleep
for their own delays and nothing else. So in a run that is not stopped each step keeps the pause after the one
before. -/
theorem delay_law (w : Surroundings) (plan : Plan) (s : Settings) :
    (∀ (base variation floor : UInt64) (jitter : Delay.Draw (Delay.drawRange variation)),
      Delay.Jitter base variation floor jitter) ∧
    (∀ (base variation : UInt64) (jitter : Delay.Draw (Delay.drawRange variation)),
      Delay.PostStep base variation jitter) ∧
    (∀ (h : Header) (duration : Option UInt64) (variation : UInt64) (f : Film),
      ∃ jitter, WaitLaw w plan f duration variation
        (f.play w plan ((Action.simple h (.wait duration variation)).execute s).quiet.run) jitter) ∧
    (∀ (as : List Action) (f : Film), Nested w plan s as f
      (f.play w plan (executeAll s as).quiet.run).1 (f.play w plan (executeAll s as).quiet.run).2) ∧
    (w.Brisk → ∀ (t : Task) (start : Nat) (context : Context),
      let x := Film.play w plan (t.run s).quiet (.blank plan start context)
      x.2.scene.control.stopped = false →
      ∀ later u earlier i n a, x.2.shots = later ++ u :: earlier →
        u.cue = .request (.tell (.step i n a .completed)) →
        n = t.actions.length ∧ t.actions[i]? = some a ∧
        ∃ jitter : Delay.Draw (Delay.drawRange s.delayVariation),
          Paces plan i n (Delay.postStep (a.rest s).toNat jitter) later u earlier) := by
  refine ⟨Delay.jitter_law, Delay.postStep_law, fun h duration variation f => play_wait h duration variation,
    play_executeAll, fun brisk t start context => ?_⟩
  intro x unstopped later u earlier i n a split cue
  let blank : Film := .blank plan start context
  let f := blank.take w plan (.mark (.status .running))
  have run : x = f.play w plan (runFrom s t.actions.length 0 t.actions).quiet := play_brief brisk rfl _
  have before : f.Before 0 := by
    intro v only n news
    cases List.mem_singleton.mp only
    cases news
  have keeps := runFrom_keepsPauses brisk t.actions f
    (wished_take (watched_blank plan start context).control) before (Nat.zero_add _).symm (run ▸ unstopped)
  obtain ⟨rfl, step, jitter, paces⟩ := keeps later u earlier i n a (run ▸ split) ((Nat.zero_add i).symm ▸ cue)
  exact ⟨rfl, step, jitter, Nat.zero_add i ▸ paces⟩

/-- Two waits. -/
def twoWaits : Task :=
  .ofActions [.simple (.named "a") (.wait (some 30) 0), .simple (.named "b") (.wait (some 20) 0)]

/-- Two waits on film, where every lot is zero. -/
def twoWaitsFilm : Option RunResult × Film :=
  Film.play .prompt .silent (twoWaits.run .initial).quiet (.blank .silent 0 .fresh)

/-- The second wait begins 100 ms after the first was completed. -/
theorem delay_law_waits : Surroundings.prompt.Brisk ∧ ∃ later u earlier,
    twoWaitsFilm.2.shots = later ++ u :: earlier ∧ u.news? = some (0, .completed) ∧ u.begun = 30 ∧
      (∃ jitter : Delay.Draw (Delay.drawRange 50),
        Paces .silent 0 2 (Delay.postStep 100 jitter) later u earlier) ∧
      ∃ v ∈ later, v.news? = some (1, .started) ∧ v.begun = 130 := by
  have brisk : Surroundings.prompt.Brisk := fun _ _ _ _ => rfl
  have unstopped : twoWaitsFilm.2.scene.control.stopped = false := by decide +kernel
  have among : 11 < twoWaitsFilm.2.shots.length := by decide +kernel
  have split : twoWaitsFilm.2.shots =
      twoWaitsFilm.2.shots.take 11 ++ twoWaitsFilm.2.shots[11] :: twoWaitsFilm.2.shots.drop 12 :=
    (List.take_append_drop 11 _).symm.trans (congrArg _ (List.drop_eq_getElem_cons among))
  obtain ⟨-, -, -, -, paced⟩ := delay_law .prompt .silent .initial
  obtain ⟨-, -, jitter, paces⟩ := paced brisk twoWaits 0 .fresh unstopped _ _ _ _ _
    (.simple (.named "a") (.wait (some 30) 0)) split rfl
  exact ⟨brisk, _, _, _, split, rfl, rfl, ⟨jitter, paces⟩, _, List.mem_of_getElem? (i := 5) rfl, rfl, rfl⟩

end TaskReplay
