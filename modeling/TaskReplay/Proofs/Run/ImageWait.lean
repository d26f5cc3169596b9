import TaskReplay.Proofs.Run.Bounded

/-!
# How the wait for an image goes

A step that waits for an image to come or go, on film, where searches take no time:

* `Film.stopTimes`, `Punctual` -- when stops came; a film that goes on from another and comes to its end
  as soon as a stop does;
* `Verdict` -- the four ways a wait can end: it saw what it waits for, a search failed, it was late, it
  was stopped;
* `Film.glance` -- what the screen answers to the searches to come, by number;
* `Sought` -- how the searches went until the last one, and what came of that; `watch_sought` -- a wait
  goes like that, one round after the other (`Sought.later`);
* `image_wait_law` -- **the law of the step**: it searches every tenth of a second, ends at the first
  search that shows what it waits for or at its timeout, rounded up, or at a stop.
-/

namespace TaskReplay

open Script

/-! ## 1. Stops -/

/-- The times at which stops came while a shot lasted. -/
def Shot.stopTimes (u : Shot) : List Nat :=
  (u.wishes.filter fun e => e.2.contains .stop).map (·.1)

/-- **The times at which stops came**, in order. -/
def Film.stopTimes (f : Film) : List Nat := f.shots.reverse.flatMap Shot.stopTimes

/-- **A film that goes on from `f` and ends with a stop**, if one comes: every stop since then came at the
very end. -/
structure Punctual (f g : Film) : Prop where
  stops : ∃ later, g.stopTimes = f.stopTimes ++ later ∧ (∀ t ∈ later, t = g.now) ∧
    (g.scene.control.stopped = true ↔ f.scene.control.stopped = true ∨ later ≠ [])
  /-- Once stopped, it takes no time. -/
  still : f.scene.control.stopped = true → g.now = f.now

namespace Suspension

/-- If nothing changes, a sleep ends when it is due or at once. -/
theorem wake?_sleep {due now : Nat} (h : now ≤ due) (c : Control) :
    ∃ t full, (sleep due).wake? c now = some (t, full) ∧ now ≤ t ∧ t ≤ due := by
  cases stopped : c.stopped with
  | true => exact ⟨now, false, by simp [wake?, stopped], Nat.le_refl _, h⟩
  | false => exact ⟨due, true, by simp [wake?, stopped], h, Nat.le_refl _⟩

/-- Whatever comes meanwhile, it ends no later than it is due. -/
theorem endure_sleep {due now : Nat} (h : now ≤ due) (c : Control) (wishes : List (Nat × List Wish)) :
    ∃ t, ((sleep due).endure c now wishes).2 = some t ∧ now ≤ t ∧ t ≤ due := by
  induction wishes generalizing c now with
  | nil =>
      obtain ⟨t, full, wakes, bounds⟩ := wake?_sleep h c
      exact ⟨t, by simp [endure, wakes], bounds⟩
  | cons e rest ih =>
      obtain ⟨came, ws⟩ := e
      obtain ⟨t, full, wakes, bounds⟩ := wake?_sleep h c
      simp only [endure, wakes, Option.all_some, decide_eq_true_eq]
      split
      · next meanwhile =>
        have in_time : max now came ≤ due := by omega
        obtain ⟨t', ended, since, by_due⟩ := ih in_time (ws.foldl Control.wish c)
        exact ⟨t', ended, by omega, by_due⟩
      · exact ⟨t, rfl, bounds⟩

end Suspension

section Stops

variable {w : Surroundings} {plan : Plan} {f g h : Film} {q : Request}

theorem stopTimes_take : (f.take w plan q).stopTimes = f.stopTimes ++ (f.shot w plan q).stopTimes := by
  simp [Film.stopTimes]

theorem mem_stopTimes {u : Shot} {t : Nat} :
    t ∈ u.stopTimes ↔ ∃ ws, (t, ws) ∈ u.wishes ∧ Wish.stop ∈ ws := by
  simp [Shot.stopTimes]

theorem stops_iff {u : Shot} : u.stops = true ↔ u.stopTimes ≠ [] := by
  rw [Shot.stops, List.any_eq_true]
  constructor
  · intro some_stop
    obtain ⟨e, he, stop⟩ := some_stop
    exact List.ne_nil_of_mem (mem_stopTimes.mpr ⟨e.2, he, by simpa using stop⟩)
  · intro some_time
    obtain ⟨t, ht⟩ := List.exists_mem_of_ne_nil _ some_time
    obtain ⟨ws, he, stop⟩ := mem_stopTimes.mp ht
    exact ⟨(t, ws), he, by simpa using stop⟩

/-- A request is punctual if every stop in it comes at its end, and if it takes no time after a stop. -/
theorem punctual_take (ends : ∀ t ∈ (f.shot w plan q).stopTimes, t = (f.take w plan q).now)
    (still : f.scene.control.stopped = true → (f.take w plan q).now = f.now) :
    Punctual f (f.take w plan q) where
  stops := by
    refine ⟨_, stopTimes_take, ends, ?_⟩
    rw [Film.stopped_take, Bool.or_eq_true, stops_iff, or_comm]
  still := still

theorem Punctual.refl (f : Film) : Punctual f f :=
  ⟨⟨[], (List.append_nil _).symm, nofun, by simp⟩, fun _ => rfl⟩

theorem Punctual.trans (first : Punctual f g) (second : Punctual g h) : Punctual f h := by
  obtain ⟨l, hl, ends, stopped⟩ := first.stops
  obtain ⟨l', hl', ends', stopped'⟩ := second.stops
  refine ⟨⟨l ++ l', by rw [hl', hl, List.append_assoc], fun t ht => ?_, ?_⟩, fun hf => ?_⟩
  · rcases List.mem_append.mp ht with ht | ht
    · have now := second.still (stopped.mpr (.inr (List.ne_nil_of_mem ht)))
      rw [ends t ht, now]
    · exact ends' t ht
  · rw [stopped', stopped, or_assoc, ne_eq, ne_eq, ne_eq, List.append_eq_nil_iff,
      Classical.not_and_iff_not_or_not]
  · rw [second.still (stopped.mpr (.inl hf)), first.still hf]

/-- **A sleep** lasts as long as it should, or ends at a stop. -/
theorem take_sleep (w : Surroundings) (plan : Plan) (f : Film) (ms : Nat) :
    Punctual f (f.take w plan (.sleep ms)) ∧
      f.now ≤ (f.take w plan (.sleep ms)).now ∧ (f.take w plan (.sleep ms)).now ≤ f.now + ms := by
  obtain ⟨t, ended, since, by_due⟩ := Suspension.endure_sleep (Nat.le_add_right f.now ms)
    f.scene.control (f.wished plan)
  have now : (f.take w plan (.sleep ms)).now = t := by
    show ((f.shot w plan (.sleep ms)).ended).getD f.now = t
    rw [show (f.shot w plan (.sleep ms)).ended = some t from ended]
    rfl
  refine ⟨punctual_take (fun at_stop stop => ?_) fun stopped => ?_, by omega, by omega⟩
  · obtain ⟨ws, he, stop⟩ := mem_stopTimes.mp stop
    have ended' : (f.shot w plan (.sleep ms)).ended = some at_stop := Film.rest_stop rfl he stop
    simp only [Film.take, ended', Option.getD_some]
  · simp only [Film.take, Film.rest_stopped (q := .sleep ms) rfl stopped, Option.getD_some]

/-- What a wait for an image asks besides its sleeps. -/
def Request.watches : Request → Bool
  | .search _ _ _ | .clock | .write _ _ => true
  | _ => false

/-- **Searches take no time**, and neither do looks at the clock and writing a variable. -/
def Surroundings.Instant (w : Surroundings) : Prop :=
  ∀ q asked now, q.watches = true → w.lasts (q :: asked) now = 0

theorem take_instant (instant : w.Instant) (plan : Plan) (f : Film) (hq : q.watches = true) :
    Punctual f (f.take w plan q) ∧ (f.take w plan q).now = f.now := by
  have settles : f.wait w q = .settle f.now := by
    have at_once := instant q f.asked f.now hq
    cases q with
    | search template confidence area => simp [Film.wait, at_once]
    | clock => simp [Film.wait, at_once]
    | write name v => simp [Film.wait, at_once]
    | _ => cases hq
  have whole := Suspension.endure_settle (Nat.le_refl f.now) f.scene.control (f.wished plan)
  rw [← settles] at whole
  obtain ⟨ended, times⟩ := whole
  have now : (f.take w plan q).now = f.now := by
    show ((f.shot w plan q).ended).getD f.now = f.now
    rw [show (f.shot w plan q).ended = some f.now from ended]
    rfl
  refine ⟨punctual_take (fun t ht => ?_) fun _ => now, now⟩
  obtain ⟨ws, he, -⟩ := mem_stopTimes.mp ht
  have bounds : f.now ≤ t ∧ t ≤ f.now := times _ he
  omega

end Stops

/-! ## 2. Verdicts -/

/-- What comes of a wait for an image. -/
inductive Verdict where
  /-- A search showed what it waits for. -/
  | seen (m : Match)
  /-- A search failed. -/
  | failed (e : Failure)
  /-- It did not come in time. -/
  | late
  /-- A stop came. -/
  | stopped

/-- What the wait ends with. -/
def Verdict.result (template : String) (timeout : UInt64) (disappear : Bool) :
    Verdict → Except StepError Match
  | seen m => .ok m
  | failed e => .error (.dispatch e)
  | late => .error (.timeout template timeout disappear)
  | stopped => .error .interrupted

/-- A search that does not show what is waited for. -/
def Missed (disappear : Bool) (answer : Except Failure Match) : Prop :=
  ∃ m, answer = .ok m ∧ m.found = disappear

/-- **When a wait ends with a verdict**: with the answer to its last search, number `n` of at most `most`,
and at which time. -/
def Verdict.Holds (disappear : Bool) (most n : Nat) (answer : Except Failure Match)
    (begun ended : Nat) : Verdict → Prop
  | seen m => answer = .ok m ∧ m.found ≠ disappear ∧ ended = begun + 100 * n
  | failed e => answer = .error e ∧ ended = begun + 100 * n
  | late => Missed disappear answer ∧ n = most ∧ ended = begun + 100 * n
  | stopped => Missed disappear answer ∧ n < most ∧
    begun + 100 * n ≤ ended ∧ ended ≤ begun + 100 * (n + 1)

/-- **What the screen answers to the searches to come**: to search number `i` after the calls of a film. -/
def Film.glance (w : Surroundings) (f : Film) (search : Request) (i : Nat) : Except Failure Match :=
  w.search (f.calls ++ List.replicate (i + 1) search)

/-- **How a wait went** from `f` to `g`, with search number `n` its last. -/
structure Sought (w : Surroundings) (search : Request) (disappear : Bool) (most : Nat) (f g : Film)
    (n : Nat) (v : Verdict) : Prop where
  /-- It searched every tenth of a second, and made no other calls. -/
  timetable : g.timetable =
    f.timetable ++ (List.range (n + 1)).map fun i => (f.now + 100 * i, search)
  within : n ≤ most
  /-- No search but the last showed what it waits for. -/
  missed : ∀ i < n, Missed disappear (f.glance w search i)
  holds : v.Holds disappear most n (f.glance w search n) f.now g.now
  punctual : Punctual f g
  stopped : v = .stopped → g.scene.control.stopped = true
  context : g.scene.context = f.scene.context

/-- **A poll** from `f` to `g`: a search, and a tenth of a second that a stop cuts short. -/
structure Poll (search : Request) (f g : Film) : Prop where
  timetable : g.timetable = f.timetable ++ [(f.now, search)]
  calls : g.calls = f.calls ++ [search]
  since : f.now ≤ g.now
  by_due : g.now ≤ f.now + 100
  full : g.scene.control.stopped = false → g.now = f.now + 100
  punctual : Punctual f g
  context : g.scene.context = f.scene.context

section Searching

variable {w : Surroundings} {plan : Plan} {search : Request} {disappear : Bool} {most n : Nat}
  {f g h : Film} {v : Verdict}

/-- **A poll that missed**, and then a wait: together a wait with one more poll. -/
theorem Sought.later (poll : Poll search f g) (now : g.now = f.now + 100)
    (missed : Missed disappear (f.glance w search 0))
    (rest : Sought w search disappear most g h n v) :
    Sought w search disappear (most + 1) f h (n + 1) v := by
  have glances (i : Nat) : g.glance w search i = f.glance w search (i + 1) := by
    unfold Film.glance
    rw [poll.calls, List.append_assoc, ← List.replicate_one, List.replicate_append_replicate,
      Nat.add_comm 1]
  have times (i : Nat) : g.now + 100 * i = f.now + 100 * (i + 1) := by
    rw [now]
    omega
  have later : (List.range (n + 1 + 1)).map (fun i => (f.now + 100 * i, search)) =
      (f.now, search) :: (List.range (n + 1)).map fun i => (g.now + 100 * i, search) := by
    rw [List.range_succ_eq_map, List.map_cons, List.map_map]
    simp only [times, Function.comp_def, Nat.mul_zero, Nat.add_zero, Nat.succ_eq_add_one]
  constructor
  · rw [rest.timetable, poll.timetable, later, List.append_assoc, List.singleton_append]
  · exact Nat.succ_le_succ rest.within
  · intro i hi
    cases i with
    | zero => exact missed
    | succ i =>
        rw [← glances]
        exact rest.missed i (Nat.lt_of_succ_lt_succ hi)
  · have holds := rest.holds
    rw [glances] at holds
    cases v with
    | seen m => exact ⟨holds.1, holds.2.1, holds.2.2.trans (times n)⟩
    | failed e => exact ⟨holds.1, holds.2.trans (times n)⟩
    | late => exact ⟨holds.1, congrArg Nat.succ holds.2.1, holds.2.2.trans (times n)⟩
    | stopped =>
        obtain ⟨last, early, since, until_⟩ := holds
        rw [times] at since until_
        exact ⟨last, Nat.succ_lt_succ early, since, until_⟩
  · exact poll.punctual.trans rest.punctual
  · exact rest.stopped
  · exact rest.context.trans poll.context

/-- A wait with one search. -/
theorem Sought.once (timetable : g.timetable = f.timetable ++ [(f.now, search)])
    (holds : v.Holds disappear most 0 (f.glance w search 0) f.now g.now) (punctual : Punctual f g)
    (stopped : v = .stopped → g.scene.control.stopped = true)
    (context : g.scene.context = f.scene.context) : Sought w search disappear most f g 0 v :=
  ⟨by simpa using timetable, Nat.zero_le _, nofun, holds, punctual, stopped, context⟩

variable {template : String} {confidence : Float32} {area : Option Region}

theorem calls_search : (f.take w plan (.search template confidence area)).calls =
    f.calls ++ [.search template confidence area] := Film.calls_take

theorem answer_search : f.answer w (f.take w plan (.search template confidence area))
    (.search template confidence area) = f.glance w (.search template confidence area) 0 := by
  rw [Film.answer, calls_search]
  rfl

theorem timetable_search : (f.take w plan (.search template confidence area)).timetable =
    f.timetable ++ [(f.now, .search template confidence area)] := by
  simp [Film.timetable_take, Request.isCall]

/-- A search is answered. -/
theorem play_search {α : Type} {next : Except Failure Match → RunProg α} :
    f.play w plan (RunProg.quiet (.ask (.search template confidence area) next)) =
      (f.take w plan (.search template confidence area)).play w plan
        (RunProg.quiet (next (f.glance w (.search template confidence area) 0))) := by
  have answer : f.answer w (f.take w plan (.search template confidence area)) _ = _ := answer_search
  rw [← answer]
  exact play_calm (q := .search template confidence area) rfl _

/-- After a search that missed a film goes on. -/
theorem play_seek {missed : RunProg (Except StepError Match)}
    (misses : Missed disappear (f.glance w (.search template confidence area) 0)) :
    f.play w plan (RunProg.quiet (seek template confidence area disappear missed)) =
      (f.take w plan (.search template confidence area)).play w plan missed.quiet := by
  obtain ⟨m, answer, same⟩ := misses
  rw [seek, play_search, answer]
  simp only [same, bne_self_eq_false, Bool.false_eq_true, if_false]

/-- **A search that settles it** is the last: it failed, or it showed what is waited for. -/
theorem seek_sought (instant : w.Instant) (timeout : UInt64) (most : Nat)
    (missed : RunProg (Except StepError Match))
    (settles : ¬ Missed disappear (f.glance w (.search template confidence area) 0)) :
    ∃ v g, f.play w plan (RunProg.quiet (seek template confidence area disappear missed)) =
        (some (v.result template timeout disappear), g) ∧
      Sought w (.search template confidence area) disappear most f g 0 v := by
  let search : Request := .search template confidence area
  obtain ⟨punctual, now⟩ := take_instant (q := search) instant plan f rfl
  cases answer : f.glance w search 0 with
  | error e =>
      refine ⟨.failed e, f.take w plan search, ?_,
        .once timetable_search ⟨answer, now⟩ punctual nofun rfl⟩
      rw [seek, play_search, answer]
      rfl
  | ok m =>
      have shows : m.found ≠ disappear := fun misses => settles ⟨m, answer, misses⟩
      have differs : (m.found != disappear) = true := bne_iff_ne.mpr shows
      refine ⟨.seen m, f.take w plan search, ?_,
        .once timetable_search ⟨answer, shows, now⟩ punctual nofun rfl⟩
      rw [seek, play_search, answer]
      simp only [differs, if_true]
      rfl

/-- A sleep is over, and its answer tells of a stop. -/
theorem play_sleep {α : Type} {ms : Nat} {on off : RunProg α} :
    f.play w plan (RunProg.quiet (.ask (.sleep ms) fun full => if full then on else off)) =
      (f.take w plan (.sleep ms)).play w plan
        (RunProg.quiet (if (f.take w plan (.sleep ms)).scene.control.stopped then off else on)) := by
  obtain ⟨t, ended, -⟩ := Suspension.endure_sleep (Nat.le_add_right f.now ms) f.scene.control
    (f.wished plan)
  have ends : (f.shot w plan (.sleep ms)).ended = some t := ended
  simp only [RunProg.quiet, Film.play, ends, Option.isSome_some, if_true, Film.answer]
  by_cases stop : (f.take w plan (.sleep ms)).scene.control.stopped = true
  · simp [stop]
  · simp [stop]

end Searching

section Watching

variable {w : Surroundings} {plan : Plan} {s : Settings} {template : String} {timeout : UInt64}
  {confidence : Option Float32} {disappear : Bool} {deadline : Nat}

/-- What is asked in a poll. -/
def Film.poll (w : Surroundings) (plan : Plan) (f : Film) (search : Request) : Film :=
  ((f.take w plan search).take w plan .clock).take w plan (.sleep searchPoll)

theorem poll_of_search (instant : w.Instant) (plan : Plan) (f : Film) (template : String)
    (confidence : Float32) (area : Option Region) :
    Poll (.search template confidence area) f (f.poll w plan (.search template confidence area)) := by
  obtain ⟨searched, now⟩ := take_instant (q := .search template confidence area) instant plan f rfl
  obtain ⟨looked, now'⟩ := take_instant (q := .clock) instant plan
    (f.take w plan (.search template confidence area)) rfl
  obtain ⟨slept, since, by_due⟩ := take_sleep w plan
    ((f.take w plan (.search template confidence area)).take w plan .clock) searchPoll
  rw [now', now] at since by_due
  refine ⟨?_, ?_, since, by_due, fun unstopped => ?_, (searched.trans looked).trans slept, rfl⟩
  · simp [Film.poll, Film.timetable_take, Request.isCall]
  · simp [Film.poll, Film.calls_take, Request.isCall]
  · exact (now_sleep unstopped).trans (by rw [now', now]; rfl)

/-- **After a search that missed**, before the deadline, the poll is played to its end. -/
theorem play_poll (instant : w.Instant) {f : Film} {left : Nat} (early : f.now < deadline)
    (missed : Missed disappear (f.glance w
      (.search template (confidence.getD s.confidence) s.captureRegion) 0)) :
    let g := f.poll w plan (.search template (confidence.getD s.confidence) s.captureRegion)
    f.play w plan
        (watch s template timeout confidence disappear deadline (left + 1)).quiet.run =
      g.play w plan (RunProg.quiet (if g.scene.control.stopped then .done (.error .interrupted) else
        (watch s template timeout confidence disappear deadline left).run)) := by
  let search : Request := .search template (confidence.getD s.confidence) s.captureRegion
  obtain ⟨-, now⟩ := take_instant (q := search) instant plan f rfl
  obtain ⟨-, now'⟩ := take_instant (q := .clock) instant plan (f.take w plan search) rfl
  have not_late : ¬ deadline ≤ ((f.take w plan search).take w plan .clock).now := by omega
  intro g
  show f.play w plan
    (RunProg.quiet (watch s template timeout confidence disappear deadline (left + 1)).run) = _
  rw [run_watch, play_seek missed, seekOn, play_look, if_neg not_late, play_sleep]
  rfl

/-- **A wait for an image goes like that**, if it has no more searches left than reach to the first tenth
of a second at or after its deadline. -/
theorem watch_sought (instant : w.Instant) (left : Nat) (f : Film)
    (reach : f.now + 100 * left < deadline + 100) :
    ∃ n v g, f.play w plan
        (watch s template timeout confidence disappear deadline left).quiet.run =
          (some (v.result template timeout disappear), g) ∧
      Sought w (.search template (confidence.getD s.confidence) s.captureRegion) disappear left f g n v
        := by
  let search : Request := .search template (confidence.getD s.confidence) s.captureRegion
  have settled (left : Nat) (f : Film) (settles : ¬ Missed disappear (f.glance w search 0)) :
      ∃ v g, f.play w plan
          (watch s template timeout confidence disappear deadline left).quiet.run =
            (some (v.result template timeout disappear), g) ∧
        Sought w search disappear left f g 0 v := by
    rw [Script.quiet, ExceptT.run_mk, run_watch]
    exact seek_sought instant timeout left _ settles
  induction left generalizing f with
  | zero =>
      by_cases missed : Missed disappear (f.glance w search 0)
      · obtain ⟨punctual, now⟩ := take_instant (q := search) instant plan f rfl
        refine ⟨0, .late, f.take w plan search, ?_,
          .once timetable_search ⟨missed, rfl, now⟩ punctual nofun rfl⟩
        rw [Script.quiet, ExceptT.run_mk, run_watch, play_seek missed]
        rfl
      · exact ⟨0, settled 0 f missed⟩
  | succ left ih =>
      by_cases missed : Missed disappear (f.glance w search 0)
      · have poll := poll_of_search instant plan f template (confidence.getD s.confidence)
          s.captureRegion
        rw [play_poll instant (by omega) missed]
        generalize f.poll w plan _ = g at poll ⊢
        -- a stop in the wait ends it, and without one the next search is a tenth of a second later
        cases stop : g.scene.control.stopped with
        | true =>
            have early : 0 < left + 1 := Nat.succ_pos left
            exact ⟨0, .stopped, g, rfl, .once poll.timetable
              ⟨missed, early, poll.since, poll.by_due⟩ poll.punctual (fun _ => stop) poll.context⟩
        | false =>
            have now : g.now = f.now + 100 := poll.full stop
            obtain ⟨n, v, h, plays, sought⟩ := ih g (by omega)
            exact ⟨n + 1, v, h, plays, sought.later poll now missed⟩
      · exact ⟨0, settled (left + 1) f missed⟩

/-- **So does the whole wait**, which looks at the clock first. -/
theorem awaitImage_sought (instant : w.Instant) (plan : Plan) (s : Settings) (template : String)
    (timeout : UInt64) (confidence : Option Float32) (disappear : Bool) (f : Film) :
    ∃ n v g, f.play w plan (awaitImage s template timeout confidence disappear).quiet.run =
          (some (v.result template timeout disappear), g) ∧
      Sought w (.search template (confidence.getD s.confidence) s.captureRegion) disappear
        ((timeout.toNat + 99) / 100) f g n v := by
  let begun := f.take w plan .clock
  obtain ⟨looked, now⟩ := take_instant (q := .clock) instant plan f rfl
  have calls : begun.calls = f.calls := by simp [begun, Film.calls_take, Request.isCall]
  have table : begun.timetable = f.timetable := by simp [begun, Film.timetable_take, Request.isCall]
  have reach : begun.now + 100 * searchesLeft timeout < begun.now + timeout.toNat + 100 := by
    unfold searchesLeft searchPoll
    omega
  obtain ⟨n, v, g, plays, sought⟩ := watch_sought (s := s) instant (searchesLeft timeout) begun reach
  have same_glance (i : Nat) (search : Request) : begun.glance w search i = f.glance w search i := by
    rw [Film.glance, calls]
    rfl
  refine ⟨n, v, g, (play_calm (q := .clock) rfl _).trans plays, ?_⟩
  rw [← searchesLeft_eq]
  constructor
  · rw [sought.timetable, table, now]
  · exact sought.within
  · exact fun i hi => same_glance i _ ▸ sought.missed i hi
  · have holds := sought.holds
    rwa [same_glance, now] at holds
  · exact looked.trans sought.punctual
  · exact sought.stopped
  · exact sought.context

end Watching

/-! ## 3. The step -/

/-- The variables after a match is stored, if the step says into which. -/
def stored (into : Option String) (m : Match) (scope : Scope) : Scope :=
  match into with
  | some name => scope.set name (.ofLocation m.location)
  | none => scope

/-- **The variables after a wait for an image**: it stores what it saw, unless it waits for the image to
disappear. -/
def Verdict.scope (disappear : Bool) (into : Option String) (scope : Scope) : Verdict → Scope
  | seen m => if disappear then scope else stored into m scope
  | failed _ | late | stopped => scope

section Step

variable {w : Surroundings} {plan : Plan} {s : Settings} {f g : Film}

theorem play_store (instant : w.Instant) (plan : Plan) (into : Option String) (m : Match) (g : Film) :
    ∃ h, g.play w plan (store into m).quiet.run = (some (.ok ()), h) ∧ Punctual g h ∧
      h.now = g.now ∧ h.timetable = g.timetable ∧
      h.scene.context = { g.scene.context with scope := stored into m g.scene.context.scope } := by
  cases into with
  | none => exact ⟨g, rfl, .refl g, rfl, rfl, rfl⟩
  | some name =>
      let q : Request := .write name (.ofLocation m.location)
      obtain ⟨written, now⟩ := take_instant (q := q) instant plan g rfl
      refine ⟨g.take w plan q, (play_calm (q := q) rfl _).trans rfl, written, now, ?_, rfl⟩
      simp [Film.timetable_take, Request.isCall, q]

/-- What a script does after another on film. -/
theorem play_script_bind {α β : Type} {m : Script α} {k : α → Script β} {r : Except StepError α}
    (first : f.play w plan m.quiet.run = (some r, g)) :
    f.play w plan (m >>= k).quiet.run = g.play w plan (match r with
      | .ok a => (k a).quiet.run
      | .error e => .done (.error e)) := by
  cases r with
  | ok a => rw [script_quiet_bind, run_bind, play_bind, first]
  | error e => rw [script_quiet_bind, run_bind, play_bind, first]

/-- **The step**: its wait, and then what it stores. -/
theorem play_waitForImage (instant : w.Instant) (plan : Plan) (s : Settings) (h : Header)
    (template : String) (timeout : Option UInt64) (confidence : Option Float32) (disappear : Bool)
    (into : Option String) (f : Film) :
    let search : Request := .search template (confidence.getD s.confidence) s.captureRegion
    ∃ n v g k, f.play w plan ((Action.simple h
          (.waitForImage template timeout confidence disappear into)).execute s).quiet.run =
        (some ((v.result template (timeout.getD 0) disappear).map fun _ => ()), k) ∧
      Sought w search disappear (((timeout.getD 0).toNat + 99) / 100) f g n v ∧ Punctual g k ∧
      k.now = g.now ∧ k.timetable = g.timetable ∧
      k.scene.context = { f.scene.context with
        scope := v.scope disappear into f.scene.context.scope } := by
  intro search
  obtain ⟨n, v, g, waited, sought⟩ :=
    awaitImage_sought instant plan s template (timeout.getD 0) confidence disappear f
  have context : g.scene.context = { f.scene.context with scope := f.scene.context.scope } :=
    sought.context
  simp only [Action.execute, Deed.execute]
  rw [play_script_bind waited]
  cases v with
  | seen m =>
      cases disappear with
      | true => exact ⟨n, .seen m, g, g, rfl, sought, .refl g, rfl, rfl, context⟩
      | false =>
          obtain ⟨k, plays, punctual, now, table, context'⟩ :=
            play_store instant plan into m g
          refine ⟨n, .seen m, g, k, plays, sought, punctual, now, table, ?_⟩
          rw [context', sought.context]
          rfl
  | failed e => exact ⟨n, .failed e, g, g, rfl, sought, .refl g, rfl, rfl, context⟩
  | late => exact ⟨n, .late, g, g, rfl, sought, .refl g, rfl, rfl, context⟩
  | stopped => exact ⟨n, .stopped, g, g, rfl, sought, .refl g, rfl, rfl, context⟩

/-- **The law of the wait for an image.** What the screen answers is `f.glance`, which may be anything, and
so also what depends on the time of a search; searches take no time, and the step begins in `f` with no
stop wished. Then there is a last search, number `n`, and no search before it showed what the step waits
for; all are made every tenth of a second from the beginning on, whatever is wished. After search number
`n` the step ends at once with what the search showed, or with its failure, or, if `n` is the last number
that the timeout has time for, with a timeout; or it ends at a stop, which came before the next search
would have been made. It stores what it saw if it waited for the image to appear and nothing else, and no
stop came before its end. -/
theorem image_wait_law {w : Surroundings} (instant : w.Instant) (plan : Plan) (s : Settings)
    (h : Header) (template : String) (timeout : Option UInt64) (confidence : Option Float32)
    (disappear : Bool) (into : Option String) {f : Film}
    (unstopped : f.scene.control.stopped = false) :
    let search : Request := .search template (confidence.getD s.confidence) s.captureRegion
    let limit := timeout.getD 0
    let most := (limit.toNat + 99) / 100
    let x := f.play w plan ((Action.simple h
      (.waitForImage template timeout confidence disappear into)).execute s).quiet.run
    ∃ (n : Nat) (v : Verdict), x.1 = some ((v.result template limit disappear).map fun _ => ()) ∧
      n ≤ most ∧
      x.2.timetable =
        f.timetable ++ (List.range (n + 1)).map (fun i => (f.now + 100 * i, search)) ∧
      (∀ i < n, Missed disappear (f.glance w search i)) ∧
      v.Holds disappear most n (f.glance w search n) f.now x.2.now ∧
      (v = .late → f.now + limit.toNat ≤ x.2.now ∧ x.2.now < f.now + limit.toNat + 100) ∧
      (∃ stops, x.2.stopTimes = f.stopTimes ++ stops ∧ (∀ t ∈ stops, t = x.2.now) ∧
        (v = .stopped → stops ≠ [])) ∧
      x.2.scene.context = { f.scene.context with
        scope := v.scope disappear into f.scene.context.scope } := by
  intro search limit most x
  obtain ⟨n, v, g, k, plays, sought, stored, now, table, context⟩ :=
    play_waitForImage instant plan s h template timeout confidence disappear into f
  have ends : x = (some ((v.result template limit disappear).map fun _ => ()), k) := plays
  have punctual : Punctual f k := sought.punctual.trans stored
  obtain ⟨stops, came, at_end, stopped⟩ := punctual.stops
  rw [ends]
  have holds := sought.holds
  rw [← now] at holds
  refine ⟨n, v, rfl, sought.within, table.trans sought.timetable, sought.missed, holds,
    fun late => ?_, ⟨stops, came, at_end, fun is_stopped => ?_⟩, context⟩
  · subst late
    obtain ⟨-, last, ended⟩ := holds
    have rounded : most = (limit.toNat + 99) / 100 := rfl
    have : n = most := last
    dsimp only
    omega
  · obtain ⟨_, -, -, still⟩ := stored.stops
    have at_last := still.mpr (.inl (sought.stopped is_stopped))
    exact (stopped.mp at_last).resolve_left (by simp [unstopped])

end Step

/-- A screen on which an image appears with the third search. -/
def Surroundings.appearing : Surroundings :=
  { Surroundings.prompt with search := fun calls => .ok ⟨2 < calls.length, some ⟨7, 9⟩, none, none⟩ }

/-- A pause in the wait after the first search. -/
def pauseFirst : Plan := ⟨[], fun n => if n = 3 then [(40, [.pause])] else []⟩

/-- A wait of a quarter of a second for that image, into a variable. -/
def appearingWait : Action :=
  .simple (.named "w") (.waitForImage "ok.png" (some 250) none false (some "v"))

/-- That wait on film, with the pause. -/
def appearingFilm : Option (Except StepError Unit) × Film :=
  Film.play .appearing pauseFirst (appearingWait.execute .initial).quiet.run
    (.blank pauseFirst 0 .fresh)

/-- The image is seen at the third search, and the pause is not noticed. -/
theorem image_wait_law_appearing :
    appearingFilm.2.timetable.map (·.1) = [0, 100, 200] ∧
      appearingFilm.2.scene.control.paused = true ∧
      ∃ (n : Nat) (v : Verdict), n ≤ (250 + 99) / 100 ∧
        appearingFilm.1 = some ((v.result "ok.png" 250 false).map fun _ => ()) ∧
        appearingFilm.2.scene.context =
          { Context.fresh with scope := v.scope false (some "v") Context.fresh.scope } := by
  have instant : Surroundings.appearing.Instant := fun _ _ _ _ => rfl
  obtain ⟨n, v, result, within, -, -, -, -, -, context⟩ := image_wait_law instant pauseFirst .initial
    (.named "w") "ok.png" (some 250) none false (some "v") (f := .blank pauseFirst 0 .fresh) rfl
  exact ⟨by decide +kernel, by decide +kernel, n, v, within, result, context⟩

end TaskReplay
