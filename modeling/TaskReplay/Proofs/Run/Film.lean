import TaskReplay.Proofs.Run.Cue
import TaskReplay.Proofs.Run.Play

/-!
# Runs on film

A `Plays` may go in many ways. On film it goes in one: what a run meets depends on what it did, and
others wish what a plan says, so that two runs can be compared that differ in a wish.

* `Surroundings` -- devices and screen, which answer out of the calls made so far, lots to be drawn,
  and the time that things take; `Plan` -- who wishes what when;
* `Suspension.endure` -- how a wait goes while wishes come: it ends when `Suspension.wake?` says so,
  and a wish of that very moment comes before its end;
* `Film`, `Shot` -- how far a run has come: each cue with its time, what was wished meanwhile, and
  when it was over;
* `Film.play`, `Task.film` -- the film of a program and of a run.
-/

namespace TaskReplay

/-! ## 1. Surroundings and plans -/

/-- A call on mouse or keyboard, or a search. -/
def Request.isCall : Request → Bool
  | .device _ | .search _ _ _ => true
  | _ => false

/-- A lot to be drawn. -/
def Request.isDraw : Request → Bool
  | .draw _ => true
  | _ => false

/-- What a run meets. -/
structure Surroundings where
  /-- The answer to a call, out of the calls so far; the call itself is the last. -/
  device : List Request → Except Failure Unit
  /-- The answer to a search, likewise. -/
  search : List Request → Except Failure Match
  /-- The lot that is drawn after so many. -/
  luck : Nat → (range : Nat) → Delay.Draw range
  /-- The time that a request takes which is no wait of the run, out of the requests so far, latest
  first, and the time at which it is made. -/
  lasts : List Request → Nat → Nat

/-- What others wish: before a run, and during each of its requests by number. Times are counted from
when the request was made. -/
structure Plan where
  before : List Wish
  during : Nat → List (Nat × List Wish)

theorem filter_ne_stop {ws : List Wish} (h : Wish.stop ∉ ws) : ws.filter (· != .stop) = ws := by
  refine List.filter_eq_self.mpr fun x hx => bne_iff_ne.mpr ?_
  rintro rfl
  exact h hx

/-- The wishes but for stops, at the same times. -/
def withoutStops (wishes : List (Nat × List Wish)) : List (Nat × List Wish) :=
  wishes.map fun e => (e.1, e.2.filter (· != .stop))

/-- **The same plan without a stop.** -/
def Plan.unstopped (plan : Plan) : Plan :=
  ⟨plan.before.filter (· != .stop), fun n => withoutStops (plan.during n)⟩

/-! ## 2. Waits -/

namespace Suspension

/-- A wait begun at `now` while wishes come at their times: those that came while it lasted, each with
the time at which it came, and when the wait was over, unless it goes on for good. -/
def endure (w : Suspension) (c : Control) (now : Nat) :
    List (Nat × List Wish) → List (Nat × List Wish) × Option Nat
  | [] => ([], (w.wake? c now).map (·.1))
  | (t, ws) :: rest =>
    -- a wish of the moment at which the wait would end comes before its end
    if (w.wake? c now).all (t ≤ ·.1) then
      let (came, ended) := w.endure (ws.foldl Control.wish c) (max now t) rest
      ((max now t, ws) :: came, ended)
    else ([], (w.wake? c now).map (·.1))

/-- A wait ends as it would if what is wished at its end had been wished all along. -/
theorem endure_ends (w : Suspension) (c : Control) (now : Nat) (wishes : List (Nat × List Wish)) :
    ∃ t, (w.endure c now wishes).2 =
      (w.wake? (((w.endure c now wishes).1.flatMap (·.2)).foldl Control.wish c) t).map (·.1) := by
  induction wishes generalizing c now with
  | nil => exact ⟨now, rfl⟩
  | cons e rest ih =>
      obtain ⟨t, ws⟩ := e
      simp only [endure]
      split
      · obtain ⟨last, ends⟩ := ih (ws.foldl Control.wish c) (max now t)
        exact ⟨last, by simpa only [List.flatMap_cons, List.foldl_append] using ends⟩
      · exact ⟨now, rfl⟩

/-- Whether a stop ends the wait. -/
def heeds : Suspension → Bool
  | settle _ => false
  | sleep _ | resume _ => true

theorem wake?_stopped {w : Suspension} (h : w.heeds = true) {c : Control} (hc : c.stopped = true)
    (now : Nat) : w.wake? c now = some (now, false) := by
  cases w with
  | settle due => cases h
  | sleep due => simp [wake?, hc]
  | resume since => simp [wake?, hc]

/-- A wait that heeds nothing ends when it is due, and wishes come from its beginning to its end. -/
theorem endure_settle {due now : Nat} (h : now ≤ due) (c : Control)
    (wishes : List (Nat × List Wish)) :
    ((settle due).endure c now wishes).2 = some due ∧
      ∀ e ∈ ((settle due).endure c now wishes).1, now ≤ e.1 ∧ e.1 ≤ due := by
  induction wishes generalizing c now with
  | nil => exact ⟨rfl, nofun⟩
  | cons e rest ih =>
      obtain ⟨t, ws⟩ := e
      by_cases ht : t ≤ due
      · obtain ⟨ended, times⟩ := ih (Nat.max_le.mpr ⟨h, ht⟩) (ws.foldl Control.wish c)
        simp only [endure, wake?, Option.all_some, ht, decide_true, if_true]
        refine ⟨ended, fun e he => ?_⟩
        rcases List.mem_cons.mp he with rfl | he
        · exact ⟨Nat.le_max_left _ _, Nat.max_le.mpr ⟨h, ht⟩⟩
        · exact ⟨Nat.le_trans (Nat.le_max_left _ _) (times e he).1, (times e he).2⟩
      · simp [endure, wake?, ht]

/-- Once a stop is wished, a wait that heeds it is over. -/
theorem endure_stopped {w : Suspension} (h : w.heeds = true) {c : Control} (hc : c.stopped = true)
    (now : Nat) (wishes : List (Nat × List Wish)) :
    (w.endure c now wishes).2 = some now ∧ ∀ e ∈ (w.endure c now wishes).1, e.1 = now := by
  induction wishes generalizing c with
  | nil => simp [endure, wake?_stopped h hc]
  | cons e rest ih =>
      obtain ⟨t, ws⟩ := e
      by_cases ht : t ≤ now
      · have still : (ws.foldl Control.wish c).stopped = true :=
          (Control.stopped_foldl_wish ws c).mpr (.inl hc)
        obtain ⟨ended, times⟩ := ih still
        simp only [endure, wake?_stopped h hc, Option.all_some, ht, decide_true, if_true,
          Nat.max_eq_left]
        refine ⟨ended, fun e he => ?_⟩
        rcases List.mem_cons.mp he with rfl | he
        · rfl
        · exact times e he
      · simp [endure, wake?_stopped h hc, ht]

/-- **A stop ends a wait that heeds it**, at the time at which it comes. -/
theorem endure_stop {w : Suspension} (h : w.heeds = true) (c : Control) (now : Nat)
    (wishes : List (Nat × List Wish)) {e : Nat × List Wish} (he : e ∈ (w.endure c now wishes).1)
    (stop : Wish.stop ∈ e.2) : (w.endure c now wishes).2 = some e.1 := by
  induction wishes generalizing c now with
  | nil => cases he
  | cons d rest ih =>
      obtain ⟨t, ws⟩ := d
      simp only [endure] at he ⊢
      split at he
      · next ht =>
        rw [if_pos ht]
        rcases List.mem_cons.mp he with rfl | he
        · have stopped : (ws.foldl Control.wish c).stopped = true :=
            (Control.stopped_foldl_wish ws c).mpr (.inr stop)
          exact (endure_stopped h stopped (max now t) rest).1
        · exact ih _ _ he
      · cases he

/-- Where no stop comes, it makes no difference whether one was planned. -/
theorem endure_unstopped {w : Suspension} (c : Control) (now : Nat) (wishes : List (Nat × List Wish))
    (h : ∀ e ∈ (w.endure c now wishes).1, Wish.stop ∉ e.2) :
    w.endure c now (withoutStops wishes) = w.endure c now wishes := by
  induction wishes generalizing c now with
  | nil => rfl
  | cons d rest ih =>
      obtain ⟨t, ws⟩ := d
      simp only [withoutStops, List.map_cons, endure] at h ih ⊢
      split at h
      · next ht =>
        have kept : ws.filter (· != .stop) = ws := filter_ne_stop (h _ List.mem_cons_self)
        rw [if_pos ht, if_pos ht, kept, ih _ _ fun e he => h e (List.mem_cons_of_mem _ he)]
      · next ht => rw [if_neg ht, if_neg ht]

end Suspension

/-! ## 3. Films -/

/-- The request that a cue is, if it is one. -/
def Cue.request? : Cue → Option Request
  | request q => some q
  | enter _ | round _ => none

/-- A cue as it was filmed: when it was given, the wishes that came meanwhile with their times, and
when it was over, unless it went on for good. -/
structure Shot where
  cue : Cue
  begun : Nat
  wishes : List (Nat × List Wish)
  ended : Option Nat

/-- Whether a stop came while it lasted. -/
def Shot.stops (u : Shot) : Bool := u.wishes.any fun e => e.2.contains .stop

/-- The call that a shot shows, if it shows one, with the time at which it was made. -/
def Shot.call? (u : Shot) : Option (Nat × Request) :=
  (u.cue.request?.filter Request.isCall).map fun q => (u.begun, q)

/-- How far a run has come, the latest shot first. -/
structure Film where
  now : Nat
  scene : Scene
  shots : List Shot

namespace Film

/-- The requests so far, latest first. -/
def asked (f : Film) : List Request := f.shots.filterMap fun u => u.cue.request?

/-- **The calls so far**, in order. -/
def calls (f : Film) : List Request := f.asked.reverse.filter Request.isCall

/-- **The calls so far, each with the time at which it was made**, in order. -/
def timetable (f : Film) : List (Nat × Request) := (f.shots.filterMap Shot.call?).reverse

/-- How a run waits for the answer to a request. -/
def wait (w : Surroundings) (f : Film) : Request → Suspension
  | .sleep ms => .sleep (f.now + ms)
  | .settle ms => .settle (f.now + ms)
  | .awaitResume => if f.scene.control.pausePending then .resume f.now else .settle f.now
  | q => .settle (f.now + w.lasts (q :: f.asked) f.now)

/-- What others wish from now on. -/
def wished (plan : Plan) (f : Film) : List (Nat × List Wish) :=
  (plan.during f.asked.length).map fun e => (f.now + e.1, e.2)

/-- The shot of a request. -/
def shot (w : Surroundings) (plan : Plan) (f : Film) (q : Request) : Shot :=
  let (came, ended) := (f.wait w q).endure f.scene.control f.now (f.wished plan)
  ⟨.request q, f.now, came, ended⟩

/-- The film with the shot of a request. -/
def take (w : Surroundings) (plan : Plan) (f : Film) (q : Request) : Film :=
  let u := f.shot w plan q
  ⟨u.ended.getD f.now, (f.scene.wishes (u.wishes.flatMap (·.2))).after q, u :: f.shots⟩

@[simp] theorem asked_take (w : Surroundings) (plan : Plan) (f : Film) (q : Request) :
    (f.take w plan q).asked = q :: f.asked := rfl

/-- A call goes into the timetable at the time at which it is made. -/
theorem timetable_take (w : Surroundings) (plan : Plan) (f : Film) (q : Request) :
    (f.take w plan q).timetable = f.timetable ++ if q.isCall then [(f.now, q)] else [] := by
  have shown : (f.shot w plan q).call? = if q.isCall then some (f.now, q) else none := by
    cases call : q.isCall <;> simp [Shot.call?, shot, Cue.request?, Option.filter, call]
  show ((f.shot w plan q :: f.shots).filterMap Shot.call?).reverse = _
  cases call : q.isCall <;> simp [timetable, shown, call]

/-- The film with a cue that takes no time. -/
def cut (f : Film) (c : Cue) : Film := { f with shots := ⟨c, f.now, [], some f.now⟩ :: f.shots }

/-- The answer to a request that was made in `f` and was over in `g`. -/
def answer (w : Surroundings) (f g : Film) : (q : Request) → q.Answer
  | .device _ => w.device g.calls
  | .search _ _ _ => w.search g.calls
  | .sleep _ => !g.scene.control.stopped
  | .stopped => g.scene.control.stopped
  | .pausePending => g.scene.control.pausePending
  | .awaitResume => f.scene.control.pausePending
  | .draw range => w.luck (f.asked.countP Request.isDraw) range
  | .clock => g.now
  | .read name => g.scene.context.scope.get? name
  | .settle _ | .write _ _ | .mark _ | .log _ | .tell _ => ()

/-- **The film of a program** from where a film has come, with its result unless it waits for good. -/
def play {α : Type} (w : Surroundings) (plan : Plan) : CueProg α → Film → Option α × Film
  | .done a, f => (some a, f)
  | .ask (.request q) next, f =>
    let g := f.take w plan q
    if (f.shot w plan q).ended.isSome then play w plan (next (f.answer w g q)) g else (none, g)
  | .ask (.enter place) next, f => play w plan (next ()) (f.cut (.enter place))
  | .ask (.round place) next, f => play w plan (next ()) (f.cut (.round place))

/-- A film that has not begun. -/
def blank (plan : Plan) (start : Nat) (context : Context) : Film :=
  ⟨start, Scene.wishes ⟨.fresh, context⟩ plan.before, []⟩

end Film

/-- **The film of a run** that begins at a time with a context. -/
def Task.film (w : Surroundings) (plan : Plan) (s : Settings) (start : Nat) (context : Context)
    (t : Task) : Film :=
  (Film.play w plan (t.cued s) (.blank plan start context)).2

end TaskReplay
