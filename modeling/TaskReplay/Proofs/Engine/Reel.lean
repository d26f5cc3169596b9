import TaskReplay.Proofs.Engine.Broadcast
import TaskReplay.Proofs.Run.Film

/-!
# Starts on film

A system of calls may go in many ways. On film a start goes in one, so that two starts can be compared
that differ in what others made of them:

* `Circumstances` -- devices, screen, lots and clock, what the start finds in the stores, and the time
  that things take; `Accidents` -- what comes of publishing and saving, what is found in the stores
  later, and how long the record of the run takes;
* `Intervention` -- a call that others make on the engine meanwhile, each at its time;
* `Reel` -- how far a start has come: engine and context, what the run has asked and which states the
  engine went through, each with its time, and the interventions still to come;
* `Reel.wait` -- a wait, with the interventions that come before it is over;
* `Reel.play`, `film` -- the film of a program and of a start;
* `film_reached` -- **every film is a course of the system of calls**.
-/

namespace TaskReplay.Engine

open Machine (Reaches anyone)

/-! ## 1. What a start meets -/

/-- A call that others make while a start is under way. -/
inductive Intervention where
  | pause
  | resume
  | stop
  | emergencyStop
  deriving DecidableEq

/-- The call that it is. -/
def Intervention.call : Intervention → Call
  | pause => .pause
  | resume => .resume
  | stop => .stop
  | emergencyStop => .emergencyStop

/-- What a start meets, whatever accidents there are. -/
structure Circumstances extends Surroundings where
  /-- What the start finds in the stores before it holds the engine. -/
  task : TaskId → Except Failure (Option Task)
  settings : Except Failure Settings
  /-- The date at a time. -/
  date : Nat → Timestamp
  /-- The time that a question takes which is neither of the run nor of its record, out of when it is
  asked. -/
  takes : EngineRequest → Nat → Nat

/-- What observers and stores make of a start. -/
structure Accidents where
  /-- How an event is published, out of the events so far, latest first; the event itself is the
  first. -/
  publish : List Event → Except Failure Unit
  /-- What is found in the stores once the start holds the engine: what others have written by then,
  if it can be read. -/
  task : TaskId → Except Failure (Option Task)
  settings : Except Failure Settings
  /-- How a task is saved. -/
  save : Task → Except Failure Unit
  /-- The time that the start takes, once it holds the engine, to look its task up, and to save it. -/
  loads : Nat → Nat
  saves : Nat → Nat

/-! ## 2. Reels -/

/-- How far a start has come; lists are latest first, but for what is still to come. -/
structure Reel where
  now : Nat
  engine : Engine
  context : Context
  /-- What the run has asked, and when. -/
  asked : List (Nat × Request)
  /-- What the engine has told its observers. -/
  told : List Event
  /-- The states that the engine took, and when. -/
  states : List (Nat × EngineState)
  /-- When the engine was given back. -/
  freed : Option Nat
  due : List (Nat × Intervention)

namespace Reel

/-- The requests so far, latest first. -/
def requests (f : Reel) : List Request := f.asked.map (·.2)

/-- **The calls on devices and screen**, in order, each with the time at which it was made. -/
def calls (f : Reel) : List (Nat × Request) := f.asked.reverse.filter fun e => e.2.isCall

/-- When the engine was given back, once a move is made. -/
def freedBy (f : Reel) : Transition → Option Nat
  | .finish _ => some f.now
  | _ => f.freed

/-- The reel after an answer to what was asked at time `since`. -/
def after (f : Reel) (since : Nat) : EngineRequest → Reel
  | .transition t =>
    match f.engine.apply t with
    | some e =>
      { f with engine := e, states := (f.now, e.state) :: f.states, freed := f.freedBy t }
    | none => f
  | .publish event => { f with told := event :: f.told }
  | .run k q =>
    { f with
      asked := (since, q) :: f.asked
      context := (Scene.after ⟨f.engine.control k, f.context⟩ q).context }
  | _ => f

/-- The answer to a request of run `k` that was made in `f` and is answered in `g`. -/
def reply (w : Circumstances) (k : Nat) (f g : Reel) : (q : Request) → q.Answer
  | .device call => w.device ((Request.device call :: g.requests).reverse.filter Request.isCall)
  | .search template confidence area =>
    w.search ((Request.search template confidence area :: g.requests).reverse.filter Request.isCall)
  | .sleep _ => !(g.engine.control k).stopped
  | .stopped => (g.engine.control k).stopped
  | .pausePending => (g.engine.control k).pausePending
  | .awaitResume => (f.engine.control k).pausePending
  | .draw range => w.luck (g.requests.countP Request.isDraw) range
  | .clock => g.now
  | .read name => g.context.scope.get? name
  | .settle _ | .write _ _ | .mark _ | .log _ | .tell _ => ()

/-- The answer to what call `n` or somebody else asked in `f`, answered in `g`. -/
def answer (w : Circumstances) (a : Accidents) (n : Nat) (f g : Reel) : (q : EngineRequest) → q.Answer
  | .busy => g.engine.busy
  | .loadTask id => if g.engine.current = some n then a.task id else w.task id
  | .loadSettings => if g.engine.current = some n then a.settings else w.settings
  | .saveTask task => a.save task
  | .now => w.date g.now
  | .transition t => (g.engine.apply t).map (·.state)
  | .publish event => a.publish (event :: g.told)
  | .log _ => ()
  | .run k q => f.reply w k g q

/-- An answer at once. -/
def serve (w : Circumstances) (a : Accidents) (n : Nat) (f : Reel) (q : EngineRequest) :
    q.Answer × Reel :=
  (f.answer w a n f q, f.after f.now q)

/-- Others make a call. What it asks is answered at once. -/
def perform (w : Circumstances) (a : Accidents) (n : Nat) (f : Reel) (i : Intervention) : Reel :=
  ((i.call.program 0).run (serve w a n) f).2

/-- The end of a wait of run `k` if nothing more happens, and whether it comes. -/
def settled (s : Suspension) (k : Nat) (f : Reel) : Bool × Reel :=
  match s.wake? (f.engine.control k) f.now with
  | some (t, _) => (true, { f with now := t })
  | none => (false, f)

/-- A wait of run `k` while interventions come at their times, and whether it ends. One of the very
moment at which the wait would end comes before its end. -/
def pass (w : Circumstances) (a : Accidents) (n : Nat) (s : Suspension) (k : Nat) :
    List (Nat × Intervention) → Reel → Bool × Reel
  | [], f => f.settled s k
  | (t, i) :: rest, f =>
    if (s.wake? (f.engine.control k) f.now).all (t ≤ ·.1) then
      pass w a n s k rest (perform w a n { f with now := max f.now t, due := rest } i)
    else f.settled s k

/-- **A wait** of run `k`, and whether it ends. -/
def wait (w : Circumstances) (a : Accidents) (n : Nat) (s : Suspension) (k : Nat) (f : Reel) :
    Bool × Reel :=
  pass w a n s k f.due f

/-- The time that a question takes. -/
def lasts (w : Circumstances) (a : Accidents) (n : Nat) (f : Reel) : EngineRequest → Nat
  | .loadTask id => if f.engine.current = some n then a.loads f.now else w.takes (.loadTask id) f.now
  | .saveTask _ => a.saves f.now
  | .run _ q => w.lasts (q :: f.requests) f.now
  | q => w.takes q f.now

/-- **The wait for an answer**, and whether it comes. The log and the clock answer at once, and so
does a run that waits for no pause. -/
def hold (w : Circumstances) (a : Accidents) (n : Nat) (f : Reel) : EngineRequest → Bool × Reel
  | .log _ | .now => (true, f)
  | .run k (.sleep ms) => f.wait w a n (.sleep (f.now + ms)) k
  | .run k (.settle ms) => f.wait w a n (.settle (f.now + ms)) k
  | .run k .awaitResume =>
    if (f.engine.control k).pausePending then f.wait w a n (.resume f.now) k else (true, f)
  | q => f.wait w a n (.settle (f.now + f.lasts w a n q)) n

/-- **The film of a program** of call `n`, with its result unless it waits for good. -/
def play {α : Type} (w : Circumstances) (a : Accidents) (n : Nat) (f : Reel) :
    EngineProg α → Option α × Reel
  | .done r => (some r, f)
  | .ask q next =>
    match f.hold w a n q with
    | (true, g) => (g.after f.now q).play w a n (next (f.answer w a n g q))
    | (false, g) => (none, g)

/-- The interventions that are still to come, each at its time. -/
def close (w : Circumstances) (a : Accidents) (n : Nat) (f : Reel) : Reel :=
  f.due.foldl (fun g e => perform w a n { g with now := max g.now e.1 } e.2) { f with due := [] }

end Reel

/-- A reel on which nothing has happened. -/
def Reel.blank (e : Engine) (plan : List (Nat × Intervention)) : Reel :=
  ⟨0, e, .fresh, [], [], [], none, plan⟩

/-- **The film of a start** of a task as call `n` on an engine, at a time, while others intervene as a
plan says: what it returns, unless it waits for good, and the whole course. -/
def film (w : Circumstances) (plan : List (Nat × Intervention)) (a : Accidents) (e : Engine)
    (begun n : Nat) (id : TaskId) : Option Reply × Reel :=
  let before := ((Reel.blank e plan).wait w a n (.settle begun) n).2
  let (reply, f) := before.play w a n (Call.program n (.start id))
  (reply, f.close w a n)

/-! ## 3. Films are courses of the system -/

/-- What a run has asked with a line. -/
def request? : Line → Option Request
  | .answered _ (.run _ q) _ => some q
  | _ => none

/-- What runs have asked, latest first. -/
def requested (log : List Line) : List Request := log.filterMap request?

/-- Whether the engine was given back with a line. -/
def givesBack : Line → Bool
  | .answered _ (.transition (.finish _)) _ => true
  | _ => false

/-- **A system that calls reach**, and at which a reel has arrived. -/
structure Filmed (e : Engine) (f : Reel) (m : System) : Prop where
  reached : Reaches service anyone (Machine.initial e) m
  engine : m.state = f.engine
  states : made m.log = f.states.map (·.2)
  freed : m.log.any givesBack = f.freed.isSome
  requests : requested m.log = f.requests

section Filmed

variable {w : Circumstances} {a : Accidents} {e : Engine} {f g : Reel} {m : System} {n k : Nat} {c : Call}
  {q : EngineRequest}

theorem engine_after (f : Reel) (since : Nat) (q : EngineRequest) :
    (f.after since q).engine = f.engine.after q := by
  cases q with
  | transition t =>
      simp only [Reel.after, Engine.after]
      cases f.engine.apply t <;> rfl
  | _ => rfl

/-- What a reel answers, its engine allows; a run that waits for a pause to end waits until then. -/
theorem allows_answer (h : ∀ k, q = .run k .awaitResume → (g.engine.control k).pausePending = false) :
    Allows g.engine q (f.answer w a n g q) := by
  cases q with
  | run k q =>
      cases q with
      | awaitResume => exact h k rfl
      | sleep ms => rfl
      | stopped => rfl
      | pausePending => rfl
      | _ => trivial
  | busy => rfl
  | transition t => rfl
  | _ => trivial

/-- An answer that the engine allows leads on. -/
theorem Filmed.reply (h : Filmed e f m) {next : q.Answer → EngineProg Reply} {x : q.Answer}
    (asks : m.calls k = some ⟨c, .ask q next⟩) (allowed : Allows f.engine q x) (since : Nat) :
    Filmed e (f.after since q) (m.reply service k c q x (next x)) where
  reached := h.reached.step trivial (.answer x asks (h.engine ▸ allowed))
  engine := by
    rw [engine_after, ← h.engine]
    rfl
  states := by
    show made (.answered k q x :: m.log) = _
    rw [made_cons, h.states]
    cases q with
    | transition t =>
        have : x = (f.engine.apply t).map (·.state) := allowed
        subst this
        simp only [Reel.after]
        cases f.engine.apply t <;> rfl
    | _ => rfl
  freed := by
    show (givesBack (.answered k q x) || m.log.any givesBack) = _
    rw [h.freed]
    cases q with
    | transition t =>
        simp only [Reel.after]
        cases t with
        | finish error => rfl
        | _ => split <;> rfl
    | _ => rfl
  requests := by
    show requested (.answered k q x :: m.log) = _
    cases q with
    | run j q => exact congrArg (q :: ·) h.requests
    | transition t =>
        simp only [Reel.after]
        cases f.engine.apply t <;> exact h.requests
    | _ => exact h.requests

/-- Time passes without a step. -/
theorem Filmed.later (h : Filmed e f m) (now : Nat) (due : List (Nat × Intervention)) :
    Filmed e { f with now, due } m := ⟨h.reached, h.engine, h.states, h.freed, h.requests⟩

/-- What is answered at once is a call by itself. -/
theorem Filmed.run (h : Filmed e f m) {p : EngineProg Reply}
    (hp : p.Asks fun q => ∀ k, q ≠ .run k .awaitResume) (calls : m.calls k = some ⟨c, p⟩) :
    ∃ m', Filmed e (p.run (Reel.serve w a n) f).2 m' ∧ Machine.OthersStay k m m' := by
  induction p generalizing f m with
  | done r => exact ⟨m, h, fun _ _ => rfl⟩
  | ask q next ih =>
      have allowed : Allows f.engine q (f.answer w a n f q) :=
        allows_answer fun k awaits => absurd awaits (hp.1 k)
      have on := h.reply calls allowed f.now
      obtain ⟨m', filmed, stay⟩ := ih _ on (hp.2 _) (Function.update_self ..)
      refine ⟨m', filmed, fun j hj => (stay j hj).trans ?_⟩
      exact Function.update_of_ne hj _ _

theorem asks_call (i : Intervention) (k : Nat) :
    (i.call.program k).Asks fun q => ∀ k, q ≠ .run k .awaitResume := by
  have plain {t : Transition} (q : EngineRequest) (h : q.tells = true ∨ q = .transition t) (k : Nat) :
      q ≠ .run k .awaitResume := by
    rintro rfl
    rcases h with h | h <;> cases h
  cases i with
  | emergencyStop => exact (emergencyStop_asks.mono plain).bind fun _ => trivial
  | _ => exact ((move_asks _).mono plain).bind fun _ => trivial

/-- **What others do is a call of its own**, under a number that is none of `n`. -/
theorem Filmed.perform (h : Filmed e f m) (i : Intervention) :
    ∃ m', Filmed e (f.perform w a n i) m' ∧ m'.calls n = m.calls n := by
  obtain ⟨N, free⟩ := Machine.exists_free h.reached
  have unused : m.calls (max N (n + 1)) = none := free _ (Nat.le_max_left ..)
  have other : n ≠ max N (n + 1) := by omega
  have call : m.Step service (max N (n + 1)) (m.begin service (max N (n + 1)) i.call) := .call _ unused
  have begun : Filmed e f (m.begin service (max N (n + 1)) i.call) :=
    ⟨h.reached.step trivial call, h.engine, h.states, h.freed, h.requests⟩
  obtain ⟨m', filmed, stay⟩ := begun.run (w := w) (a := a) (n := n) (asks_call i _)
    (Function.update_self ..)
  have same : i.call.program (max N (n + 1)) = i.call.program 0 := by cases i <;> rfl
  refine ⟨m', ?_, (stay n other).trans (call.calls_of_ne other)⟩
  rw [same] at filmed
  exact filmed

/-- **A wait is a row of calls by others.** One for a pause to end goes on until then. -/
theorem Filmed.wait (h : Filmed e f m) (s : Suspension) (k : Nat) :
    ∃ m', Filmed e (f.wait w a n s k).2 m' ∧ m'.calls n = m.calls n := by
  have ended {f : Reel} {m : System} (h : Filmed e f m) : Filmed e (f.settled s k).2 m := by
    unfold Reel.settled
    split
    · exact h.later _ _
    · exact h
  unfold Reel.wait
  generalize f.due = due
  induction due generalizing f m with
  | nil => exact ⟨m, ended h, rfl⟩
  | cons d rest ih =>
      rw [Reel.pass]
      split
      · obtain ⟨m₁, filmed, same⟩ :=
          (h.later (max f.now d.1) rest).perform (w := w) (a := a) (n := n) d.2
        obtain ⟨m', filmed', same'⟩ := ih filmed
        exact ⟨m', filmed', same'.trans same⟩
      · exact ⟨m, ended h, rfl⟩

theorem Filmed.hold (h : Filmed e f m) (q : EngineRequest) :
    ∃ m', Filmed e (f.hold w a n q).2 m' ∧ m'.calls n = m.calls n := by
  cases q with
  | run k q =>
      cases q with
      | awaitResume =>
          simp only [Reel.hold]
          split
          · exact h.wait _ _
          · exact ⟨m, h, rfl⟩
      | _ => exact h.wait _ _
  | log notice => exact ⟨m, h, rfl⟩
  | now => exact ⟨m, h, rfl⟩
  | _ => exact h.wait _ _

/-- When a wait for a pause to end is over, none is pending. -/
theorem unpaused_of_hold (ends : f.hold w a n (.run k .awaitResume) = (true, g)) :
    (g.engine.control k).pausePending = false := by
  have settled {f : Reel} {since : Nat} (h : f.settled (.resume since) k = (true, g)) :
      (g.engine.control k).pausePending = false := by
    unfold Reel.settled at h
    split at h
    · next woken =>
      cases h
      show (f.engine.control k).pausePending = false
      simp only [Suspension.wake?] at woken
      split at woken
      · next stopped => simp [Control.pausePending, stopped]
      · split at woken
        · cases woken
        · next unpaused => simp [Control.pausePending, unpaused]
    · cases h
  have passed (since : Nat) (due : List (Nat × Intervention)) (f : Reel)
      (h : Reel.pass w a n (.resume since) k due f = (true, g)) :
      (g.engine.control k).pausePending = false := by
    induction due generalizing f with
    | nil => exact settled h
    | cons d rest ih =>
        rw [Reel.pass] at h
        split at h
        · exact ih _ h
        · exact settled h
  simp only [Reel.hold] at ends
  split at ends
  · exact passed _ _ _ ends
  · next free =>
    cases ends
    simpa using free

/-- **The film of a program is its course** while others make calls of their own. -/
theorem Filmed.play (h : Filmed e f m) {p : EngineProg Reply} (calls : m.calls n = some ⟨c, p⟩) :
    ∃ m', Filmed e (f.play w a n p).2 m' ∧
      ∀ r, (f.play w a n p).1 = some r → m'.calls n = some ⟨c, .done r⟩ := by
  induction p generalizing f m with
  | done r =>
      refine ⟨m, h, fun r' same => ?_⟩
      cases same
      exact calls
  | ask q next ih =>
      obtain ⟨m₁, held, same⟩ := h.hold (w := w) (a := a) (n := n) q
      simp only [Reel.play]
      rcases ends : f.hold w a n q with ⟨_ | _, g⟩
      · rw [ends] at held
        exact ⟨m₁, held, nofun⟩
      · rw [ends] at held
        have allowed : Allows g.engine q (f.answer w a n g q) := by
          refine allows_answer fun k awaits => ?_
          subst awaits
          exact unpaused_of_hold ends
        exact ih _ (held.reply (same.trans calls) allowed f.now) (Function.update_self ..)

theorem Filmed.close (h : Filmed e f m) :
    ∃ m', Filmed e (f.close w a n) m' ∧ m'.calls n = m.calls n := by
  have performed (due : List (Nat × Intervention)) {f : Reel} {m : System} (h : Filmed e f m) :
      ∃ m', Filmed e (due.foldl
        (fun g d => Reel.perform w a n { g with now := max g.now d.1 } d.2) f) m' ∧
        m'.calls n = m.calls n := by
    induction due generalizing f m with
    | nil => exact ⟨m, h, rfl⟩
    | cons d rest ih =>
        obtain ⟨m₁, filmed, same⟩ :=
          (h.later (max f.now d.1) f.due).perform (w := w) (a := a) (n := n) d.2
        obtain ⟨m', filmed', same'⟩ := ih filmed
        exact ⟨m', filmed', same'.trans same⟩
  exact performed f.due (h.later f.now [])

end Filmed

/-- **Every film is a course of the system of calls**: the start and what others do are calls on the
engine, which goes through the states of the film and is given back if the film says so, and the
run's questions come in the order of the film. -/
theorem film_reached (w : Circumstances) (plan : List (Nat × Intervention)) (a : Accidents) (e : Engine)
    (begun n : Nat) (id : TaskId) :
    ∃ m, Filmed e (film w plan a e begun n id).2 m ∧
      ∀ r, (film w plan a e begun n id).1 = some r → m.calls n = some ⟨.start id, .done r⟩ := by
  have blank : Filmed e (.blank e plan) (Machine.initial e) := ⟨.here, rfl, rfl, rfl, rfl⟩
  obtain ⟨m₁, before, same⟩ := blank.wait (w := w) (a := a) (n := n) (.settle begun) n
  have call : m₁.Step service n (m₁.begin service n (.start id)) := .call _ same
  have begun' : Filmed e _ (m₁.begin service n (.start id)) :=
    ⟨before.reached.step trivial call, before.engine, before.states, before.freed, before.requests⟩
  obtain ⟨m₂, played, ends⟩ := begun'.play (w := w) (a := a) (c := .start id) (Function.update_self ..)
  obtain ⟨m, closed, same₂⟩ := played.close (w := w) (a := a) (n := n)
  exact ⟨m, closed, fun r h => same₂.trans (ends r h)⟩

end TaskReplay.Engine
