import TaskReplay.Control
import TaskReplay.Proofs.Conversation.Protocol
import TaskReplay.Run.Runner

/-!
# A run and those who control it

A run meets devices, a screen and observers, and while it waits for one of them others may wish that
it pauses, goes on or stops:

* `Wish`, `Scene` -- the three wishes; what is wished of a run together with what it owns;
* `Scene.waits` -- where others may act: inside calls, searches, news, waits that take time, and the
  wait for a pause to end;
* `Scene.Allows` -- devices, searches, chance and clock answer as they like; questions about the
  wishes are answered as these stand at that moment, and a sleep runs to its end exactly if no stop
  is wished when it ends;
* `Plays p s log a t` -- from `s` the program ends with `a` in `t`, and `log` lists each request with
  what was wished meanwhile and its answer; `PlaysOn` -- the same for a program on its way, which
  can always be played to an end (`exists_plays`);
* `Plays.stopped_iff` -- a stop is for good: it is wished at the end iff it was at any time.
-/

namespace TaskReplay

/-! ## 1. Wishes -/

/-- What others may wish of a run. -/
inductive Wish where
  | pause
  | resume
  | stop
  deriving DecidableEq, Repr

/-- What is wished of a run after one more wish. -/
def Control.wish (c : Control) : Wish → Control
  | .pause => c.pause.1
  | .resume => c.resume.1
  | .stop => c.stop

@[simp] theorem Control.stopped_pause (c : Control) : c.pause.1.stopped = c.stopped := by
  unfold Control.pause
  split <;> rfl

@[simp] theorem Control.stopped_resume (c : Control) : c.resume.1.stopped = c.stopped := rfl

/-- Only a stop makes a run stopped, and nothing undoes it. -/
theorem Control.stopped_foldl_wish (ws : List Wish) (c : Control) :
    (ws.foldl Control.wish c).stopped = true ↔ c.stopped = true ∨ Wish.stop ∈ ws := by
  induction ws generalizing c with
  | nil => simp
  | cons w ws ih =>
      rw [List.foldl_cons, ih]
      cases w <;> simp [Control.wish]

/-! ## 2. Scenes -/

/-- What is wished of a run, and what the run owns. -/
structure Scene where
  control : Control
  context : Context

namespace Scene

/-- The scene after wishes. -/
def wishes (s : Scene) (ws : List Wish) : Scene :=
  { s with control := ws.foldl Control.wish s.control }

theorem stopped_wishes (s : Scene) (ws : List Wish) :
    (s.wishes ws).control.stopped = true ↔ s.control.stopped = true ∨ Wish.stop ∈ ws :=
  Control.stopped_foldl_wish ws s.control

/-- Whether others may act while a request is open. -/
def waits (s : Scene) : Request → Bool
  | .device _ | .search _ _ _ | .tell _ => true
  | .settle ms | .sleep ms => ms != 0
  | .awaitResume => s.control.pausePending
  | _ => false

/-- The answers that a scene allows. -/
def Allows (s : Scene) : (q : Request) → q.Answer → Prop
  | .sleep _, full => full = !s.control.stopped
  | .stopped, x => x = s.control.stopped
  | .pausePending, x => x = s.control.pausePending
  | .awaitResume, _ => s.control.pausePending = false
  | .read name, x => x = s.context.scope.get? name
  | _, _ => True

/-- The scene after a request. -/
def after (s : Scene) : Request → Scene
  | .write name value =>
    { s with context := { s.context with scope := s.context.scope.set name value } }
  | .mark m => { s with context := s.context.note m }
  | _ => s

@[simp] theorem control_after (s : Scene) (q : Request) : (s.after q).control = s.control := by
  cases q <;> rfl

end Scene

/-! ## 3. Plays -/

/-- A request, what was wished while it was open, and its answer. -/
structure Turn where
  request : Request
  wishes : List Wish
  answer : request.Answer

/-- **The program ends with a result**, and the log tells how. -/
inductive Plays {α : Type} : RunProg α → Scene → List Turn → α → Scene → Prop where
  | done (a : α) (s : Scene) : Plays (.done a) s [] a s
  | turn {q : Request} {next : q.Answer → RunProg α} {s t : Scene} {log : List Turn} {a : α}
      (ws : List Wish) (x : q.Answer) (others : s.waits q = true ∨ ws = [])
      (allowed : (s.wishes ws).Allows q x)
      (rest : Plays (next x) ((s.wishes ws).after q) log a t) :
      Plays (.ask q next) s (⟨q, ws, x⟩ :: log) a t

/-- **How far a program comes**: what is left of it, and the log so far. -/
inductive PlaysOn {α : Type} : RunProg α → Scene → List Turn → RunProg α → Scene → Prop where
  | here (p : RunProg α) (s : Scene) : PlaysOn p s [] p s
  | turn {q : Request} {next : q.Answer → RunProg α} {s t : Scene} {log : List Turn} {p : RunProg α}
      (ws : List Wish) (x : q.Answer) (others : s.waits q = true ∨ ws = [])
      (allowed : (s.wishes ws).Allows q x)
      (rest : PlaysOn (next x) ((s.wishes ws).after q) log p t) :
      PlaysOn (.ask q next) s (⟨q, ws, x⟩ :: log) p t

/-- A stop was wished before a run began or while it waited. -/
def StopWished (s : Scene) (log : List Turn) : Prop :=
  s.control.stopped = true ∨ ∃ u ∈ log, Wish.stop ∈ u.wishes

section Plays

variable {α β : Type} {p : RunProg α} {s t : Scene} {log : List Turn} {a : α}

theorem plays_done {b : α} (h : Plays (.done a) s log b t) : log = [] ∧ b = a ∧ t = s := by
  cases h with
  | done => exact ⟨rfl, rfl, rfl⟩

theorem plays_ask {q : Request} {next : q.Answer → RunProg α} (h : Plays (.ask q next) s log a t) :
    ∃ ws x rest, (s.waits q = true ∨ ws = []) ∧ (s.wishes ws).Allows q x ∧
      log = ⟨q, ws, x⟩ :: rest ∧ Plays (next x) ((s.wishes ws).after q) rest a t := by
  cases h with
  | turn ws x others allowed rest => exact ⟨ws, x, _, others, allowed, rfl, rest⟩

/-- A request at which nobody else can act. -/
theorem plays_at_once {q : Request} {next : q.Answer → RunProg α} (hq : s.waits q = false)
    (h : Plays (.ask q next) s log a t) :
    ∃ x rest, s.Allows q x ∧ log = ⟨q, [], x⟩ :: rest ∧ Plays (next x) (s.after q) rest a t := by
  obtain ⟨ws, x, rest, hws, hx, hlog, hr⟩ := plays_ask h
  obtain rfl : ws = [] := hws.resolve_left (by simp [hq])
  exact ⟨x, rest, hx, hlog, hr⟩

/-- **One program after another** plays as the first and then, from where it ended, the second. -/
theorem plays_bind {f : α → RunProg β} {b : β} (h : Plays (p.bind f) s log b t) :
    ∃ log₁ log₂ a u, log = log₁ ++ log₂ ∧ Plays p s log₁ a u ∧ Plays (f a) u log₂ b t := by
  induction p generalizing s log with
  | done a => exact ⟨[], log, a, s, rfl, .done a s, h⟩
  | ask q next ih =>
      rw [Prog.ask_bind] at h
      obtain ⟨ws, x, rest, hws, hx, rfl, hr⟩ := plays_ask h
      obtain ⟨log₁, log₂, a, u, rfl, h₁, h₂⟩ := ih x hr
      exact ⟨_ :: log₁, log₂, a, u, rfl, .turn ws x hws hx h₁, h₂⟩

/-- From where a program has come it plays on. -/
theorem PlaysOn.plays {q : RunProg α} {u : Scene} {log' : List Turn} (h : PlaysOn p s log q u)
    (h' : Plays q u log' a t) : Plays p s (log ++ log') a t := by
  induction h with
  | here p s => exact h'
  | turn ws x others allowed _ ih => exact .turn ws x others allowed (ih h')

/-- A play has come to its end. -/
theorem Plays.playsOn (h : Plays p s log a t) : PlaysOn p s log (.done a) t := by
  induction h with
  | done a s => exact .here _ s
  | turn ws x others allowed _ ih => exact .turn ws x others allowed ih

/-- A scene can answer every request, if need be once a stop is wished. -/
theorem Scene.exists_answer (s : Scene) (q : Request) :
    ∃ ws x, (s.waits q = true ∨ ws = []) ∧ (s.wishes ws).Allows q x := by
  cases q with
  | device call => exact ⟨[], .ok (), .inr rfl, trivial⟩
  | search template confidence area => exact ⟨[], .ok ⟨false, none, none, none⟩, .inr rfl, trivial⟩
  | sleep ms => exact ⟨[], _, .inr rfl, rfl⟩
  | stopped => exact ⟨[], _, .inr rfl, rfl⟩
  | pausePending => exact ⟨[], _, .inr rfl, rfl⟩
  | awaitResume =>
      -- only a pause keeps a run from going on, and a stop ends it
      cases hp : s.control.pausePending with
      | true => exact ⟨[.stop], true, .inl hp, rfl⟩
      | false => exact ⟨[], false, .inr rfl, hp⟩
  | draw range => exact ⟨[], .nearest range 0, .inr rfl, trivial⟩
  | clock => exact ⟨[], 0, .inr rfl, trivial⟩
  | read name => exact ⟨[], _, .inr rfl, rfl⟩
  | _ => exact ⟨[], (), .inr rfl, trivial⟩

/-- **Every program can be played to an end.** -/
theorem exists_plays (p : RunProg α) (s : Scene) : ∃ log a t, Plays p s log a t := by
  induction p generalizing s with
  | done a => exact ⟨[], a, s, .done a s⟩
  | ask q next ih =>
      obtain ⟨ws, x, others, allowed⟩ := s.exists_answer q
      obtain ⟨log, a, t, rest⟩ := ih x ((s.wishes ws).after q)
      exact ⟨_, a, t, .turn ws x others allowed rest⟩

/-- The requests of a play are requests of the program. -/
theorem Plays.asks {P : Request → Prop} (hp : p.Asks P) (h : Plays p s log a t) :
    ∀ u ∈ log, P u.request := by
  induction h with
  | done a s => exact fun u hu => nomatch hu
  | turn ws x others allowed _ ih =>
      intro u hu
      rcases List.mem_cons.mp hu with rfl | hu
      · exact hp.1
      · exact ih (hp.2 x) u hu

/-- **A stop is for good**: it is wished at the end iff it was before the run or at any time in it. -/
theorem Plays.stopped_iff (h : Plays p s log a t) :
    t.control.stopped = true ↔ StopWished s log := by
  induction h with
  | done a s => simp [StopWished]
  | turn ws x others allowed _ ih =>
      rw [ih]
      simp [StopWished, Scene.stopped_wishes, or_assoc]

theorem stopWished_append {l l' : List Turn} :
    StopWished s (l ++ l') ↔ StopWished s l ∨ ∃ u ∈ l', Wish.stop ∈ u.wishes := by
  simp only [StopWished, List.mem_append, or_and_right, exists_or, or_assoc]

end Plays
end TaskReplay
