import TaskReplay.Control
import TaskReplay.Prog

/-!
Programs in virtual time.

What this file fixes:
* a `World` answers a question at once or after a wait, and says when a wait ends as things stand;
* `World.advance` takes a program to a time: it goes through every wait that ends by then;
* time moves only while a program waits, and then jumps.
-/

namespace TaskReplay.Rehearsal

/-! ## 1. Worlds -/

/-- An answer: at once, or when a wait is over. The answer after a wait may depend on whether the
wait ran to its end. -/
inductive Reply (α σ : Type) where
  | answered (answer : α) (state : σ)
  | waiting (wait : Suspension) (answer : Bool → α) (state : σ)

/-- A world that answers questions. -/
structure World (Q : Type) (A : Q → Type) (σ : Type) where
  answer : (q : Q) → σ → Reply (A q) σ
  /-- When a wait ends if nothing else happens, and whether by itself. -/
  wake? : Suspension → σ → Option (Nat × Bool)
  /-- The world at a later time. -/
  moveTo : Nat → σ → σ

/-- A program that waits. -/
structure Suspended (Q : Type) (A : Q → Type) (α : Type) where
  wait : Suspension
  next : Bool → Prog Q A α

/-- How far a program came. -/
inductive Course (Q : Type) (A : Q → Type) (α σ : Type) where
  | finished (result : α) (state : σ)
  | suspended (program : Suspended Q A α) (state : σ)

namespace World

variable {Q : Type} {A : Q → Type} {α σ : Type}

/-! ## 2. Going on -/

/-- Takes a program up to the time `target`, that time included. -/
def advance (w : World Q A σ) (target : Nat) : Prog Q A α → σ → Course Q A α σ
  | .done a, s => .finished a s
  | .ask q next, s =>
    match w.answer q s with
    | .answered x s => w.advance target (next x) s
    | .waiting wait answer s =>
      match w.wake? wait s with
      | some (t, full) =>
        if t ≤ target then w.advance target (next (answer full)) (w.moveTo t s)
        else .suspended ⟨wait, fun full => next (answer full)⟩ s
      | none => .suspended ⟨wait, fun full => next (answer full)⟩ s

/-- Takes a waiting program up to the time `target`. -/
def resume (w : World Q A σ) (target : Nat) (p : Suspended Q A α) (s : σ) : Course Q A α σ :=
  match w.wake? p.wait s with
  | some (t, full) =>
    if t ≤ target then w.advance target (p.next full) (w.moveTo t s) else .suspended p s
  | none => .suspended p s

/-! ## 3. Under a schedule -/

/-- Puts events of one time together, given in the order of time. -/
def gather : List (Nat × ε) → List (Nat × List ε)
  | [] => []
  | (t, e) :: rest =>
    match gather rest with
    | (u, es) :: more => if t = u then (t, e :: es) :: more else (t, [e]) :: (u, es) :: more
    | [] => [(t, [e])]

/-- Events in the order of time, those of one time together and in their own order. -/
def schedule (events : List (Nat × ε)) : List (Nat × List ε) :=
  gather (events.mergeSort fun a b => a.1 ≤ b.1)

/-- The end of a program under a schedule: its result, unless it was given up, the part of the
schedule that was not reached, and the world. -/
structure End (ε α σ : Type) where
  result : Option α
  rest : List (Nat × ε)
  state : σ

/-- Takes a program through scheduled events, each at its time, and gives it up at `limit`. -/
def conduct (w : World Q A σ) (limit : Nat) (happen : ε → σ → σ) :
    List (Nat × ε) → Course Q A α σ → End ε α σ
  | rest, .finished a s => ⟨some a, rest, s⟩
  | [], .suspended p s =>
    match w.resume limit p s with
    | .finished a s => ⟨some a, [], s⟩
    | .suspended _ s => ⟨none, [], w.moveTo limit s⟩
  | (time, event) :: rest, .suspended p s =>
    if time < limit then
      match w.resume time p s with
      | .finished a s => ⟨some a, (time, event) :: rest, s⟩
      | .suspended p s =>
        let s := happen event (w.moveTo time s)
        w.conduct limit happen rest (w.resume time p s)
    else
      match w.resume limit p s with
      | .finished a s => ⟨some a, (time, event) :: rest, s⟩
      | .suspended _ s => ⟨none, (time, event) :: rest, w.moveTo limit s⟩

/-- The time before the first event, or the limit. -/
def firstStop (limit : Nat) : List (Nat × ε) → Nat
  | (time, _) :: _ => min time limit
  | [] => limit

/-- A program from its beginning under a schedule. -/
def play (w : World Q A σ) (limit : Nat) (happen : ε → σ → σ) (schedule : List (Nat × ε))
    (p : Prog Q A α) (s : σ) : End ε α σ :=
  w.conduct limit happen schedule (w.advance (firstStop limit schedule) p s)

end World
end TaskReplay.Rehearsal
