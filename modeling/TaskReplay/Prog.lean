/-!
Programs that ask and go on with the answer.

What this file fixes:
* a `Prog` is finished or asks one question and has a continuation for every answer, so it is a tree
  whose paths are the possible conversations;
* `bind` puts one program after another, and is associative with `done` as unit;
* `expand` answers every question of a program by a program that asks other questions;
* `run` answers every question out of a state, `perform` by an effect.
-/

namespace TaskReplay

/-- A program with questions `Q`, answers `A q` to `q`, and a result. -/
inductive Prog (Q : Type) (A : Q → Type) (α : Type) where
  | done (result : α)
  | ask (question : Q) (next : A question → Prog Q A α)

namespace Prog

variable {Q : Type} {A : Q → Type} {α β γ : Type}

/-! ## 1. Composition -/

/-- The program, then the program its result selects. -/
def bind (p : Prog Q A α) (f : α → Prog Q A β) : Prog Q A β :=
  match p with
  | done a => f a
  | ask q next => ask q fun x => (next x).bind f

instance : Monad (Prog Q A) where
  pure := done
  bind := bind

/-- Asks one question and gives its answer. -/
def request (q : Q) : Prog Q A (A q) := ask q done

@[simp] theorem pure_eq (a : α) : (pure a : Prog Q A α) = done a := rfl
@[simp] theorem bind_eq (p : Prog Q A α) (f : α → Prog Q A β) : p >>= f = p.bind f := rfl
@[simp] theorem done_bind (a : α) (f : α → Prog Q A β) : (done a).bind f = f a := rfl
@[simp] theorem ask_bind (q : Q) (next : A q → Prog Q A α) (f : α → Prog Q A β) :
    (ask q next).bind f = ask q fun x => (next x).bind f := rfl
@[simp] theorem request_bind (q : Q) (f : A q → Prog Q A β) :
    (request q).bind f = ask q f := rfl

@[simp] theorem bind_done (p : Prog Q A α) : p.bind done = p := by
  induction p with
  | done a => rfl
  | ask q next ih => simp [ih]

theorem bind_assoc (p : Prog Q A α) (f : α → Prog Q A β) (g : β → Prog Q A γ) :
    (p.bind f).bind g = p.bind fun a => (f a).bind g := by
  induction p with
  | done a => rfl
  | ask q next ih => simp [ih]

/-! ## 2. Other questions -/

/-- The program with every question replaced by a program that finds its answer. -/
def expand {R : Type} {B : R → Type} (answer : (q : Q) → Prog R B (A q)) : Prog Q A α → Prog R B α
  | done a => done a
  | ask q next => (answer q).bind fun x => (next x).expand answer

/-! ## 3. States that answer -/

/-- The result of a program whose questions a state answers, with the state afterwards. -/
def run (answer : σ → (q : Q) → A q × σ) : Prog Q A α → σ → α × σ
  | done a, s => (a, s)
  | ask q next, s =>
    let (x, s) := answer s q
    (next x).run answer s

@[simp] theorem run_done (answer : σ → (q : Q) → A q × σ) (a : α) (s : σ) :
    (done a : Prog Q A α).run answer s = (a, s) := rfl

@[simp] theorem run_ask (answer : σ → (q : Q) → A q × σ) (q : Q) (next : A q → Prog Q A α)
    (s : σ) : (ask q next).run answer s = (next (answer s q).1).run answer (answer s q).2 := rfl

/-- A sequence of programs runs one after another. -/
theorem run_bind (answer : σ → (q : Q) → A q × σ) (p : Prog Q A α) (f : α → Prog Q A β) (s : σ) :
    (p.bind f).run answer s = (f (p.run answer s).1).run answer (p.run answer s).2 := by
  induction p generalizing s with
  | done a => rfl
  | ask q next ih => simp [ih]

/-! ## 4. Effects that answer -/

/-- The result of a program whose questions are answered by effects. -/
def perform {m : Type → Type} [Monad m] (answer : (q : Q) → m (A q)) : Prog Q A α → m α
  | done a => pure a
  | ask q next => do (next (← answer q)).perform answer

end Prog
end TaskReplay
