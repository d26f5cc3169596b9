import TaskReplay.Prog

/-!
# Programs that keep to a protocol

A program meets answers that it does not choose. What it does whatever they are is said here:

* `Prog.Asks P p` -- every question of `p` is one of `P`;
* a `Protocol` reads a conversation from its beginning: which questions are in order where it
  stands, and where an answer leads;
* `Prog.Follows P post p` -- `p` asks only what is in order, and ends where its result may end;
* both are closed under composition (`Asks.bind`, `Follows.bind`) and pass through `expand`
  (`Follows.expand`): a protocol for the questions of a program gives one for the questions asked
  in their place;
* `Asks.stays`, `Follows.with_result` -- a program whose questions lead nowhere else; what is known of a
  result from another protocol;
* `Prog.Relies H P post p` -- `p` asks only what is in `P` and ends as `post` allows, as long as the
  answers are as `H` has them; closed under composition too (`Relies.bind`, `Relies.expand`).
-/

namespace TaskReplay

variable {Q R : Type} {A : Q → Type} {B : R → Type} {α β φ ψ : Type}

/-! ## 1. Which questions are asked -/

/-- Every question of the program is one of `P`, whatever the answers. -/
def Prog.Asks (P : Q → Prop) : Prog Q A α → Prop
  | .done _ => True
  | .ask q next => P q ∧ ∀ x, (next x).Asks P

namespace Prog

variable {P P' : Q → Prop}

theorem asks_true (p : Prog Q A α) : p.Asks fun _ => True := by
  induction p with
  | done a => trivial
  | ask q next ih => exact ⟨trivial, ih⟩

theorem Asks.mono (h : ∀ q, P q → P' q) {p : Prog Q A α} (hp : p.Asks P) : p.Asks P' := by
  induction p with
  | done a => trivial
  | ask q next ih => exact ⟨h q hp.1, fun x => ih x (hp.2 x)⟩

theorem Asks.bind {p : Prog Q A α} {f : α → Prog Q A β} (hp : p.Asks P) (hf : ∀ a, (f a).Asks P) :
    (p.bind f).Asks P := by
  induction p with
  | done a => exact hf a
  | ask q next ih => exact ⟨hp.1, fun x => ih x (hp.2 x)⟩

/-- Other questions in place of a program's own. -/
theorem Asks.expand {P : R → Prop} {answer : (q : Q) → Prog R B (A q)}
    (h : ∀ q, (answer q).Asks P) (p : Prog Q A α) : (p.expand answer).Asks P := by
  induction p with
  | done a => trivial
  | ask q next ih => exact (h q).bind fun x => ih x

end Prog

/-! ## 2. Protocols -/

/-- What may be asked where a conversation stands, and where an answer leads. -/
structure Protocol (Q : Type) (A : Q → Type) (φ : Type) where
  may : φ → Q → Prop
  step : φ → (q : Q) → A q → φ

/-- The program asks only what is in order and ends where `post` allows, whatever the answers. -/
def Prog.Follows (P : Protocol Q A φ) (post : α → φ → Prop) : Prog Q A α → φ → Prop
  | .done a, s => post a s
  | .ask q next, s => P.may s q ∧ ∀ x, (next x).Follows P post (P.step s q x)

namespace Prog

variable {P : Protocol Q A φ} {post post' : α → φ → Prop}

theorem Follows.mono (h : ∀ a s, post a s → post' a s) {p : Prog Q A α} {s : φ}
    (hp : p.Follows P post s) : p.Follows P post' s := by
  induction p generalizing s with
  | done a => exact h a s hp
  | ask q next ih => exact ⟨hp.1, fun x => ih x (hp.2 x)⟩

/-- **One program after another**: where the first may end, the second goes on. -/
theorem Follows.bind {p : Prog Q A α} {f : α → Prog Q A β} {last : β → φ → Prop} {s : φ}
    (hp : p.Follows P post s) (hf : ∀ a t, post a t → (f a).Follows P last t) :
    (p.bind f).Follows P last s := by
  induction p generalizing s with
  | done a => exact hf a s hp
  | ask q next ih => exact ⟨hp.1, fun x => ih x (hp.2 x)⟩

/-- What one protocol gives of the result alone holds along any other. -/
theorem Follows.with_result {P' : Protocol Q A ψ} {good : α → Prop} {p : Prog Q A α} {s : φ} {t : ψ}
    (hp : p.Follows P post s) (hp' : p.Follows P' (fun a _ => good a) t) :
    p.Follows P (fun a s => post a s ∧ good a) s := by
  induction p generalizing s t with
  | done a => exact ⟨hp, hp'⟩
  | ask q next ih => exact ⟨hp.1, fun x => ih x (hp.2 x) (hp'.2 x)⟩

/-- A program whose questions are all in order wherever `I` holds, and keep `I`. -/
theorem Asks.follows {T : Q → Prop} {I : φ → Prop} (hI : ∀ s q, I s → T q → P.may s q)
    (hs : ∀ s q x, I s → T q → I (P.step s q x)) {p : Prog Q A α} (hp : p.Asks T) {s : φ} (h : I s) :
    p.Follows P (fun _ t => I t) s := by
  induction p generalizing s with
  | done a => exact h
  | ask q next ih =>
      exact ⟨hI s q h hp.1, fun x => ih x (hp.2 x) (hs s q x h hp.1)⟩

/-- A program whose questions are all in order where it stands, and leave it there. -/
theorem Asks.stays {T : Q → Prop} {s : φ} (may : ∀ q, T q → P.may s q)
    (step : ∀ q x, T q → P.step s q x = s) {p : Prog Q A α} (hp : p.Asks T) :
    p.Follows P (fun _ t => t = s) s := by
  refine hp.follows (I := fun t => t = s) ?_ ?_ rfl
  · rintro _ q rfl hq
    exact may q hq
  · rintro _ q x rfl hq
    exact step q x hq

/-- **Other questions in place of a program's own**: if each substitute carries the relation `Rel`
between the two protocols from before a question to after its answer, so does the whole. -/
theorem Follows.expand {P' : Protocol R B ψ} (Rel : φ → ψ → Prop)
    {answer : (q : Q) → Prog R B (A q)}
    (h : ∀ q s t, Rel s t → P.may s q →
      (answer q).Follows P' (fun x t' => Rel (P.step s q x) t') t)
    {p : Prog Q A α} {s : φ} {t : ψ} (hp : p.Follows P post s) (hr : Rel s t) :
    (p.expand answer).Follows P' (fun a t' => ∃ s', post a s' ∧ Rel s' t') t := by
  induction p generalizing s t with
  | done a => exact ⟨s, hp, hr⟩
  | ask q next ih => exact (h q s t hr hp.1).bind fun x t' ht => ih x (hp.2 x) ht

/-! ## 3. Answers that are relied on -/

/-- As long as answers are in `H`, the program asks only what is in `P` and ends where `post` allows. -/
def Relies (H : (q : Q) → A q → Prop) (P : Q → Prop) (post : α → Prop) : Prog Q A α → Prop
  | .done a => post a
  | .ask q next => P q ∧ ∀ x, H q x → (next x).Relies H P post

theorem Relies.mono {H : (q : Q) → A q → Prop} {P : Q → Prop} {post post' : α → Prop} {p : Prog Q A α}
    (hp : p.Relies H P post) (h : ∀ a, post a → post' a) : p.Relies H P post' := by
  induction p with
  | done a => exact h a hp
  | ask q next ih => exact ⟨hp.1, fun x hx => ih x (hp.2 x hx)⟩

theorem Relies.bind {H : (q : Q) → A q → Prop} {P : Q → Prop} {post : α → Prop} {last : β → Prop}
    {p : Prog Q A α} {f : α → Prog Q A β} (hp : p.Relies H P post)
    (hf : ∀ a, post a → (f a).Relies H P last) : (p.bind f).Relies H P last := by
  induction p with
  | done a => exact hf a hp
  | ask q next ih => exact ⟨hp.1, fun x hx => ih x (hp.2 x hx)⟩

/-- A program that asks only what is in `P` relies on nothing. -/
theorem Asks.relies {H : (q : Q) → A q → Prop} {P : Q → Prop} {post : α → Prop} {p : Prog Q A α}
    (hp : p.Asks P) (all : ∀ a, post a) : p.Relies H P post := by
  induction p with
  | done a => exact all a
  | ask q next ih => exact ⟨hp.1, fun x _ => ih x (hp.2 x)⟩

/-- **Other questions in place of a program's own**: each substitute may rely on other answers, as long
as it comes to an answer that the program relies on. -/
theorem Relies.expand {H : (q : Q) → A q → Prop} {P : Q → Prop} {H' : (r : R) → B r → Prop}
    {P' : R → Prop} {post : α → Prop} {answer : (q : Q) → Prog R B (A q)}
    (h : ∀ q, P q → (answer q).Relies H' P' (H q)) {p : Prog Q A α} (hp : p.Relies H P post) :
    (p.expand answer).Relies H' P' post := by
  induction p with
  | done a => exact hp
  | ask q next ih => exact (h q hp.1).bind fun x hx => ih x (hp.2 x hx)

end Prog
end TaskReplay
