import TaskReplay.Proofs.Conversation.Machine

/-!
# A machine seen in part

What several calls do to something shared can be looked at with a part left out:

* `mapState` -- a machine of which only a part of the state is shown; `Reaches.mapState` -- if that
  part answers for itself, the part of a reached machine is reached;
* `without` -- a machine with one call left out, of which all else stays as it is;
  `Reaches.without` -- **a call that only asks idly can be left out**: the same steps of the others
  lead to the same state.
-/

namespace TaskReplay

variable {κ Q ρ σ τ : Type} {A : Q → Type}

/-- The number of the call that a line is about. -/
def Entry.number : Entry κ Q A → Nat
  | called n _ => n
  | answered n _ _ => n

namespace Machine

/-! ## 1. A part of the state -/

/-- The machine of which the state is seen through `f`. -/
def mapState (f : σ → τ) (m : Machine κ Q A ρ σ) : Machine κ Q A ρ τ := ⟨f m.state, m.calls, m.log⟩

/-- **A part of the state that answers for itself** is reached as the whole is. -/
theorem Reaches.mapState {S : Service κ Q A ρ σ} {T : Service κ Q A ρ τ} {f : σ → τ}
    (program : ∀ n c, T.program n c = S.program n c)
    (allows : ∀ s q x, S.allows s q x → T.allows (f s) q x)
    (after : ∀ s q x, S.allows s q x → f (S.after s q x) = T.after (f s) q x) {s : σ}
    {m : Machine κ Q A ρ σ} (h : Reaches S Machine.anyone (initial s) m) :
    Reaches T Machine.anyone (initial (f s)) (m.mapState f) := by
  induction h with
  | here => exact .here
  | @step m m' n _ _ hs ih =>
      refine ih.step (n := n) trivial ?_
      cases hs with
      | call c free =>
          have call : (m.mapState f).Step T n _ := .call c free
          rw [show (m.mapState f).begin T n c = (m.begin S n c).mapState f by
            simp [begin, Machine.mapState, program]] at call
          exact call
      | @answer c q next x asks allowed =>
          have answer : (m.mapState f).Step T n _ := .answer x asks (allows _ q x allowed)
          rw [show (m.mapState f).reply T n c q x (next x) = (m.reply S n c q x (next x)).mapState f by
            simp [reply, Machine.mapState, after _ q x allowed]] at answer
          exact answer

/-! ## 2. A call left out -/

/-- The lines of a log that are not about call `n`. -/
def others (n : Nat) (log : List (Entry κ Q A)) : List (Entry κ Q A) :=
  log.filter fun line => line.number != n

/-- The machine with call `n` left out: the state stays as it is. -/
def without (n : Nat) (m : Machine κ Q A ρ σ) : Machine κ Q A ρ σ :=
  ⟨m.state, Function.update m.calls n none, others n m.log⟩

section Without

variable {S : Service κ Q A ρ σ} {s : σ} {m m' : Machine κ Q A ρ σ} {n k : Nat}

@[simp] theorem others_called (n k : Nat) (c : κ) (log : List (Entry κ Q A)) :
    others n (.called k c :: log) =
      if k = n then others n log else .called k c :: others n log := by
  by_cases h : k = n <;> simp [others, Entry.number, h]

@[simp] theorem others_answered (n k : Nat) (q : Q) (x : A q) (log : List (Entry κ Q A)) :
    others n (.answered k q x :: log) =
      if k = n then others n log else .answered k q x :: others n log := by
  by_cases h : k = n <;> simp [others, Entry.number, h]

/-- A step of the call that is left out is not seen, if it leaves the state. -/
theorem without_of_step (hs : m.Step S n m') (same : m'.state = m.state) :
    m'.without n = m.without n := by
  cases hs with
  | call c free =>
      simp [without, begin]
  | answer x asks allowed =>
      have same : S.after m.state _ x = m.state := same
      simp [without, reply, same]

/-- A step of another call can be made just as well. -/
theorem step_without (hs : m.Step S k m') (hk : k ≠ n) : (m.without n).Step S k (m'.without n) := by
  have calls : (m.without n).calls k = m.calls k := Function.update_of_ne hk ..
  cases hs with
  | call c free =>
      have seen : (m.begin S k c).without n = (m.without n).begin S k c := by
        simp [without, begin, hk, Function.update_comm hk]
      rw [seen]
      exact .call c (calls.trans free)
  | @answer c q next x asks allowed =>
      have seen : (m.reply S k c q x (next x)).without n =
          (m.without n).reply S k c q x (next x) := by
        simp [without, reply, hk, Function.update_comm hk]
      rw [seen]
      exact .answer x (calls.trans asks) allowed

/-- **A call that only asks idly can be left out.** -/
theorem Reaches.without {idle : (q : Q) → A q → Prop}
    (still : ∀ s q x, S.allows s q x → idle q x → S.after s q x = s)
    (h : Reaches S Machine.anyone (initial s) m) (hn : ∀ q x, .answered n q x ∈ m.log → idle q x) :
    Reaches S Machine.anyone (initial s) (m.without n) := by
  induction h with
  | here =>
      have nothing : (initial s : Machine κ Q A ρ σ).without n = initial s := by
        simp [Machine.without, initial, others]
      rw [nothing]
      exact .here
  | @step m m' k h _ hs ih =>
      have before := ih fun q x hx => by
        obtain ⟨line, log⟩ := hs.log
        exact hn q x (log ▸ List.mem_cons_of_mem _ hx)
      by_cases hk : k = n
      · subst hk
        rw [without_of_step hs]
        · exact before
        · cases hs with
          | call c free => rfl
          | @answer c q next x asks allowed => exact still _ q x allowed (hn q x (List.mem_cons_self ..))
      · exact before.step trivial (step_without hs hk)

end Without
end Machine
end TaskReplay
