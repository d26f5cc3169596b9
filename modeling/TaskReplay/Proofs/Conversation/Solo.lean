import TaskReplay.Proofs.Conversation.Machine

/-!
# One call while all others rest

While all other calls rest at questions that wait, a call can be driven on by itself:

* `Alone S n s p newer s' p'` -- from a state and a program, through answers that the states allow, to
  a state and what is left of the program; `newer` is what the log gains;
* `Reaches.alone` -- in a machine where all others rest, the call can come that far, and the others
  stay where they are; `Reaches.call_alone` -- so can a new call;
* `alone_done` -- a program that follows a protocol under which every question has an allowed answer
  can be driven to its end;
* `Machine.goOn` -- a call that goes on by chosen answers up to where it halts, as a computation;
  `goOn_keeps`, `goOn_steps` -- what the steps of a call keep is kept;
* `exists_free` -- there is always a number for a new call.
-/

namespace TaskReplay

variable {κ Q ρ σ φ : Type} {A : Q → Type}

/-- **A call by itself**, through allowed answers. -/
inductive Alone (S : Service κ Q A ρ σ) (n : Nat) (s : σ) (p : Prog Q A ρ) :
    List (Entry κ Q A) → σ → Prog Q A ρ → Prop where
  | here : Alone S n s p [] s p
  | answer {newer : List (Entry κ Q A)} {s' : σ} {q : Q} {next : A q → Prog Q A ρ}
      (before : Alone S n s p newer s' (.ask q next)) (x : A q) (allowed : S.allows s' q x) :
      Alone S n s p (.answered n q x :: newer) (S.after s' q x) (next x)

section Alone

variable {S : Service κ Q A ρ σ} {n : Nat} {s s' s'' : σ} {p p' p'' : Prog Q A ρ}
  {newer newer' : List (Entry κ Q A)}

theorem Alone.trans (h : Alone S n s p newer s' p') (h' : Alone S n s' p' newer' s'' p'') :
    Alone S n s p (newer' ++ newer) s'' p'' := by
  induction h' with
  | here => exact h
  | answer _ x allowed ih => exact .answer ih x allowed

/-- A call by itself moves no other in its phase. -/
theorem Alone.phaseAt_of_ne (h : Alone S n s p newer s' p') {step : φ → (q : Q) → A q → φ}
    {first : φ} {k : Nat} (hk : k ≠ n) (log : List (Entry κ Q A)) :
    Machine.phaseAt step first k (newer ++ log) = Machine.phaseAt step first k log := by
  induction h with
  | here => rfl
  | answer _ x allowed ih =>
      rw [List.cons_append, Machine.phaseAt_answered, if_neg hk.symm]
      exact ih

/-- **To the end**: if wherever `I` holds a question in order has an allowed answer that keeps `I`, a
program that follows the protocol can be driven to its end. -/
theorem alone_done {P : Protocol Q A φ} {post : ρ → φ → Prop} {I : σ → Prop}
    (answers : ∀ s t q, I s → P.may t q → ∃ x, S.allows s q x ∧ I (S.after s q x)) {t : φ}
    (hp : p.Follows P post t) (hs : I s) :
    ∃ newer s' r, Alone S n s p newer s' (.done r) ∧ I s' := by
  induction p generalizing s t with
  | done r => exact ⟨[], s, r, .here, hs⟩
  | ask q next ih =>
      obtain ⟨x, allowed, kept⟩ := answers s t q hs hp.1
      obtain ⟨newer, s', r, rest, hs'⟩ := ih x (hp.2 x) kept
      have first : Alone S n s (.ask q next) [.answered n q x] (S.after s q x) (next x) :=
        Alone.here.answer x allowed
      exact ⟨_, s', r, first.trans rest, hs'⟩

end Alone

namespace Machine

variable {S : Service κ Q A ρ σ} {waits : Q → Bool} {m₀ m m' : Machine κ Q A ρ σ} {n : Nat}

/-- Whether all calls but one stay where they are. -/
def OthersStay (n : Nat) (m m' : Machine κ Q A ρ σ) : Prop := ∀ k, k ≠ n → m'.calls k = m.calls k

theorem inTurn_of_othersStay (h : OthersStay n m m') (ht : inTurn waits n m) : inTurn waits n m' := by
  intro k hk a ha
  rw [h k hk] at ha
  exact ht k hk a ha

/-- **A call driven on by itself** in a machine whose other calls rest. -/
theorem Reaches.alone (turn : Nat → Machine κ Q A ρ σ → Prop) {c : κ} {p p' : Prog Q A ρ} {s' : σ}
    {newer : List (Entry κ Q A)} (stays : ∀ m', OthersStay n m m' → turn n m')
    (ha : m.calls n = some ⟨c, p⟩) (h : Alone S n m.state p newer s' p') :
    ∃ m', Reaches S turn m m' ∧ m'.state = s' ∧ m'.calls n = some ⟨c, p'⟩ ∧
      m'.log = newer ++ m.log ∧ OthersStay n m m' := by
  induction h with
  | here => exact ⟨m, .here, rfl, ha, rfl, fun _ _ => rfl⟩
  | @answer newer s' q next _ x allowed ih =>
      obtain ⟨m', reached, rfl, asks, log, stay⟩ := ih
      have act : m'.Step S n (m'.reply S n c q x (next x)) := .answer x asks allowed
      refine ⟨_, reached.step (stays m' stay) act, rfl, Function.update_self .., ?_, fun k hk => ?_⟩
      · rw [List.cons_append, ← log]
        rfl
      · rw [act.calls_of_ne hk, stay k hk]

/-- **A new call driven on by itself** in a machine whose calls rest. -/
theorem Reaches.call_alone (turn : Nat → Machine κ Q A ρ σ → Prop) {c : κ} {p' : Prog Q A ρ} {s' : σ}
    {newer : List (Entry κ Q A)} (stays : ∀ m', OthersStay n m m' → turn n m')
    (free : m.calls n = none) (h : Alone S n m.state (S.program n c) newer s' p') :
    ∃ m', Reaches S turn m m' ∧ m'.state = s' ∧ m'.calls n = some ⟨c, p'⟩ ∧
      m'.log = newer ++ .called n c :: m.log ∧ OthersStay n m m' := by
  have call : m.Step S n (m.begin S n c) := .call c free
  have stay : OthersStay n m (m.begin S n c) := fun k hk => call.calls_of_ne hk
  obtain ⟨m', reached, state, at', log, stay'⟩ := Reaches.alone turn (m := m.begin S n c)
    (fun m' hm' => stays m' fun k hk => (hm' k hk).trans (stay k hk)) (Function.update_self ..) h
  have first : Reaches S turn m (m.begin S n c) := .step .here (stays m fun _ _ => rfl) call
  exact ⟨m', first.trans reached, state, at', log, fun k hk => (stay' k hk).trans (stay k hk)⟩

/-- The machine after call `n` was driven on by chosen answers up to where it halts. -/
def driven (S : Service κ Q A ρ σ) (choose : σ → (q : Q) → A q) (halts : Q → Bool) (n : Nat) (c : κ) :
    Prog Q A ρ → Machine κ Q A ρ σ → Machine κ Q A ρ σ
  | .done _, m => m
  | .ask q next, m =>
    if halts q then m
    else
      let x := choose m.state q
      driven S choose halts n c (next x) (m.reply S n c q x (next x))

/-- **Call `n` goes on** by chosen answers up to where it halts; it is made as `c` if it is not under
way. -/
def goOn (S : Service κ Q A ρ σ) (choose : σ → (q : Q) → A q) (halts : Q → Bool) (n : Nat) (c : κ)
    (m : Machine κ Q A ρ σ) : Machine κ Q A ρ σ :=
  match m.calls n with
  | none => driven S choose halts n c (S.program n c) (m.begin S n c)
  | some a => driven S choose halts n a.call a.rest m

/-- **What is kept while a call goes on**: all that its beginning keeps, and its chosen answers. -/
theorem goOn_keeps {P : Machine κ Q A ρ σ → Prop} {choose : σ → (q : Q) → A q} {halts : Q → Bool}
    {c : κ} (begins : ∀ m, P m → m.calls n = none → P (m.begin S n c))
    (replies : ∀ m c q next, P m → m.calls n = some ⟨c, .ask q next⟩ → halts q = false →
      P (m.reply S n c q (choose m.state q) (next (choose m.state q))))
    (h : P m) : P (m.goOn S choose halts n c) := by
  have driven_keeps (c : κ) (p : Prog Q A ρ) {m : Machine κ Q A ρ σ}
      (ha : m.calls n = some ⟨c, p⟩) (h : P m) : P (driven S choose halts n c p m) := by
    induction p generalizing m with
    | done r => exact h
    | ask q next ih =>
        unfold driven
        split
        · exact h
        · next goes_on =>
          exact ih _ (Function.update_self ..) (replies m c q next h ha (by simpa using goes_on))
  unfold goOn
  cases ha : m.calls n with
  | none => exact driven_keeps c _ (Function.update_self ..) (begins m h ha)
  | some a => exact driven_keeps a.call a.rest ha h

/-- What every step of the call keeps is kept, if the states allow what is chosen. -/
theorem goOn_steps {P : Machine κ Q A ρ σ → Prop} {choose : σ → (q : Q) → A q} {halts : Q → Bool}
    (allowed : ∀ s q, halts q = false → S.allows s q (choose s q))
    (step : ∀ m m', P m → m.Step S n m' → P m') (c : κ) (h : P m) :
    P (m.goOn S choose halts n c) :=
  goOn_keeps (fun m h free => step m _ h (.call c free))
    (fun m _ q _ h ha goes_on => step m _ h (.answer _ ha (allowed m.state q goes_on))) h

/-- There is always a number for a new call. -/
theorem exists_free {turn : Nat → Machine κ Q A ρ σ → Prop} {s : σ}
    (h : Reaches S turn (initial s) m) : ∃ N, ∀ k, N ≤ k → m.calls k = none := by
  induction h with
  | here => exact ⟨0, fun _ _ => rfl⟩
  | @step m m' n _ _ hs ih =>
      obtain ⟨N, hN⟩ := ih
      refine ⟨max N (n + 1), fun k hk => ?_⟩
      rw [hs.calls_of_ne (by omega)]
      exact hN k (by omega)

end Machine
end TaskReplay
