import Mathlib.Logic.Function.Basic
import TaskReplay.Proofs.Conversation.Protocol

/-!
# Calls that interleave

Several calls, each a program, ask one shared state. This file builds the machine they make:

* `Service` -- the programs of the calls, which answers a state allows, and what an answer makes of
  the state;
* `Machine` -- the state, the calls under way by number, and the log of all that happened;
* `Machine.Step`, `Machine.Reaches` -- a step is a new call or the answer to ONE question, so
  between two questions of a call any other call may act. `turn` says who may act when: `anyone`
  leaves that open, `inTurn` lets a call go on only while all others rest at a question that waits;
* `Reaches.at_entry` -- every line of a log was written by a step out of a reached machine, whose
  log is the part below that line;
* `phaseAt` -- where a call stands, read off the log; `phaseAt_enters` -- what a call has come to, it
  came to by an answer; `follows_of_reaches` -- if every program follows a protocol, so does what is
  left of it, from the phase the log gives;
* `relies_of_reaches` -- what programs rely on, of an invariant that their own questions keep.
-/

namespace TaskReplay

variable {κ Q ρ σ φ : Type} {A : Q → Type}

/-! ## 1. Services, calls, logs -/

/-- Calls on something shared: their programs by number, and how a state answers. -/
structure Service (κ Q : Type) (A : Q → Type) (ρ σ : Type) where
  program : Nat → κ → Prog Q A ρ
  allows : σ → (q : Q) → A q → Prop
  after : σ → (q : Q) → A q → σ

/-- A call under way: what was called, and what is left to do. -/
structure Activity (κ Q : Type) (A : Q → Type) (ρ : Type) where
  call : κ
  rest : Prog Q A ρ

/-- Whether a call has returned or stands at a question that waits. -/
def Activity.AtRest (waits : Q → Bool) (a : Activity κ Q A ρ) : Prop :=
  match a.rest with
  | .done _ => True
  | .ask q _ => waits q = true

/-- A line of the log. -/
inductive Entry (κ Q : Type) (A : Q → Type) where
  | called (number : Nat) (call : κ)
  | answered (number : Nat) (question : Q) (answer : A question)

/-- The state, the calls under way and the log, latest line first. -/
structure Machine (κ Q : Type) (A : Q → Type) (ρ σ : Type) where
  state : σ
  calls : Nat → Option (Activity κ Q A ρ)
  log : List (Entry κ Q A)

namespace Machine

/-- A machine in which nothing was called yet. -/
def initial (s : σ) : Machine κ Q A ρ σ := ⟨s, fun _ => none, []⟩

/-- Whether call `n` rests, if it is under way. -/
def AtRest (waits : Q → Bool) (m : Machine κ Q A ρ σ) (n : Nat) : Prop :=
  ∀ a, m.calls n = some a → a.AtRest waits

/-! ## 2. Steps -/

/-- The machine after call `n` began. -/
def begin (S : Service κ Q A ρ σ) (m : Machine κ Q A ρ σ) (n : Nat) (c : κ) :
    Machine κ Q A ρ σ :=
  ⟨m.state, Function.update m.calls n (some ⟨c, S.program n c⟩), .called n c :: m.log⟩

/-- The machine after call `n` got an answer. -/
def reply (S : Service κ Q A ρ σ) (m : Machine κ Q A ρ σ) (n : Nat) (c : κ) (q : Q) (x : A q)
    (rest : Prog Q A ρ) : Machine κ Q A ρ σ :=
  ⟨S.after m.state q x, Function.update m.calls n (some ⟨c, rest⟩), .answered n q x :: m.log⟩

/-- **A step of call `n`**: it begins under a number not yet used, or its question is answered. -/
inductive Step (S : Service κ Q A ρ σ) (m : Machine κ Q A ρ σ) (n : Nat) :
    Machine κ Q A ρ σ → Prop where
  | call (c : κ) (free : m.calls n = none) : Step S m n (m.begin S n c)
  | answer {c : κ} {q : Q} {next : A q → Prog Q A ρ} (x : A q)
      (asks : m.calls n = some ⟨c, .ask q next⟩) (allowed : S.allows m.state q x) :
      Step S m n (m.reply S n c q x (next x))

/-- **Machines reached from `m₀`** when `turn` says who may act. -/
inductive Reaches (S : Service κ Q A ρ σ) (turn : Nat → Machine κ Q A ρ σ → Prop)
    (m₀ : Machine κ Q A ρ σ) : Machine κ Q A ρ σ → Prop where
  | here : Reaches S turn m₀ m₀
  | step {m m' : Machine κ Q A ρ σ} {n : Nat} (h : Reaches S turn m₀ m) (ht : turn n m)
      (hs : m.Step S n m') : Reaches S turn m₀ m'

/-- Any call may act at any time. -/
def anyone (_ : Nat) (_ : Machine κ Q A ρ σ) : Prop := True

/-- A call may act while all others rest: calls change places only where they wait. -/
def inTurn (waits : Q → Bool) (n : Nat) (m : Machine κ Q A ρ σ) : Prop :=
  ∀ k, k ≠ n → m.AtRest waits k

section Runs

variable {S : Service κ Q A ρ σ} {turn turn' : Nat → Machine κ Q A ρ σ → Prop}
  {m₀ m m' : Machine κ Q A ρ σ} {n : Nat}

theorem Reaches.trans (h : Reaches S turn m₀ m) (h' : Reaches S turn m m') :
    Reaches S turn m₀ m' := by
  induction h' with
  | here => exact h
  | step _ ht hs ih => exact .step ih ht hs

/-- What is reached in turns is reached when anyone may act. -/
theorem Reaches.anyone (h : Reaches S turn m₀ m) : Reaches S anyone m₀ m := by
  induction h with
  | here => exact .here
  | step _ _ hs ih => exact .step ih trivial hs

/-- A step writes one line. -/
theorem Step.log (h : m.Step S n m') : ∃ e, m'.log = e :: m.log := by
  cases h with
  | call c free => exact ⟨.called n c, rfl⟩
  | answer x asks allowed => exact ⟨.answered n _ x, rfl⟩

/-- A step of one call leaves the others where they are. -/
theorem Step.calls_of_ne (h : m.Step S n m') {k : Nat} (hk : k ≠ n) : m'.calls k = m.calls k := by
  cases h with
  | call c free => exact Function.update_of_ne hk _ _
  | answer x asks allowed => exact Function.update_of_ne hk _ _

/-- A call under way was under way before the step, or began with it. -/
theorem Step.calls_before (h : m.Step S n m') {k : Nat} {c : κ} {p : Prog Q A ρ}
    (ha : m'.calls k = some ⟨c, p⟩) :
    (∃ p₀, m.calls k = some ⟨c, p₀⟩) ∨
      m.calls k = none ∧ m'.log = .called k c :: m.log ∧ p = S.program k c := by
  by_cases hk : k = n
  · subst hk
    cases h with
    | call c' free =>
        obtain ⟨rfl, rfl⟩ : c' = c ∧ S.program k c' = p := by simpa [begin] using ha
        exact .inr ⟨free, rfl, rfl⟩
    | @answer c' q next x asks allowed =>
        obtain ⟨rfl, -⟩ : c' = c ∧ next x = p := by simpa [reply] using ha
        exact .inl ⟨_, asks⟩
  · rw [h.calls_of_ne hk] at ha
    exact .inl ⟨p, ha⟩

/-- A call under way stays under way. -/
theorem Step.calls_after (h : m.Step S n m') {k : Nat} {c : κ} {p : Prog Q A ρ}
    (ha : m.calls k = some ⟨c, p⟩) : ∃ p', m'.calls k = some ⟨c, p'⟩ := by
  by_cases hk : k = n
  · subst hk
    cases h with
    | call c' free => rw [ha] at free; cases free
    | @answer c' q next x asks allowed =>
        rw [ha] at asks
        cases asks
        exact ⟨next x, Function.update_self ..⟩
  · exact ⟨p, by rw [h.calls_of_ne hk, ha]⟩

/-- A call once made stays the same call. -/
theorem Reaches.calls_after (h : Reaches S turn m m') {k : Nat} {c : κ} {p : Prog Q A ρ}
    (ha : m.calls k = some ⟨c, p⟩) : ∃ p', m'.calls k = some ⟨c, p'⟩ := by
  induction h with
  | here => exact ⟨p, ha⟩
  | step _ _ hs ih =>
      obtain ⟨p₁, ha₁⟩ := ih
      exact hs.calls_after ha₁

/-- A call that has returned does nothing more. -/
theorem Reaches.calls_done (h : Reaches S turn m m') {k : Nat} {c : κ} {r : ρ}
    (ha : m.calls k = some ⟨c, .done r⟩) : m'.calls k = some ⟨c, .done r⟩ := by
  induction h with
  | here => exact ha
  | @step m₁ m₂ n _ _ hs ih =>
      by_cases hk : k = n
      · subst hk
        cases hs with
        | call c' free => rw [ih] at free; cases free
        | answer x asks allowed => rw [ih] at asks; cases asks
      · rw [hs.calls_of_ne hk, ih]

/-- Logs only grow. -/
theorem Reaches.log (h : Reaches S turn m₀ m) : ∃ newer, m.log = newer ++ m₀.log := by
  induction h with
  | here => exact ⟨[], rfl⟩
  | step _ _ hs ih =>
      obtain ⟨newer, hn⟩ := ih
      obtain ⟨e, he⟩ := hs.log
      exact ⟨e :: newer, by rw [he, hn]; rfl⟩

/-- **Every line of a log was written by a step** out of a reached machine whose log is the part
below that line. -/
theorem Reaches.at_entry (h : Reaches S turn m₀ m) (h₀ : m₀.log = [])
    {newer older : List (Entry κ Q A)} {e : Entry κ Q A} (hl : m.log = newer ++ e :: older) :
    ∃ k m₁ m₂, Reaches S turn m₀ m₁ ∧ m₁.log = older ∧ turn k m₁ ∧ m₁.Step S k m₂ ∧
      m₂.log = e :: older ∧ Reaches S turn m₂ m := by
  induction h generalizing newer with
  | here =>
      rw [h₀] at hl
      exact absurd hl.symm (by simp)
  | @step m m' n h ht hs ih =>
      obtain ⟨e', he⟩ := hs.log
      rw [he] at hl
      cases newer with
      | nil =>
          obtain ⟨rfl, hold⟩ : e' = e ∧ m.log = older := by simpa using hl
          exact ⟨n, m, m', h, hold, ht, hs, by rw [he, hold], .here⟩
      | cons e'' newer =>
          have below : m.log = newer ++ e :: older := (List.cons.inj hl).2
          obtain ⟨k, m₁, m₂, h₁, hlog, hk, hstep, hlog', h₂⟩ := ih below
          exact ⟨k, m₁, m₂, h₁, hlog, hk, hstep, hlog', .step h₂ ht hs⟩

/-- An answered question was asked where the log below it ends, and the state allowed the answer. -/
theorem Reaches.at_answer (h : Reaches S turn m₀ m) (h₀ : m₀.log = [])
    {newer older : List (Entry κ Q A)} {q : Q} {x : A q}
    (hl : m.log = newer ++ .answered n q x :: older) :
    ∃ m₁ c next, Reaches S turn m₀ m₁ ∧ m₁.log = older ∧ turn n m₁ ∧
      m₁.calls n = some ⟨c, .ask q next⟩ ∧ S.allows m₁.state q x ∧
      Reaches S turn (m₁.reply S n c q x (next x)) m := by
  obtain ⟨k, m₁, m₂, h₁, hlog, hk, hs, hlog', h₂⟩ := h.at_entry h₀ hl
  cases hs with
  | call c free =>
      have : (Entry.called k c : Entry κ Q A) = .answered n q x := (List.cons.inj hlog').1
      cases this
  | @answer c q' next x' asks allowed =>
      have : (Entry.answered k q' x' : Entry κ Q A) = .answered n q x := (List.cons.inj hlog').1
      cases this
      exact ⟨m₁, c, next, h₁, hlog, hk, asks, allowed, h₂⟩

/-- It was asked by the call that has its number. -/
theorem Reaches.call_at_answer (h : Reaches S turn m₀ m) (h₀ : m₀.log = [])
    {newer older : List (Entry κ Q A)} {q : Q} {x : A q}
    (hl : m.log = newer ++ .answered n q x :: older) :
    ∃ m₁ c next p, Reaches S turn m₀ m₁ ∧ m₁.log = older ∧ m₁.calls n = some ⟨c, .ask q next⟩ ∧
      m.calls n = some ⟨c, p⟩ := by
  obtain ⟨m₁, c, next, h₁, log, -, asks, -, since⟩ := h.at_answer h₀ hl
  obtain ⟨p, hp⟩ := since.calls_after (Function.update_self ..)
  exact ⟨m₁, c, next, p, h₁, log, asks, hp⟩

end Runs

/-! ## 3. Where a call stands -/

/-- Where call `n` stands, read off a log. -/
def phaseAt (step : φ → (q : Q) → A q → φ) (first : φ) (n : Nat) : List (Entry κ Q A) → φ
  | [] => first
  | .called _ _ :: older => phaseAt step first n older
  | .answered k q x :: older =>
    if k = n then step (phaseAt step first n older) q x else phaseAt step first n older

section Phase

variable {S : Service κ Q A ρ σ} {turn : Nat → Machine κ Q A ρ σ → Prop}
  {step : φ → (q : Q) → A q → φ} {first : φ}

@[simp] theorem phaseAt_called (n k : Nat) (c : κ) (older : List (Entry κ Q A)) :
    phaseAt step first n (.called k c :: older) = phaseAt step first n older := rfl

@[simp] theorem phaseAt_answered (n k : Nat) (q : Q) (x : A q) (older : List (Entry κ Q A)) :
    phaseAt step first n (.answered k q x :: older) =
      if k = n then step (phaseAt step first n older) q x else phaseAt step first n older := rfl

/-- **A call that has come to where `P` holds came there by one of its answers.** -/
theorem phaseAt_enters {P : φ → Prop} {n : Nat} {newer older : List (Entry κ Q A)}
    (hOld : ¬ P (phaseAt step first n older)) (hNew : P (phaseAt step first n (newer ++ older))) :
    ∃ later earlier q x, newer = later ++ .answered n q x :: earlier ∧
      ¬ P (phaseAt step first n (earlier ++ older)) ∧
      P (step (phaseAt step first n (earlier ++ older)) q x) := by
  induction newer with
  | nil => exact absurd hNew hOld
  | cons e newer ih =>
      by_cases before : P (phaseAt step first n (newer ++ older))
      · obtain ⟨later, earlier, q, x, rfl, rest⟩ := ih before
        exact ⟨e :: later, earlier, q, x, rfl, rest⟩
      · -- the call came there just now, so this line is an answer to it
        cases e with
        | called k c => exact absurd hNew before
        | answered k q x =>
            rw [List.cons_append, phaseAt_answered] at hNew
            split at hNew
            · next same =>
              subst same
              exact ⟨[], newer, q, x, rfl, before, hNew⟩
            · exact absurd hNew before

/-- So did a call that has come to where no call begins. -/
theorem phaseAt_came {P : φ → Prop} {n : Nat} {log : List (Entry κ Q A)}
    (h : P (phaseAt step first n log)) (hFirst : ¬ P first) :
    ∃ later earlier q x, log = later ++ .answered n q x :: earlier ∧
      ¬ P (phaseAt step first n earlier) ∧ P (step (phaseAt step first n earlier) q x) := by
  have begun : ¬ P (phaseAt step first n ([] : List (Entry κ Q A))) := hFirst
  have whole : P (phaseAt step first n (log ++ [])) := by rwa [List.append_nil]
  simpa only [List.append_nil] using phaseAt_enters begun whole

/-- A step of one call moves no other in its phase. -/
theorem Step.phaseAt_of_ne {m m' : Machine κ Q A ρ σ} {n k : Nat} (h : m.Step S n m')
    (hk : k ≠ n) : phaseAt step first k m'.log = phaseAt step first k m.log := by
  cases h with
  | call c free => rfl
  | answer x asks allowed => exact if_neg hk.symm

variable {may : Nat → κ → φ → Q → Prop}

/-- **What is left of a call follows its protocol**, from the phase the log gives; a call not yet
made stands at the beginning. Where a call may end depends on the call. -/
theorem follows_call_of_reaches {post : Nat → κ → ρ → φ → Prop}
    (hp : ∀ n c, (S.program n c).Follows ⟨may n c, step⟩ (post n c) first) {s : σ}
    {m : Machine κ Q A ρ σ} (h : Reaches S turn (initial s) m) (n : Nat) :
    (m.calls n = none → phaseAt step first n m.log = first) ∧
      ∀ a, m.calls n = some a →
        a.rest.Follows ⟨may n a.call, step⟩ (post n a.call) (phaseAt step first n m.log) := by
  induction h with
  | here => exact ⟨fun _ => rfl, fun a ha => nomatch ha⟩
  | @step m m' k _ _ hs ih =>
      by_cases hk : n = k
      · subst hk
        cases hs with
        | call c free =>
            refine ⟨fun hn => ?_, fun a ha => ?_⟩
            · simp [begin] at hn
            · obtain rfl : _ = a := by simpa [begin] using ha
              rw [show (m.begin S n c).log = .called n c :: m.log from rfl, phaseAt_called,
                ih.1 free]
              exact hp n c
        | @answer c q next x asks allowed =>
            refine ⟨fun hn => ?_, fun a ha => ?_⟩
            · simp [reply] at hn
            · obtain rfl : _ = a := by simpa [reply] using ha
              rw [show (m.reply S n c q x (next x)).log = .answered n q x :: m.log from rfl,
                phaseAt_answered, if_pos rfl]
              exact (ih.2 _ asks).2 x
      · rw [hs.calls_of_ne hk, hs.phaseAt_of_ne hk]
        exact ih

/-- The same where all calls end alike. -/
theorem follows_of_reaches {post : Nat → ρ → φ → Prop}
    (hp : ∀ n c, (S.program n c).Follows ⟨may n c, step⟩ (post n) first) {s : σ}
    {m : Machine κ Q A ρ σ} (h : Reaches S turn (initial s) m) (n : Nat) :
    (m.calls n = none → phaseAt step first n m.log = first) ∧
      ∀ a, m.calls n = some a →
        a.rest.Follows ⟨may n a.call, step⟩ (post n) (phaseAt step first n m.log) :=
  follows_call_of_reaches hp h n

end Phase

/-! ## 4. Answers that are relied on -/

/-- **What programs rely on, and what they keep.** If the state `I` gives the answers that programs rely
on, as far as the world outside is `trusted`, and the questions that programs then ask keep `I`, all of
it holds on every machine reached. -/
theorem relies_of_reaches {S : Service κ Q A ρ σ} {turn : Nat → Machine κ Q A ρ σ → Prop}
    {H trusted : (q : Q) → A q → Prop} {P : Q → Prop} {post : κ → ρ → Prop} {I : σ → Prop}
    {fine : κ → Prop} (programs : ∀ n c, fine c → (S.program n c).Relies H P (post c))
    (answers : ∀ s q x, I s → S.allows s q x → trusted q x → H q x)
    (keeps : ∀ s q x, I s → P q → S.allows s q x → I (S.after s q x)) {s₀ : σ} (start : I s₀)
    {m : Machine κ Q A ρ σ} (h : Reaches S turn (initial s₀) m)
    (calls : ∀ n c, .called n c ∈ m.log → fine c)
    (heard : ∀ n q x, .answered n q x ∈ m.log → trusted q x) :
    I m.state ∧ (∀ n a, m.calls n = some a → a.rest.Relies H P (post a.call)) ∧
      ∀ n q x, .answered n q x ∈ m.log → P q := by
  induction h with
  | here => exact ⟨start, fun n a ha => (by cases ha), fun n q x hx => (by cases hx)⟩
  | @step m m' k _ _ hs ih =>
      obtain ⟨e, he⟩ := hs.log
      rw [he] at calls heard
      obtain ⟨inv, rests, asked⟩ := ih (fun n c hc => calls n c (.tail _ hc))
        fun n q x hx => heard n q x (.tail _ hx)
      cases hs with
      | call c free =>
          obtain rfl : Entry.called k c = e := (List.cons.inj he).1
          refine ⟨inv, fun n a ha => ?_, fun n q x hx => ?_⟩
          · by_cases hn : n = k
            · subst hn
              obtain rfl : _ = a := by simpa [begin] using ha
              exact programs n c (calls n c (.head _))
            · exact rests n a (by simpa [begin, hn] using ha)
          · rcases List.mem_cons.mp hx with same | old
            · cases same
            · exact asked n q x old
      | @answer c q next x asks allowed =>
          obtain rfl : Entry.answered k q x = e := (List.cons.inj he).1
          obtain ⟨may, later⟩ := rests k _ asks
          refine ⟨keeps _ _ _ inv may allowed, fun n a ha => ?_, fun n q' x' hx => ?_⟩
          · by_cases hn : n = k
            · subst hn
              obtain rfl : _ = a := by simpa [reply] using ha
              exact later x (answers _ _ _ inv allowed (heard n q x (.head _)))
            · exact rests n a (by simpa [reply, hn] using ha)
          · rcases List.mem_cons.mp hx with same | old
            · cases same
              exact may
            · exact asked n q' x' old

end Machine
end TaskReplay
