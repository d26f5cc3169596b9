import Mathlib.Tactic.SplitIfs
import TaskReplay.Json.Printer

/-!
# The spelling of a token is scanned as that token

A text is scanned character by character (`Scan.run`). Here is what the scanner makes of the
characters that `Token.text` writes:

* `run_escape` -- the spelling of a character inside a string adds that character to the string,
  escaped or not;
* `foldlM_toDigits` -- the digits of a number, read one by one, give the number; it serves the whole
  part and the exponent of a numeral alike;
* a number has no closing mark, so its end shows only in what follows it: `Barred` texts do not
  continue any number, and the end, commas and closing marks are (`barred_nil`, `barred_cons`);
* `run_text` -- **the spelling of a token is scanned as that token**.
-/

namespace TaskReplay.Json

namespace Scan

/-! ## 1. Strings -/

theorem digit?_hexDigit {n : Nat} (small : n < 16) : Text.digit? 16 (hexDigit n) = some n := by
  have each : ∀ m < 16, Text.digit? 16 (hexDigit m) = some m := by decide
  exact each n small

/-- A string read so far, without any surrogate in it. -/
def reading (read : List Char) : Scan := .quote ⟨read, true, none, .plain⟩

/-- The four digits of a `\u` escape below 32 stand for that character. -/
theorem run_control {c : Char} (control : c.toNat < 0x20) (read : List Char) (done : List Token)
    (rest : List Char) :
    run (reading read) done
        ('\\' :: 'u' :: '0' :: '0' :: hexDigit (c.toNat / 16) :: hexDigit (c.toNat % 16) :: rest) =
      run (reading (c :: read)) done rest := by
  have upper := digit?_hexDigit (n := c.toNat / 16) (by omega)
  have lower := digit?_hexDigit (n := c.toNat % 16) (by omega)
  have unit : c.toNat / 16 * 16 + c.toNat % 16 = c.toNat := by omega
  -- the first four characters are fixed, the scanner just computes
  change run (.quote ⟨read, true, none, .hex 2 0⟩) done _ = _
  simp only [run, step?, quoted?, upper, lower, Option.map_some, Quote.pushUnit, Nat.zero_mul,
    Nat.zero_add, unit, Nat.add_one_sub_one, Nat.reduceLeDiff, ↓reduceIte, Nat.le_refl,
    List.reverse_nil, List.nil_append, Char.ofNat_toNat]
  rw [if_neg (by omega), if_neg (by omega)]
  rfl

/-- The spelling of a character inside a string is read as that character. -/
theorem run_escape (c : Char) (read : List Char) (done : List Token) (rest : List Char) :
    run (reading read) done (escape c ++ rest) = run (reading (c :: read)) done rest := by
  unfold escape
  split_ifs with quote backslash newline ret tab backspace feed control
  · subst quote; rfl
  · subst backslash; rfl
  · subst newline; rfl
  · subst ret; rfl
  · subst tab; rfl
  · subst backspace; rfl
  · subst feed; rfl
  · exact run_control control read done rest
  · simp only [List.cons_append, List.nil_append, reading, run, step?, quoted?, if_neg quote,
      if_neg backslash, if_neg control, Quote.push, List.reverse_nil, Option.isNone_none,
      Bool.and_true]

theorem run_escapes (cs read : List Char) (done : List Token) (rest : List Char) :
    run (reading read) done (cs.flatMap escape ++ rest) =
      run (reading (cs.reverse ++ read)) done rest := by
  induction cs generalizing read with
  | nil => rfl
  | cons c cs ih =>
    rw [List.flatMap_cons, List.append_assoc, run_escape, ih, List.reverse_cons, List.append_assoc,
      List.singleton_append]

theorem run_quoted (s : String) (done : List Token) (rest : List Char) :
    run .gap done (quoted s ++ rest) = run .gap (.string s :: done) rest := by
  change run (reading []) done (s.toList.flatMap escape ++ ['"'] ++ rest) = _
  rw [List.append_assoc, run_escapes]
  change run .gap (.string (String.ofList (s.toList.reverse ++ []).reverse) :: done) rest = _
  rw [List.append_nil, List.reverse_reverse, String.ofList_toList]

/-! ## 2. Numbers -/

theorem digit?_digitChar {d : Nat} (small : d < 10) :
    Text.digit? 10 (Nat.digitChar d) = some d := by
  have each : ∀ m < 10, Text.digit? 10 (Nat.digitChar m) = some m := by decide
  exact each d small

/-- The digits of a number, read one by one: `after m` is the state when `m` has been read. -/
theorem foldlM_toDigits {σ : Type} {push : σ → Char → Option σ} {start : σ} (after : Nat → σ)
    (first : ∀ d < 10, push start (Nat.digitChar d) = some (after d))
    (next : ∀ m, 0 < m → ∀ d < 10, push (after m) (Nat.digitChar d) = some (after (m * 10 + d)))
    (n : Nat) : (Nat.toDigits 10 n).foldlM push start = some (after n) := by
  induction n using Nat.strongRecOn with
  | _ n ih =>
    by_cases small : n < 10
    · simp [Nat.toDigits_of_lt_base small, first n small]
    · have earlier := ih (n / 10) (by omega)
      have last := next (n / 10) (by omega) (n % 10) (by omega)
      rw [show n / 10 * 10 + n % 10 = n by omega] at last
      simp [Nat.toDigits_of_base_le (by decide) (Nat.le_of_not_lt small), List.foldlM_append,
        earlier, last]

/-- The stage of a number after its whole part. -/
def wholeStage (n : Nat) : Stage := if n = 0 then .zero else .whole

theorem foldlM_whole (negative : Bool) (n : Nat) :
    (digits n).foldlM Figures.push? ⟨.sign, negative, 0, [], 0⟩ =
      some ⟨wholeStage n, negative, n, [], 0⟩ := by
  refine foldlM_toDigits (fun n => Figures.mk (wholeStage n) negative n [] 0) ?_ ?_ n
  · intro d small
    simp [Figures.push?, digit?_digitChar small, wholeStage]
  · intro m positive d small
    have nonzero : wholeStage (m * 10 + d) = .whole := if_neg (by omega)
    have stage : wholeStage m = .whole := if_neg (Nat.ne_of_gt positive)
    simp only [Figures.push?, digit?_digitChar small, stage, nonzero]

theorem foldlM_exponent (f : Figures) (negative : Bool) (n : Nat) :
    (digits n).foldlM Figures.push? { f with stage := .exponentSign negative } =
      some { f with stage := .exponent negative, exponent := n } := by
  refine foldlM_toDigits (fun n => { f with stage := .exponent negative, exponent := n }) ?_ ?_ n
  · intro d small
    simp [Figures.push?, digit?_digitChar small]
  · intro m _ d small
    simp [Figures.push?, digit?_digitChar small]

/-- The digits after the point. -/
theorem foldlM_fraction (f : Figures) {ds : List Nat} (proper : ∀ d ∈ ds, d < 10) :
    (ds.map Nat.digitChar).foldlM Figures.push? { f with stage := .fraction } =
      some { f with stage := .fraction, fraction := ds.reverse ++ f.fraction } := by
  induction ds generalizing f with
  | nil => rfl
  | cons d ds ih =>
    have small : d < 10 := proper d (.head _)
    have later := ih { f with fraction := d :: f.fraction } fun e he => proper e (.tail _ he)
    simp [Figures.push?, digit?_digitChar small, later]

/-- The point and the digits after it. -/
theorem foldlM_point (negative : Bool) (n : Nat) {d : Nat} {ds : List Nat}
    (proper : ∀ e ∈ d :: ds, e < 10) :
    ('.' :: (d :: ds).map Nat.digitChar).foldlM Figures.push? ⟨wholeStage n, negative, n, [], 0⟩ =
      some ⟨.fraction, negative, n, (d :: ds).reverse, 0⟩ := by
  have small : d < 10 := proper d (.head _)
  have point : Figures.push? ⟨wholeStage n, negative, n, [], 0⟩ '.' =
      some ⟨.point, negative, n, [], 0⟩ := by
    unfold wholeStage
    split <;> rfl
  have first : Figures.push? ⟨.point, negative, n, [], 0⟩ (Nat.digitChar d) =
      some ⟨.fraction, negative, n, [d], 0⟩ := by
    simp [Figures.push?, digit?_digitChar small]
  have later := foldlM_fraction ⟨.fraction, negative, n, [d], 0⟩ fun e he => proper e (.tail _ he)
  rw [List.foldlM_cons, point, List.map_cons, List.reverse_cons]
  exact (congrArg (· >>= _) first).trans later

/-- The mark of the exponent with its sign. -/
theorem foldlM_mark {f : Figures}
    (finished : f.stage = .zero ∨ f.stage = .whole ∨ f.stage = .fraction) (negative : Bool) :
    ['e', if negative then '-' else '+'].foldlM Figures.push? f =
      some { f with stage := .exponentSign negative } := by
  obtain ⟨stage, sign, whole, fraction, exponent⟩ := f
  obtain rfl | rfl | rfl := finished <;> cases negative <;> rfl

/-- The number that the scanner has read after the spelling of a numeral. -/
def figuresOf (n : Numeral) : Figures where
  stage := match n.exponent with
    | some e => .exponent (e < 0)
    | none => if n.fraction.isEmpty then wholeStage n.whole else .fraction
  negative := n.negative
  whole := n.whole
  fraction := n.fraction.reverse
  exponent := (n.exponent.getD 0).natAbs

theorem numeral?_figuresOf (n : Numeral) : (figuresOf n).numeral? = some n := by
  obtain ⟨negative, whole, fraction, exponent⟩ := n
  cases exponent with
  | some e =>
    have signed : (if e < 0 then -(e.natAbs : Int) else e.natAbs) = e := by omega
    simp only [figuresOf, Figures.numeral?, List.reverse_reverse, Option.getD_some,
      decide_eq_true_eq, signed]
  | none =>
    cases fraction with
    | nil =>
      by_cases zero : whole = 0 <;> simp [figuresOf, Figures.numeral?, wholeStage, zero]
    | cons d ds => simp [figuresOf, Figures.numeral?]

/-- The spelling of a numeral after its sign. -/
def unsignedText (n : Numeral) : List Char :=
  digits n.whole ++ ((if n.fraction.isEmpty then [] else '.' :: n.fraction.map Nat.digitChar) ++
    match n.exponent with
    | none => []
    | some e => ['e', if e < 0 then '-' else '+'] ++ digits e.natAbs)

theorem numeralText_eq (n : Numeral) :
    numeralText n = (if n.negative then ['-'] else []) ++ unsignedText n :=
  (List.append_assoc _ _ _).trans (List.append_assoc _ _ _)

/-- The spelling of a numeral is read up to the end of that numeral. -/
theorem foldlM_unsignedText {n : Numeral} (proper : ∀ d ∈ n.fraction, d < 10) :
    (unsignedText n).foldlM Figures.push? ⟨.sign, n.negative, 0, [], 0⟩ = some (figuresOf n) := by
  obtain ⟨negative, whole, fraction, exponent⟩ := n
  -- the stage that the whole part and the fraction lead to
  let middle : Figures :=
    ⟨if fraction.isEmpty then wholeStage whole else .fraction, negative, whole, fraction.reverse, 0⟩
  have point : (if fraction.isEmpty then [] else '.' :: fraction.map Nat.digitChar).foldlM
      Figures.push? ⟨wholeStage whole, negative, whole, [], 0⟩ = some middle := by
    cases fraction with
    | nil => rfl
    | cons d ds => exact foldlM_point negative whole proper
  have finished : middle.stage = .zero ∨ middle.stage = .whole ∨ middle.stage = .fraction := by
    cases fraction with
    | nil => by_cases zero : whole = 0 <;> simp [middle, wholeStage, zero]
    | cons d ds => exact .inr (.inr rfl)
  rw [unsignedText, List.foldlM_append, foldlM_whole, Option.bind_eq_bind, Option.bind_some,
    List.foldlM_append, point, Option.bind_eq_bind, Option.bind_some]
  cases exponent with
  | none => rfl
  | some e =>
    have mark := foldlM_mark finished (e < 0)
    simp only [decide_eq_true_eq] at mark
    have last := foldlM_exponent middle (e < 0) e.natAbs
    rw [List.foldlM_append, mark, Option.bind_eq_bind, Option.bind_some, last]
    rfl

/-! ## 3. The end of a number -/

/-- A text that does not continue a number. -/
def Barred (rest : List Char) : Prop := ∀ c ∈ rest.head?, ∀ f : Figures, f.push? c = none

theorem barred_nil : Barred [] := nofun

/-- Commas and closing brackets end a number. -/
theorem barred_cons {c : Char} (mark : c = ',' ∨ c = ']' ∨ c = '}') (cs : List Char) :
    Barred (c :: cs) := by
  rintro _ ⟨⟩ ⟨stage, _⟩
  obtain rfl | rfl | rfl := mark <;> cases stage <;> rfl

/-- Characters that continue a number stay in it. -/
theorem run_figures {cs : List Char} {f g : Figures} (reads : cs.foldlM Figures.push? f = some g)
    (done : List Token) (rest : List Char) :
    run (.figures f) done (cs ++ rest) = run (.figures g) done rest := by
  induction cs generalizing f with
  | nil =>
    obtain rfl := Option.some.inj reads
    rfl
  | cons c cs ih =>
    rw [List.foldlM_cons, Option.bind_eq_bind, Option.bind_eq_some_iff] at reads
    obtain ⟨f', pushed, later⟩ := reads
    rw [← ih later]
    simp [run, step?, pushed]

/-- A number ends before a text that does not continue it, and at the end of the whole text. -/
theorem run_figures_end {f : Figures} {n : Numeral} (finished : f.numeral? = some n)
    {rest : List Char} (barred : Barred rest) (done : List Token) :
    run (.figures f) done rest = run .gap (.number n :: done) rest := by
  cases rest with
  | nil => simp [run, finish?, finished]
  | cons c cs =>
    have pushed : f.push? c = none := barred c rfl f
    cases first : first? c with
    | none => simp [run, step?, pushed, finished, first]
    | some after => simp [run, step?, pushed, finished, first]

theorem digits_eq_cons (n : Nat) : ∃ d < 10, ∃ cs, digits n = Nat.digitChar d :: cs := by
  induction n using Nat.strongRecOn with
  | _ n ih =>
    by_cases small : n < 10
    · exact ⟨n, small, [], Nat.toDigits_of_lt_base small⟩
    · obtain ⟨d, digit, cs, earlier⟩ := ih (n / 10) (by omega)
      refine ⟨d, digit, cs ++ [Nat.digitChar (n % 10)], ?_⟩
      rw [digits, Nat.toDigits_of_base_le (by decide) (Nat.le_of_not_lt small), ← digits, earlier]
      rfl

/-- A digit begins a number as if it stood where a sign had gone before. -/
theorem run_digits (n : Nat) (done : List Token) (rest : List Char) :
    run .gap done (digits n ++ rest) =
      run (.figures ⟨.sign, false, 0, [], 0⟩) done (digits n ++ rest) := by
  have same : ∀ d < 10, step? .gap (Nat.digitChar d) =
      step? (.figures ⟨.sign, false, 0, [], 0⟩) (Nat.digitChar d) := by decide
  obtain ⟨d, small, cs, spelled⟩ := digits_eq_cons n
  rw [spelled, List.cons_append, run, same d small, ← run]

/-- The spelling of a numeral is scanned as that numeral. -/
theorem run_numeral {n : Numeral} (proper : ∀ d ∈ n.fraction, d < 10) {rest : List Char}
    (barred : Barred rest) (done : List Token) :
    run .gap done (numeralText n ++ rest) = run .gap (.number n :: done) rest := by
  have unsigned : run (.figures ⟨.sign, n.negative, 0, [], 0⟩) done (unsignedText n ++ rest) =
      run .gap (.number n :: done) rest := by
    rw [run_figures (foldlM_unsignedText proper), run_figures_end (numeral?_figuresOf n) barred]
  rw [numeralText_eq, ← unsigned]
  cases sign : n.negative with
  | true => rfl
  | false =>
    simp only [Bool.false_eq_true, ↓reduceIte, List.nil_append, unsignedText, List.append_assoc]
    exact run_digits n.whole done _

/-! ## 4. Tokens -/

/-- Whether the fraction of a number consists of digits. Other tokens have none. -/
def Proper : Token → Prop
  | .number n => ∀ d ∈ n.fraction, d < 10
  | _ => True

/-- Whether a token is a number, so that its end shows only in what follows. -/
def isOpen : Token → Bool
  | .number _ => true
  | _ => false

/-- **The spelling of a token is scanned as that token**, if what follows does not continue it. -/
theorem run_text {t : Token} (proper : Proper t) {rest : List Char}
    (barred : isOpen t → Barred rest) (done : List Token) :
    run .gap done (t.text ++ rest) = run .gap (t :: done) rest := by
  cases t with
  | number n => exact run_numeral proper (barred rfl) done
  | string s => exact run_quoted s done rest
  | bool b => cases b <;> rfl
  | openArray | closeArray | openObject | closeObject | comma | colon | null | garbled => rfl

end Scan
end TaskReplay.Json
