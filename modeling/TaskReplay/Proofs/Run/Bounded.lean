import Mathlib.Algebra.Ring.Nat
import TaskReplay.Proofs.Run.Transparency
import TaskReplay.Proofs.Run.Waiting

/-!
# Runs come to an end

How many calls on devices and screen a step can make is read off its tree, and nothing but a pause
that nobody ends keeps a run from its end:

* `Action.mostCalls` -- the bound, by the form of a step;
* `budget` -- the protocol of a purse of calls; `Script.Costs n m keeps` -- `n` calls are enough for
  `m`, and where it ends with `a` it leaves `keeps a` of them; closed under bind (`Costs.bind`), so
  what is not spent by one script is there for the next;
* `execute_costs`, `run_costs` -- **steps and runs keep to their bounds**, whatever is answered;
* `watch_more` -- the wait for an image ends at its deadline: with any larger allowance of searches it
  goes the same way;
* `Released` -- every pause is followed by a command to go on, or a stop comes;
* `film_bounded` -- **steps and runs come to their end within their bounds if every pause is released**.
-/

namespace TaskReplay

open Script

/-! ## 1. The bound -/

/-- The most calls that a step without inner steps makes. -/
def Deed.mostCalls : Deed → Nat
  | .click _ _ => 2
  | .typeText _ _ | .pressKey _ => 1
  | .hotkey names => 2 * names.length
  | .wait _ _ => 0
  | .findImage _ _ _ _ => 1
  | .waitForImage _ timeout _ _ _ => ((timeout.getD 0).toNat + 99) / 100 + 1

mutual

/-- **The most calls that a step makes.** -/
def Action.mostCalls : Action → Nat
  | .simple _ deed => deed.mostCalls
  | .condition _ _ thenBranch elseBranch =>
    1 + max (mostCallsAll thenBranch) (mostCallsAll elseBranch)
  | .loop _ rule body => rule.limit * (1 + mostCallsAll body)

/-- The most calls that a sequence of steps makes. -/
def mostCallsAll : List Action → Nat
  | [] => 0
  | a :: rest => a.mostCalls + mostCallsAll rest

end

theorem mostCallsAll_eq (as : List Action) : mostCallsAll as = (as.map Action.mostCalls).sum := by
  induction as with
  | nil => rfl
  | cons a as ih => rw [mostCallsAll, ih, List.map_cons, List.sum_cons]

/-- The tenths of a second in a timeout, rounded up. -/
theorem searchesLeft_eq (timeout : UInt64) : searchesLeft timeout = (timeout.toNat + 99) / 100 := rfl

/-- As many tenths of a second reach as far as the timeout. -/
theorem le_searchesLeft (timeout : UInt64) :
    timeout.toNat ≤ searchPoll * searchesLeft timeout := by
  unfold searchesLeft searchPoll
  omega

/-! ## 2. A purse of calls -/

/-- **A purse of calls**: every call takes one out, and none is made once it is empty. -/
def budget : Protocol Request Request.Answer Nat where
  may left q := q.isCall = true → 0 < left
  step left q _ := if q.isCall then left - 1 else left

/-- What a result must leave, where only a script that does not fail leaves something. -/
def leftover {α : Type} (keeps : α → Nat) : Except StepError α → Nat
  | .ok a => keeps a
  | .error _ => 0

/-- **`n` calls are enough for the script**, and where it ends with `a`, `keeps a` of them are left.
What else is in the purse stays there. -/
def Script.Costs {α : Type} (n : Nat) (m : Script α) (keeps : α → Nat) : Prop :=
  ∀ spare, m.run.Follows budget (fun r left => spare + leftover keeps r ≤ left) (spare + n)

/-- `n` calls are enough for the program. -/
def RunProg.Costs {α : Type} (n : Nat) (p : RunProg α) : Prop :=
  ∀ spare, p.Follows budget (fun _ left => spare ≤ left) (spare + n)

section Purse

variable {α β : Type} {n k : Nat} {m : Script α} {keeps keeps' : α → Nat}

theorem Script.Costs.pure {a : α} (h : keeps a ≤ n) :
    Costs n (Pure.pure a : Script α) keeps :=
  fun spare => Nat.add_le_add_left h spare

theorem Script.Costs.throw {e : StepError} : Costs n (MonadExcept.throw e : Script α) keeps :=
  fun spare => Nat.le_add_right spare n

/-- What is in the purse besides is kept. -/
theorem Script.Costs.frame (h : Costs n m keeps) (k : Nat) :
    Costs (n + k) m fun a => keeps a + k := by
  intro spare
  have more : spare + (n + k) = spare + k + n := by omega
  rw [more]
  refine (h (spare + k)).mono fun r left enough => ?_
  cases r with
  | ok a =>
      simp only [leftover] at enough ⊢
      omega
  | error e =>
      simp only [leftover] at enough ⊢
      omega

theorem Script.Costs.mono (h : Costs n m keeps) (le : n ≤ k) (keeps_le : ∀ a, keeps' a ≤ keeps a) :
    Costs k m keeps' := by
  intro spare
  have framed := h.frame (k - n) spare
  have enough : n + (k - n) = k := by omega
  rw [enough] at framed
  refine framed.mono fun r left rest => ?_
  cases r with
  | ok a =>
      have := keeps_le a
      simp only [leftover] at rest ⊢
      omega
  | error e => exact rest

/-- **One script after another**: the second has what the first leaves. -/
theorem Script.Costs.bind {f : α → Script β} {keeps' : β → Nat} (h : Costs n m keeps)
    (hf : ∀ a, Costs (keeps a) (f a) keeps') : Costs n (m >>= f) keeps' := by
  intro spare
  rw [run_bind]
  refine (h spare).bind fun r left enough => ?_
  cases r with
  | error e => exact enough
  | ok a =>
      -- what the first leaves beyond what it must is spare for the second
      obtain ⟨excess, rfl⟩ := Nat.exists_eq_add_of_le enough
      have rest := hf a (spare + excess)
      have same : spare + excess + keeps a = spare + leftover keeps (.ok a) + excess := by
        simp only [leftover]
        omega
      rw [← same]
      refine rest.mono fun r left enough => ?_
      omega

/-- One script after another, each with a purse of its own. -/
theorem Script.Costs.andThen {f : α → Script β} (h : Costs n m fun _ => 0)
    (hf : ∀ a, Costs k (f a) fun _ => 0) : Costs (n + k) (m >>= f) fun _ => 0 :=
  (h.frame k).bind fun a => (hf a).mono (Nat.le_add_left k 0) fun _ => Nat.le_refl 0

theorem costs_ite {c : Prop} [Decidable c] {m' : Script α} (h : Costs n m keeps)
    (h' : Costs n m' keeps) : Costs n (if c then m else m') keeps := by
  split
  · exact h
  · exact h'

/-- A call takes one. -/
theorem costs_device (call : DeviceCall) : Costs (k + 1) (Script.device call) fun _ => k := by
  intro spare
  rw [run_device]
  refine ⟨fun _ => Nat.succ_pos _, fun x => ?_⟩
  cases x with
  | ok u => exact Nat.le_refl _
  | error e =>
      show spare + 0 ≤ spare + (k + 1) - 1
      omega

/-- So does a search. -/
theorem costs_searchFor (s : Settings) (template : String) (confidence : Option Float32)
    (area : Option Region) : Costs (k + 1) (searchFor s template confidence area) fun _ => k := by
  intro spare
  have asked := run_search template (confidence.getD s.confidence) (area.or s.captureRegion)
  rw [show (searchFor s template confidence area).run = _ from asked]
  refine ⟨fun _ => Nat.succ_pos _, fun x => ?_⟩
  cases x with
  | ok m => exact Nat.le_refl _
  | error e =>
      show spare + 0 ≤ spare + (k + 1) - 1
      omega

/-- A program without calls leaves the purse as it is. -/
theorem costs_of_asks {p : RunProg α} (h : p.Asks fun q => q.isCall = false) :
    RunProg.Costs 0 p := by
  intro spare
  refine (h.stays (P := budget) ?_ ?_).mono fun _ left same => Nat.le_of_eq same.symm
  · intro q none_made made
    rw [none_made] at made
    cases made
  · intro q x none_made
    simp [budget, none_made]

theorem silent_of_made {E : StepError → Prop} (h : MadeOf (fun q => q.isCall = false) E m) :
    m.run.Asks fun q => q.isCall = false := by
  refine h.asks_inner.mono fun q hq => ?_
  cases q with
  | device call => exact hq.2 rfl
  | search template confidence area => exact hq.2 rfl
  | _ => rfl

/-- So does a script. -/
theorem costs_of_made {E : StepError → Prop} (h : MadeOf (fun q => q.isCall = false) E m) :
    Costs k m fun _ => k := by
  intro spare
  refine (costs_of_asks (silent_of_made h) (spare + k)).mono fun r left same => ?_
  cases r with
  | ok a => exact same
  | error e => exact Nat.le_trans (Nat.le_add_right spare k) same

end Purse

/-! ## 3. Steps and runs keep to their bounds -/

section Steps

variable (s : Settings)

theorem watch_costs {template : String} {timeout : UInt64} {confidence : Option Float32}
    {disappear : Bool} {deadline : Nat} (left : Nat) :
    Costs (left + 1) (watch s template timeout confidence disappear deadline left) fun _ => 0 := by
  induction left with
  | zero =>
      refine (costs_searchFor s template confidence none).bind fun m => ?_
      exact costs_ite (.pure (Nat.le_refl 0)) .throw
  | succ left ih =>
      have rest : Costs (left + 1)
          (Script.sleep searchPoll >>= fun _ => watch s template timeout confidence disappear deadline left)
          fun _ => 0 := by
        refine Costs.bind ?_ fun _ => ih
        exact costs_of_made (E := fun _ => True) (.sleep searchPoll)
      refine (costs_searchFor s template confidence none).bind fun m => ?_
      refine costs_ite (.pure (Nat.zero_le _)) ?_
      have look : Costs (left + 1) (Script.ask .clock) fun _ => left + 1 :=
        costs_of_made (E := fun _ => True) (.ask _ rfl rfl)
      have late : Costs (left + 1)
          (throw (.timeout template timeout disappear) : Script Unit) fun _ => left + 1 := .throw
      exact look.bind fun now => costs_ite (late.bind fun _ => rest) rest

theorem awaitImage_costs (template : String) (timeout : UInt64) (confidence : Option Float32)
    (disappear : Bool) :
    Costs (searchesLeft timeout + 1) (awaitImage s template timeout confidence disappear)
      fun _ => 0 := by
  have look : Costs (searchesLeft timeout + 1) (Script.ask .clock)
      fun _ => searchesLeft timeout + 1 := costs_of_made (E := fun _ => True) (.ask _ rfl rfl)
  exact look.bind fun now => watch_costs s (searchesLeft timeout)

theorem devices_costs (calls : List DeviceCall) :
    Costs (calls.length + k) (devices calls) fun _ => k := by
  induction calls with
  | nil => exact .pure (Nat.le_add_left k 0)
  | cons call rest ih =>
      have first : Costs (rest.length + k + 1) (Script.device call) fun _ => rest.length + k :=
        costs_device call
      refine Costs.bind (first.mono ?_ fun _ => Nat.le_refl _) fun _ => ih
      simp only [List.length_cons]
      omega

/-- As many calls are left as the keys that were found need. -/
theorem resolveKeys_costs (names : List String) :
    Costs (2 * names.length) (resolveKeys names) fun keys => 2 * keys.length := by
  induction names with
  | nil => exact .pure (Nat.le_refl 0)
  | cons name rest ih =>
      unfold resolveKeys
      split
      · refine (ih.frame 2).bind fun keys => .pure ?_
        simp only [List.length_cons]
        omega
      · have told : Costs (2 * rest.length) (Script.ask (.log (.unknownHotkey name)))
            fun _ => 2 * rest.length := costs_of_made (E := fun _ => True) (.ask _ rfl rfl)
        refine (told.bind fun _ => ih).mono ?_ fun _ => Nat.le_refl _
        simp only [List.length_cons]
        omega

theorem pressTogether_costs (keys : List Key) :
    Costs (2 * keys.length) (pressTogether keys) fun _ => 0 := by
  have downs := devices_costs (k := keys.length) (keys.map .keyDown)
  have ups := devices_costs (k := 0) (keys.reverse.map .keyUp)
  have rest : Costs keys.length (Script.ask (.settle hotkeySettle)) fun _ => keys.length :=
    costs_of_made (E := fun _ => True) (.ask _ rfl rfl)
  simp only [List.length_map, List.length_reverse] at downs ups
  refine (downs.bind fun _ => rest.bind fun _ => ups).mono ?_ fun _ => Nat.le_refl _
  omega

theorem click_costs (kind : ClickKind) (c : Click) : Costs 2 (c.execute s kind) fun _ => 0 := by
  have target : Costs 2 (c.target.resolve s) fun _ => 1 := by
    cases c.target with
    | coordinates x y => exact .pure (by decide)
    | image template =>
        refine (costs_searchFor s template none none).bind fun m => ?_
        cases m.location with
        | none => exact .throw
        | some p => exact .pure (Nat.le_refl 1)
    | stored name =>
        have read : Costs 2 (Script.ask (.read name)) fun _ => 2 :=
          costs_of_made (E := fun _ => True) (.ask _ rfl rfl)
        refine read.bind fun x => ?_
        cases x.bind Value.point? with
        | none => exact .throw
        | some p => exact .pure (by decide)
  refine target.bind fun p => ?_
  have scattered : MadeOf (fun q => q.isCall = false) (fun _ => True)
      (scatter c.randomOffset (p.offset c.offsetX.toInt c.offsetY.toInt)) :=
    scatter_made _ _ fun _ => rfl
  exact (costs_of_made scattered).bind fun p => costs_device _

theorem store_costs (into : Option String) (m : Match) : Costs 0 (store into m) fun _ => 0 :=
  costs_of_made (E := fun _ => True) (store_made into m fun _ _ _ => rfl)

/-- **A step without inner steps.** -/
theorem deed_costs (d : Deed) : Costs d.mostCalls (d.execute s) fun _ => 0 := by
  cases d with
  | click kind place => exact click_costs s kind place
  | typeText text keyDelay => exact costs_device _
  | pressKey name =>
      simp only [Deed.execute]
      split
      · exact costs_device _
      · exact .throw
  | hotkey names =>
      refine (resolveKeys_costs names).bind fun keys => ?_
      have press := pressTogether_costs keys
      have unknown : Costs (2 * keys.length) (throw (.unknownKey names) : Script Unit)
          fun _ => 2 * keys.length := .throw
      exact costs_ite (unknown.bind fun _ => press) press
  | wait duration variation =>
      have wait : MadeOf (fun q => q.isCall = false) (fun _ => True)
          ((Deed.wait duration variation).execute s) := by
        refine (deed_made s (.wait duration variation)).mono ?_ fun _ _ => trivial
        intro q may
        obtain ⟨range, rfl⟩ := may
        rfl
      exact costs_of_made wait
  | findImage template confidence region storeInto =>
      exact (costs_searchFor s template confidence region).bind fun m => store_costs storeInto m
  | waitForImage template timeout confidence disappear storeInto =>
      have wait := awaitImage_costs s template (timeout.getD 0) confidence disappear
      rw [searchesLeft_eq] at wait
      exact wait.bind fun m => costs_ite (store_costs storeInto m) (.pure (Nat.le_refl 0))

theorem isVisible_costs (template : String) : Costs 1 (isVisible s template) fun _ => 0 :=
  (costs_searchFor s template none none).bind fun _ => .pure (Nat.le_refl 0)

theorem demand_costs {id : String} {field : Field} (v : Option String) :
    Costs k (demand id field v) fun _ => k := by
  cases v with
  | none => exact .throw
  | some v => exact .pure (Nat.le_refl k)

/-- A test makes one call at most. -/
theorem holds_costs (id : String) (t : Test) : Costs 1 (t.holds s id) fun _ => 0 := by
  unfold Test.holds
  split
  · exact (demand_costs _).bind fun template => isVisible_costs s template
  · refine (demand_costs _).bind fun template => (isVisible_costs s template).bind fun _ => ?_
    exact .pure (Nat.le_refl 0)
  · refine (demand_costs _).bind fun name => (demand_costs _).bind fun expected => ?_
    have read : Costs 1 (Script.ask (.read name)) fun _ => 1 :=
      costs_of_made (E := fun _ => True) (.ask _ rfl rfl)
    exact read.bind fun x => .pure (by decide)

/-- So does the rule of a loop before each round. -/
theorem proceeds_costs (id : String) (r : LoopRule) (done : Nat) :
    Costs 1 (r.proceeds s id done) fun _ => 0 := by
  unfold LoopRule.proceeds
  split
  · exact .pure (by decide)
  · exact .pure (by decide)
  · exact (demand_costs _).bind fun template => isVisible_costs s template
  · refine (demand_costs _).bind fun template => (isVisible_costs s template).bind fun _ => ?_
    exact .pure (Nat.le_refl 0)

/-- **A loop**: every round has its look and its body, and there are no more than are left. -/
theorem iterate_costs (id : String) (r : LoopRule) {body : Script Unit} {n : Nat}
    (h : Costs n body fun _ => 0) (left done : Nat) :
    Costs (left * (1 + n)) (r.iterate s id body left done) fun _ => 0 := by
  have look (k : Nat) : Costs k boundary fun _ => k :=
    costs_of_made (E := fun _ => True) .boundary
  induction left generalizing done with
  | zero =>
      have log : MadeOf (fun q => q.isCall = false) (fun _ => True)
          (if r.wantsMore done then Script.ask (.log (.loopLimit id r.limit)) else pure ()) :=
        made_ite (.ask _ rfl rfl) (.pure _)
      exact ((look 0).bind fun _ => costs_of_made log).mono (Nat.zero_le _) fun _ => Nat.le_refl 0
  | succ left ih =>
      have round : Costs (1 + (n + left * (1 + n)))
          (r.proceeds s id done >>= fun more => if more then body >>= fun _ =>
            r.iterate s id body left (done + 1) else pure ()) fun _ => 0 := by
        refine (proceeds_costs s id r done).andThen fun more => ?_
        exact costs_ite (h.andThen fun _ => ih (done + 1)) (.pure (Nat.zero_le _))
      have enough : 1 + (n + left * (1 + n)) = (left + 1) * (1 + n) := by
        rw [Nat.succ_mul]
        omega
      rw [← enough]
      exact (look _).bind fun _ => round

theorem pauseFor_costs (delay : Option UInt64) : Costs k (pauseFor delay) fun _ => k :=
  costs_of_made (E := fun _ => True) (pauseFor_made delay)

mutual

/-- **A step keeps to its bound**, whatever is answered. -/
theorem execute_costs : (a : Action) → Costs a.mostCalls (a.execute s) fun _ => 0
  | .simple _ deed => deed_costs s deed
  | .condition h test thenBranch elseBranch => by
      refine (holds_costs s h.id test).andThen fun x => costs_ite ?_ ?_
      · exact (executeAll_costs thenBranch).mono (Nat.le_max_left _ _) fun _ => Nat.le_refl 0
      · exact (executeAll_costs elseBranch).mono (Nat.le_max_right _ _) fun _ => Nat.le_refl 0
  | .loop h rule body => iterate_costs s h.id rule (executeAll_costs body) rule.limit 0

/-- So does a sequence. -/
theorem executeAll_costs : (as : List Action) →
    Costs (mostCallsAll as) (executeAll s as) fun _ => 0
  | [] => .pure (Nat.le_refl 0)
  | a :: rest => by
      have first := (execute_costs a).andThen fun _ =>
        (pauseFor_costs a.header.delayAfter).bind fun _ => executeAll_costs rest
      exact (pauseFor_costs a.header.delayBefore).bind fun _ => first

end

/-! ### Runs -/

theorem RunProg.Costs.bind {α β : Type} {n k : Nat} {p : RunProg α} {f : α → RunProg β}
    (h : RunProg.Costs n p) (hf : ∀ a, RunProg.Costs k (f a)) : RunProg.Costs (n + k) (p.bind f) := by
  intro spare
  have more : spare + (n + k) = spare + k + n := by omega
  rw [more]
  refine (h (spare + k)).bind fun a left enough => ?_
  -- what the first program spared stays in the purse
  obtain ⟨excess, rfl⟩ := Nat.exists_eq_add_of_le enough
  have same : spare + k + excess = spare + excess + k := by omega
  rw [same]
  exact (hf a (spare + excess)).mono fun b left enough => by omega

theorem RunProg.Costs.mono {α : Type} {n k : Nat} {p : RunProg α} (h : RunProg.Costs n p)
    (le : n ≤ k) : RunProg.Costs k p := by
  intro spare
  have more : spare + k = spare + (k - n) + n := by omega
  rw [more]
  exact (h (spare + (k - n))).mono fun a left enough => by omega

/-- A request that is no call. -/
theorem RunProg.Costs.ask {α : Type} {n : Nat} {q : Request} {next : q.Answer → RunProg α}
    (silent : q.isCall = false) (h : ∀ x, RunProg.Costs n (next x)) :
    RunProg.Costs n (.ask q next) := by
  refine fun spare => ⟨fun made => ?_, fun x => ?_⟩
  · rw [silent] at made
    cases made
  · have kept : budget.step (spare + n) q x = spare + n := by simp [budget, silent]
    rw [kept]
    exact h x spare

/-- A script as the program it is. -/
theorem Script.Costs.program {α : Type} {n : Nat} {m : Script α} (h : Costs n m fun _ => 0) :
    RunProg.Costs n m.run :=
  fun spare => (h spare).mono fun _ _ enough => Nat.le_trans (Nat.le_add_right spare _) enough

theorem endStopped_silent (i : Nat) :
    ((endStopped i).bind fun r => .done (some r)).Asks fun q => q.isCall = false :=
  ⟨rfl, fun _ => trivial⟩

theorem gate_silent (i : Nat) : (gate i).Asks fun q => q.isCall = false := by
  refine ⟨rfl, fun _ => Prog.Asks.bind ⟨rfl, fun pending => ?_⟩ fun _ => ⟨rfl, fun _ => trivial⟩⟩
  cases pending with
  | false => trivial
  | true => exact ⟨rfl, fun _ => ⟨rfl, fun _ => ⟨rfl, fun _ => ⟨rfl, fun _ => trivial⟩⟩⟩⟩

theorem closeStep_silent (total i : Nat) (a : Action) (x : Except StepError Unit) :
    (closeStep s total i a x).Asks fun q => q.isCall = false := by
  cases x with
  | ok u =>
      have pause : MadeOf (fun q => q.isCall = false) (fun _ => True) (a.recover s) :=
        recover_made s a fun _ => rfl
      refine ⟨rfl, fun _ => (silent_of_made pause).bind fun r => ?_⟩
      cases r with
      | ok u => trivial
      | error e => exact endStopped_silent (i + 1)
  | error e =>
      by_cases he : e = .interrupted
      · subst he
        exact endStopped_silent i
      · rw [closeStep.eq_3 s total i a e he]
        split
        · exact ⟨rfl, fun _ => ⟨rfl, fun _ => trivial⟩⟩
        · exact ⟨rfl, fun _ => ⟨rfl, fun _ => trivial⟩⟩

/-- One step of the walk costs what the step costs. -/
theorem walkStep_costs (total i : Nat) (a : Action) :
    RunProg.Costs a.mostCalls (walkStep s total i a) := by
  have performed : Costs a.mostCalls (a.perform s) fun _ => 0 :=
    (pauseFor_costs a.header.delayBefore).bind fun _ => execute_costs s a
  rw [walkStep_eq, ← Nat.zero_add a.mostCalls]
  refine (costs_of_asks (gate_silent i)).bind fun stop => ?_
  cases stop with
  | true => exact (costs_of_asks (endStopped_silent i)).mono (Nat.zero_le _)
  | false =>
      refine RunProg.Costs.ask rfl fun _ => ?_
      exact performed.program.bind fun x => costs_of_asks (closeStep_silent s total i a x)

theorem runFrom_costs (total i : Nat) (as : List Action) :
    RunProg.Costs (mostCallsAll as) (runFrom s total i as) := by
  induction as generalizing i with
  | nil => exact costs_of_asks ⟨rfl, fun _ => trivial⟩
  | cons a as ih =>
      refine (walkStep_costs s total i a).bind fun o => ?_
      cases o with
      | some r => exact (costs_of_asks (by trivial)).mono (Nat.zero_le _)
      | none => exact ih (i + 1)

/-- **A run keeps to the sum of its steps.** -/
theorem run_costs (t : Task) : RunProg.Costs (mostCallsAll t.actions) (t.run s) :=
  RunProg.Costs.ask rfl fun _ => runFrom_costs s _ 0 t.actions

end Steps

/-! ## 4. Films -/

section Films

variable {w : Surroundings} {plan : Plan} {f : Film} {α : Type}

/-- **A film has no more calls than its program may make.** -/
theorem calls_le_budget {post : α → Nat → Prop} {p : RunProg α} {left : Nat}
    (h : p.Follows budget post left) :
    (f.play w plan p.quiet).2.calls.length ≤ f.calls.length + left := by
  induction p generalizing f left with
  | done a => exact Nat.le_add_right _ _
  | ask q next ih =>
      have paid (x : q.Answer) :
          (f.take w plan q).calls.length + budget.step left q x ≤ f.calls.length + left := by
        rw [Film.calls_take, List.length_append]
        cases call : q.isCall with
        | false => simp [budget, call]
        | true =>
            have some_left := h.1 call
            simp only [budget, call, List.filter_cons, if_true, List.filter_nil, List.length_singleton]
            omega
      simp only [RunProg.quiet, Film.play]
      split
      · exact Nat.le_trans (ih _ (h.2 _)) (paid _)
      · exact Nat.le_trans (Nat.le_add_right _ _) (paid (f.answer w (f.take w plan q) q))

/-- **A run that does not come to its end waits with a pause pending.** -/
theorem ends_or_pending (p : CueProg α) (f : Film) : (∃ a, (f.play w plan p).1 = some a) ∨
    (f.play w plan p).1 = none ∧ (f.play w plan p).2.scene.control.pausePending = true := by
  induction p generalizing f with
  | done a => exact .inl ⟨a, rfl⟩
  | ask c next ih =>
      cases c with
      | enter place => exact ih () (f.cut (.enter place))
      | round place => exact ih () (f.cut (.round place))
      | request q =>
          simp only [Film.play]
          split
          · exact ih _ _
          · next goes_on => exact .inr ⟨rfl, (ended_or_pending f q).resolve_left goes_on⟩

/-- **Two films that come to the same**: one result, and the same calls in the same order. -/
def SameEnd (x y : Option α × Film) : Prop := y.1 = x.1 ∧ y.2.calls = x.2.calls

/-- A request with one answer, and then what comes to the same. -/
theorem SameEnd.ask {q : Request} {next next' : q.Answer → CueProg α}
    (rest : let g := f.take w plan q
      SameEnd (g.play w plan (next (f.answer w g q))) (g.play w plan (next' (f.answer w g q)))) :
    SameEnd (f.play w plan (.ask (.request q) next)) (f.play w plan (.ask (.request q) next')) := by
  simp only [Film.play]
  split
  · exact rest
  · exact ⟨rfl, rfl⟩

/-- A request that heeds no wish is answered. -/
theorem play_calm {q : Request} (calm : q.heeds = false) (next : q.Answer → CueProg α) :
    f.play w plan (.ask (.request q) next) =
      (f.take w plan q).play w plan (next (f.answer w (f.take w plan q) q)) := by
  obtain ⟨due, ended⟩ := Film.ended_calm (w := w) calm f
  simp only [Film.play, ended f plan rfl rfl, Option.isSome_some, if_true]

/-- A look at the clock tells whether a time is past. -/
theorem play_look {due : Nat} {late early : RunProg α} :
    f.play w plan (RunProg.quiet (.ask .clock fun now => if due ≤ now then late else early)) =
      (f.take w plan .clock).play w plan
        (RunProg.quiet (if due ≤ (f.take w plan .clock).now then late else early)) :=
  play_calm (q := .clock) rfl _

/-- A search that ends both waits, or after which both come to the same. -/
theorem SameEnd.seek {template : String} {accuracy : Float32} {area : Option Region} {disappear : Bool}
    {missed missed' : RunProg (Except StepError Match)}
    (on : ∀ g : Film, f.now ≤ g.now → SameEnd (g.play w plan missed.quiet) (g.play w plan missed'.quiet)) :
    SameEnd (f.play w plan (RunProg.quiet (seek template accuracy area disappear missed)))
      (f.play w plan (RunProg.quiet (seek template accuracy area disappear missed'))) := by
  refine SameEnd.ask (q := .search template accuracy area) ?_
  intro g
  cases f.answer w g (.search template accuracy area) with
  | error e => exact ⟨rfl, rfl⟩
  | ok m =>
      dsimp only
      cases m.found != disappear with
      | true => exact ⟨rfl, rfl⟩
      | false => exact on g (le_now_take ..)

/-- **The wait for an image ends at its deadline**: where as many tenths of a second as it has searches
left reach that far, it makes no difference whether it has more. -/
theorem watch_more {s : Settings} {template : String} {timeout : UInt64}
    {confidence : Option Float32} {disappear : Bool} {deadline : Nat} (left more : Nat)
    (reach : deadline ≤ f.now + searchPoll * left) :
    SameEnd (f.play w plan (watch s template timeout confidence disappear deadline left).quiet.run)
      (f.play w plan
        (watch s template timeout confidence disappear deadline (left + more)).quiet.run) := by
  unfold Script.quiet
  induction left generalizing f with
  | zero =>
      cases more with
      | zero => exact ⟨rfl, rfl⟩
      | succ more =>
          rw [Nat.zero_add, run_watch, run_watch]
          refine SameEnd.seek fun g searched => ?_
          -- the deadline has passed, and the look at the clock shows it
          have looked : g.now ≤ (g.take w plan .clock).now := le_now_take ..
          have late : deadline ≤ (g.take w plan .clock).now := by omega
          show SameEnd (g.play w plan (.done _)) (g.play w plan (RunProg.quiet (.ask .clock _)))
          rw [play_look, if_pos late]
          exact ⟨rfl, by simp [RunProg.quiet, Film.play, Film.calls_take, Request.isCall]⟩
  | succ left ih =>
      rw [Nat.succ_add, run_watch, run_watch]
      refine SameEnd.seek fun g searched => ?_
      refine SameEnd.ask (q := .clock) ?_
      intro g'
      have looked : g.now ≤ g'.now := le_now_take ..
      by_cases late : deadline ≤ g'.now
      · simp [Film.answer, late, SameEnd]
      · simp only [Film.answer, late, if_false]
        refine SameEnd.ask (q := .sleep searchPoll) ?_
        intro h
        cases stop : h.scene.control.stopped with
        | true => simp [Film.answer, stop, SameEnd]
        | false =>
            have slept : h.now = g'.now + searchPoll := now_sleep stop
            simp only [Film.answer, stop]
            refine ih ?_
            rw [Nat.mul_succ] at reach
            omega

end Films

/-! ## 5. Ends -/

/-- Every pause is followed by a command to go on, unless there is a stop. -/
def Released (commands : List Wish) : Prop :=
  ∀ before after, commands = before ++ .pause :: after → .resume ∈ after ∨ .stop ∈ commands

theorem unpaused_of_released {commands : List Wish} (h : Released commands) :
    (commands.foldl Control.wish .fresh).pausePending = false := by
  by_cases stop : .stop ∈ commands
  · have stopped : (commands.foldl Control.wish .fresh).stopped = true :=
      (Control.stopped_foldl_wish _ _).mpr (.inr stop)
    simp [Control.pausePending, stopped]
  · exact unpaused_of_resumed fun before after same => (h before after same).resolve_right stop

/-- **A film within its bound**: it has no more than `n` calls, and comes to its end if others wish what
`commands` says. -/
structure Bounded {α : Type} (commands : List Wish) (plan : Plan) (n : Nat) (x : Option α × Film) :
    Prop where
  calls : x.2.calls.length ≤ n
  ends : Issued commands plan x → ∃ a, x.1 = some a

theorem bounded_play {w : Surroundings} {commands : List Wish} (released : Released commands)
    {plan : Plan} (start : Nat) (context : Context) {α : Type} {n : Nat} {p : RunProg α}
    (h : RunProg.Costs n p) :
    Bounded commands plan n (Film.play w plan p.quiet (.blank plan start context)) where
  calls := by
    have within : (Film.play w plan p.quiet (.blank plan start context)).2.calls.length ≤
        (Film.blank plan start context).calls.length + (0 + n) := calls_le_budget (h 0)
    simpa [Film.calls, Film.asked, Film.blank] using within
  ends issued := by
    rcases ends_or_pending (w := w) p.quiet (.blank plan start context) with ends | ⟨waits, pending⟩
    · exact ends
    · have control := control_play (w := w) p.quiet _ (watched_blank plan start context).control
      rw [control, wished, issued.all waits, unpaused_of_released released] at pending
      cases pending

/-- **Every script is bounded.** Whatever devices and screen answer to which of their calls -- an answer
may depend on all calls before it, and so on how many there were --, whatever the variables hold, and
whatever is wished, as long as every pause is released: a step comes to its end, and so does a run, with
no more calls than the form of its steps says. For the wait for an image it is the deadline that ends
it: it could have any number of searches more and would go no other way. -/
theorem film_bounded (w : Surroundings) (plan : Plan) (s : Settings) (start : Nat)
    (context : Context) {commands : List Wish} (released : Released commands) :
    (∀ a : Action, Bounded commands plan a.mostCalls
      (Film.play w plan (a.execute s).quiet.run (.blank plan start context))) ∧
    (∀ t : Task, Bounded commands plan (t.actions.map Action.mostCalls).sum
      (Film.play w plan (t.run s).quiet (.blank plan start context))) ∧
    ∀ (f : Film) (template : String) (timeout : UInt64) (confidence : Option Float32)
      (disappear : Bool) (more : Nat),
      let wait left := watch s template timeout confidence disappear (f.now + timeout.toNat) left
      SameEnd (f.play w plan (wait (searchesLeft timeout)).quiet.run)
        (f.play w plan (wait (searchesLeft timeout + more)).quiet.run) := by
  refine ⟨fun a => ?_, fun t => ?_, fun f template timeout confidence disappear more => ?_⟩
  · exact bounded_play released start context (execute_costs s a).program
  · rw [← mostCallsAll_eq]
    exact bounded_play released start context (run_costs s t)
  · exact watch_more _ more (Nat.add_le_add_left (le_searchesLeft timeout) f.now)

/-- A pause in the second wait of `keyLoop`, and a stop while the loop waits. -/
def pauseThenStop : Plan :=
  ⟨[], fun n => match n with
    | 12 => [(3, [.pause])]
    | 13 => [(40, [.stop])]
    | _ => []⟩

/-- Nobody resumes `keyLoop`, but it is stopped; it has made two of its five calls by then, and could
never make more than ten. -/
theorem film_bounded_keys :
    let x := Film.play .prompt pauseThenStop (keyLoop.run .initial).quiet
      (.blank pauseThenStop 0 .fresh)
    Released [.pause, .stop] ∧ heard pauseThenStop x.2.shots = [.pause, .stop] ∧
      x.2.calls.length = 2 ∧ (keyLoop.actions.map Action.mostCalls).sum = 10 ∧ ∃ r, x.1 = some r := by
  intro x
  have released : Released [.pause, .stop] := fun _ _ _ => .inr (by decide)
  have given : heard pauseThenStop x.2.shots = [.pause, .stop] := by decide +kernel
  have issued : Issued [.pause, .stop] pauseThenStop x := ⟨given ▸ List.prefix_refl _, fun _ => given⟩
  have bounded := (film_bounded .prompt pauseThenStop .initial 0 .fresh released).2.1 keyLoop
  exact ⟨released, given, by decide +kernel, by decide +kernel, bounded.ends issued⟩

end TaskReplay
