import TaskReplay.Proofs.Conversation.Protocol
import TaskReplay.Run.Step

/-!
# What a step is made of

A step of a task works with devices, the screen, its own waits and its variables. It has no say about
the walk that it is part of, and it heeds a stop only in its waits and before each round of a loop:

* `Script.Asks P m` -- every request of the script is one of `P`;
* `Script.MadeOf P E` -- scripts put together from requests of `P` that heed no wish, from sleeps,
  and from the look at pause and stop before a round; these two fail with `interrupted`, calls and
  searches with what is answered, and all else with an error of `E`;
* `seek`, `seekOn` -- a search and what follows it; `run_watch` -- the wait for an image is made of these;
* `Action.May`, `Action.Fails` -- what one step asks and how it fails, inner steps left aside;
* `execute_made`, `executeAll_made` -- **a step and its inner steps, however deep, are made like
  that**, so they tell observers nothing and note nothing about the run (`MadeOf.asks`).
-/

namespace TaskReplay

/-- Whether a request may come from within a step: news and notes are left to the walk. -/
def Request.inner : Request → Bool
  | .tell _ | .mark _ => false
  | _ => true

/-- Whether a request heeds no wish about the run. -/
def Request.calm : Request → Bool
  | .tell _ | .mark _ | .sleep _ | .stopped | .pausePending | .awaitResume => false
  | _ => true

theorem Request.inner_of_calm {q : Request} (h : q.calm = true) : q.inner = true := by
  cases q <;> first | rfl | cases h

/-- Whether a request heeds no wish and is neither a call nor a search, so that no answer to it is a
failure. -/
def Request.plain : Request → Bool
  | .settle _ | .draw _ | .clock | .read _ | .write _ _ | .log _ => true
  | _ => false

theorem Request.calm_of_plain {q : Request} (h : q.plain = true) : q.calm = true := by
  cases q <;> first | rfl | cases h

/-- Requests that may come from within a step. -/
abbrev Inner (q : Request) : Prop := q.inner = true

namespace Script

variable {α β : Type} {P P' : Request → Prop} {E E' : StepError → Prop}

/-! ## 1. Laws of scripts -/

/-- Every request of the script is one of `P`, whatever the answers. -/
def Asks (P : Request → Prop) (m : Script α) : Prop := Prog.Asks P m.run

theorem run_bind {Q : Type} {A : Q → Type} (m : ExceptT StepError (Prog Q A) α)
    (f : α → ExceptT StepError (Prog Q A) β) :
    (m >>= f).run = m.run.bind fun
      | .ok a => (f a).run
      | .error e => .done (.error e) := by
  show m.run.bind (ExceptT.bindCont f) = _
  congr 1
  funext r
  cases r <;> rfl

theorem run_ask (q : Request) : (Script.ask q).run = .ask q fun x => .done (.ok x) := rfl

theorem run_device (call : DeviceCall) :
    (Script.device call).run = .ask (.device call) fun x => .done (x.mapError .dispatch) := by
  show Prog.ask (Request.device call) _ = Prog.ask (Request.device call) _
  congr 1
  funext x
  cases x <;> rfl

/-- A search that fails with what is answered. -/
def search (template : String) (confidence : Float32) (area : Option Region) : Script Match := do
  orFail (← ask (.search template confidence area))

theorem run_search (template : String) (confidence : Float32) (area : Option Region) :
    (Script.search template confidence area).run =
      .ask (.search template confidence area) fun x => .done (x.mapError .dispatch) := by
  show Prog.ask (Request.search template confidence area) _ =
    Prog.ask (Request.search template confidence area) _
  congr 1
  funext x
  cases x <;> rfl

/-- What a port answers is never that the step was interrupted. -/
theorem dispatched_ne_interrupted (x : Except Failure α) :
    x.mapError StepError.dispatch ≠ .error .interrupted := by
  cases x <;> nofun

theorem run_sleep (ms : Nat) :
    (Script.sleep ms).run = .ask (.sleep ms) fun full =>
      .done (if full then .ok () else .error .interrupted) := by
  show Prog.ask (Request.sleep ms) _ = Prog.ask (Request.sleep ms) _
  congr 1
  funext full
  cases full <;> rfl

theorem run_boundary :
    boundary.run = .ask .awaitResume fun _ => .ask .stopped fun stopped =>
      .done (if stopped then .error .interrupted else .ok ()) := by
  show Prog.ask Request.awaitResume (fun _ => Prog.ask Request.stopped _) =
    Prog.ask Request.awaitResume fun _ => Prog.ask Request.stopped _
  congr 2
  funext _
  congr 1
  funext stopped
  cases stopped <;> rfl

theorem Asks.bind {m : Script α} {f : α → Script β} (hm : Asks P m) (hf : ∀ a, Asks P (f a)) :
    Asks P (m >>= f) := by
  unfold Asks
  rw [run_bind]
  refine Prog.Asks.bind hm fun r => ?_
  cases r with
  | ok a => exact hf a
  | error e => trivial

/-- **Scripts that heed wishes in sleeps and at boundaries**, and nowhere else. Besides these they ask
what is in `P`, and of themselves they fail with what is in `E`. -/
inductive MadeOf (P : Request → Prop) (E : StepError → Prop) : {α : Type} → Script α → Prop where
  | pure {α : Type} (a : α) : MadeOf P E (pure a : Script α)
  | throw {α : Type} (e : StepError) (other : e ≠ .interrupted) (own : E e) :
      MadeOf P E (throw e : Script α)
  | ask (q : Request) (plain : q.plain = true) (may : P q) : MadeOf P E (Script.ask q)
  | device (call : DeviceCall) (may : P (.device call)) : MadeOf P E (Script.device call)
  | search (template : String) (confidence : Float32) (area : Option Region)
      (may : P (.search template confidence area)) :
      MadeOf P E (Script.search template confidence area)
  | sleep (ms : Nat) : MadeOf P E (Script.sleep ms)
  | boundary : MadeOf P E boundary
  | bind {α β : Type} {m : Script α} {f : α → Script β} (hm : MadeOf P E m)
      (hf : ∀ a, MadeOf P E (f a)) : MadeOf P E (m >>= f)

/-- Such scripts, whatever they ask besides and fail with. -/
abbrev Made (m : Script α) : Prop := MadeOf (fun _ => True) (fun _ => True) m

theorem MadeOf.mono (hP : ∀ q, P q → P' q) (hE : ∀ e, E e → E' e) {m : Script α}
    (h : MadeOf P E m) : MadeOf P' E' m := by
  induction h with
  | pure a => exact .pure a
  | throw e other own => exact .throw e other (hE e own)
  | ask q plain may => exact .ask q plain (hP q may)
  | device call may => exact .device call (hP _ may)
  | search template confidence area may => exact .search template confidence area (hP _ may)
  | sleep ms => exact .sleep ms
  | boundary => exact .boundary
  | bind _ _ ihm ihf => exact .bind ihm ihf

theorem MadeOf.made {m : Script α} (h : MadeOf P E m) : Made m :=
  h.mono (fun _ _ => trivial) (fun _ _ => trivial)

/-- Such a script leaves the walk alone, and what it asks that heeds no wish is in `P`. -/
theorem MadeOf.asks_inner {m : Script α} (h : MadeOf P E m) :
    Asks (fun q => Inner q ∧ (q.calm = true → P q)) m := by
  induction h with
  | pure a => trivial
  | throw e other own => trivial
  | ask q plain may =>
      exact ⟨⟨Request.inner_of_calm (Request.calm_of_plain plain), fun _ => may⟩, fun _ => trivial⟩
  | device call may =>
      unfold Asks
      rw [run_device]
      exact ⟨⟨rfl, fun _ => may⟩, fun _ => trivial⟩
  | search template confidence area may =>
      unfold Asks
      rw [run_search]
      exact ⟨⟨rfl, fun _ => may⟩, fun _ => trivial⟩
  | sleep ms =>
      unfold Asks
      rw [run_sleep]
      exact ⟨⟨rfl, nofun⟩, fun _ => trivial⟩
  | boundary =>
      unfold Asks
      rw [run_boundary]
      exact ⟨⟨rfl, nofun⟩, fun _ => ⟨⟨rfl, nofun⟩, fun _ => trivial⟩⟩
  | bind _ _ ihm ihf => exact ihm.bind ihf

theorem MadeOf.asks {m : Script α} (h : MadeOf P E m) : Asks Inner m :=
  Prog.Asks.mono (fun _ hq => hq.1) h.asks_inner

theorem made_ite {c : Prop} [Decidable c] {m m' : Script α} (h : MadeOf P E m)
    (h' : MadeOf P E m') : MadeOf P E (if c then m else m') := by
  split
  · exact h
  · exact h'

end Script

open Script

variable {α : Type} {P : Request → Prop} {E : StepError → Prop} (s : Settings)

/-! ## 2. Parts of steps -/

theorem pauseFor_made (delay : Option UInt64) : MadeOf P E (pauseFor delay) := by
  cases delay with
  | none => exact .pure ()
  | some ms => exact .sleep _

theorem draw_made (range : UInt64) (may : ∀ n, P (.draw n)) : MadeOf P E (Script.draw range) :=
  made_ite (.pure _) ((MadeOf.ask _ rfl (may _)).bind fun _ => .pure _)

theorem store_made (into : Option String) (m : Match)
    (may : ∀ name v, into = some name → P (.write name v)) : MadeOf P E (store into m) := by
  cases into with
  | none => exact .pure ()
  | some name => exact .ask _ rfl (may name _ rfl)

section Search

variable {template : String} {confidence : Option Float32} {area : Option Region}

theorem searchFor_made
    (may : P (.search template (confidence.getD s.confidence) (area.or s.captureRegion))) :
    MadeOf P E (searchFor s template confidence area) := .search _ _ _ may

theorem isVisible_made (may : P (.search template s.confidence s.captureRegion)) :
    MadeOf P E (isVisible s template) :=
  (searchFor_made s may).bind fun _ => .pure _

theorem watch_made {timeout : UInt64} {disappear : Bool}
    (may : P (.search template (confidence.getD s.confidence) s.captureRegion)) (look : P .clock)
    (late : E (.timeout template timeout disappear)) (deadline left : Nat) :
    MadeOf P E (watch s template timeout confidence disappear deadline left) := by
  induction left with
  | zero =>
      exact (searchFor_made s may).bind fun _ => made_ite (.pure _) (.throw _ nofun late)
  | succ left ih =>
      refine (searchFor_made s may).bind fun _ =>
        made_ite (.pure _) ((MadeOf.ask _ rfl look).bind fun _ => ?_)
      have again := (MadeOf.sleep searchPoll).bind fun _ => ih
      exact made_ite ((MadeOf.throw (.timeout template timeout disappear) nofun late).bind
        fun _ => again) again

theorem awaitImage_made {timeout : UInt64} {disappear : Bool}
    (may : P (.search template (confidence.getD s.confidence) s.captureRegion)) (look : P .clock)
    (late : E (.timeout template timeout disappear)) :
    MadeOf P E (awaitImage s template timeout confidence disappear) :=
  (MadeOf.ask _ rfl look).bind fun _ => watch_made s may look late _ _

end Search

section Seeking

variable {st : Settings} {template : String} {timeout : UInt64} {confidence : Option Float32}
  {disappear : Bool}

/-- A search that is over if it fails or shows what is waited for; what follows it if it missed. -/
def seek (template : String) (confidence : Float32) (area : Option Region) (disappear : Bool)
    (missed : RunProg (Except StepError Match)) : RunProg (Except StepError Match) :=
  .ask (.search template confidence area) fun x =>
    match x with
    | .error e => .done (.error (.dispatch e))
    | .ok m => if m.found != disappear then .done (.ok m) else missed

/-- What a wait for an image does after a search that missed: it is late, or it waits and searches
again. -/
def seekOn (st : Settings) (template : String) (timeout : UInt64) (confidence : Option Float32)
    (disappear : Bool) (deadline : Nat) : (left : Nat) → RunProg (Except StepError Match)
  | 0 => .done (.error (.timeout template timeout disappear))
  | left + 1 =>
    .ask .clock fun now =>
      if deadline ≤ now then .done (.error (.timeout template timeout disappear)) else
        .ask (.sleep searchPoll) fun full =>
          if full then (watch st template timeout confidence disappear deadline left).run
          else .done (.error .interrupted)

theorem run_seek (missed : Script Match) :
    (searchFor st template confidence none >>= fun m =>
        if m.found != disappear then pure m else missed).run =
      seek template (confidence.getD st.confidence) st.captureRegion disappear missed.run := by
  show Prog.ask (Request.search _ _ _) _ = Prog.ask (Request.search _ _ _) _
  congr 1
  funext x
  cases x with
  | error e => rfl
  | ok m =>
      show ExceptT.run (if m.found != disappear then _ else _) =
        if m.found != disappear then _ else _
      cases m.found != disappear <;> rfl

/-- **The wait for an image**, search by search. -/
theorem run_watch (deadline left : Nat) :
    (watch st template timeout confidence disappear deadline left).run =
      seek template (confidence.getD st.confidence) st.captureRegion disappear
        (seekOn st template timeout confidence disappear deadline left) := by
  cases left with
  | zero => exact run_seek _
  | succ left =>
      refine (run_seek _).trans (congrArg _ ?_)
      show Prog.ask Request.clock _ = Prog.ask Request.clock _
      congr 1
      funext now
      show ExceptT.run (if deadline ≤ now then _ else _) = if deadline ≤ now then _ else _
      by_cases late : deadline ≤ now
      · rw [if_pos late, if_pos late]
        rfl
      · rw [if_neg late, if_neg late]
        show Prog.ask (Request.sleep searchPoll) _ = Prog.ask (Request.sleep searchPoll) _
        congr 1
        funext full
        cases full <;> rfl

end Seeking

theorem scatter_made (range : UInt32) (p : Point) (may : ∀ n, P (.draw n)) :
    MadeOf P E (scatter range p) :=
  made_ite (.pure _) ((draw_made _ may).bind fun _ => (draw_made _ may).bind fun _ => .pure _)

theorem devices_made (calls : List DeviceCall) (may : ∀ call ∈ calls, P (.device call)) :
    MadeOf P E (devices calls) := by
  induction calls with
  | nil => exact .pure ()
  | cons call rest ih =>
      refine (MadeOf.device call (may call List.mem_cons_self)).bind fun _ => ?_
      exact ih fun call h => may call (List.mem_cons_of_mem _ h)

theorem pressTogether_made (keys : List Key) (may : ∀ key, P (.device (.keyDown key)))
    (may' : ∀ key, P (.device (.keyUp key))) (settle : P (.settle hotkeySettle)) :
    MadeOf P E (pressTogether keys) :=
  (devices_made _ (by simpa using fun key _ => may key)).bind fun _ =>
    (MadeOf.ask _ rfl settle).bind fun _ => devices_made _ (by simpa using fun key _ => may' key)

theorem resolveKeys_made (names : List String)
    (may : ∀ name ∈ names, P (.log (.unknownHotkey name))) : MadeOf P E (resolveKeys names) := by
  induction names with
  | nil => exact .pure []
  | cons name rest ih =>
      have later := ih fun name h => may name (List.mem_cons_of_mem _ h)
      unfold resolveKeys
      split
      · exact later.bind fun _ => .pure _
      · exact (MadeOf.ask _ rfl (may name List.mem_cons_self)).bind fun _ => later

/-! ## 3. What one step asks, and how it fails -/

/-- What the target of a click asks. -/
def ClickTarget.May (s : Settings) : ClickTarget → Request → Prop
  | .coordinates _ _, _ => False
  | .image template, q => q = .search template s.confidence s.captureRegion
  | .stored name, q => q = .read name

/-- How the target of a click fails. -/
def ClickTarget.Fails : ClickTarget → StepError → Prop
  | .coordinates _ _, _ => False
  | .image template, e => e = .targetNotFound template
  | .stored name, e => e = .invalidVariable name

/-- What a step without inner steps asks, its sleeps left aside. -/
def Deed.May (s : Settings) : Deed → Request → Prop
  | .click kind place, q =>
    place.target.May s q ∨ (∃ n, q = .draw n) ∨ ∃ p, q = .device (.click kind p)
  | .typeText text keyDelay, q => q = .device (.typeText text keyDelay)
  | .pressKey name, q => ∃ key, Key.ofName? name = some key ∧ q = .device (.pressKey key)
  | .hotkey names, q => (∃ name ∈ names, q = .log (.unknownHotkey name)) ∨
    q = .settle hotkeySettle ∨ ∃ key, q = .device (.keyDown key) ∨ q = .device (.keyUp key)
  | .wait _ _, q => ∃ n, q = .draw n
  | .findImage template confidence region storeInto, q =>
    q = .search template (confidence.getD s.confidence) (region.or s.captureRegion) ∨
      ∃ name v, storeInto = some name ∧ q = .write name v
  | .waitForImage template _ confidence _ storeInto, q =>
    q = .search template (confidence.getD s.confidence) s.captureRegion ∨ q = .clock ∨
      ∃ name v, storeInto = some name ∧ q = .write name v

/-- How a step without inner steps fails of itself. -/
def Deed.Fails : Deed → StepError → Prop
  | .click _ place, e => place.target.Fails e
  | .pressKey name, e => e = .unknownKey [name]
  | .hotkey names, e => e = .unknownKey names
  | .waitForImage template timeout _ disappear _, e =>
    e = .timeout template (timeout.getD 0) disappear
  | .typeText _ _, _ | .wait _ _, _ | .findImage _ _ _ _, _ => False

/-- What a test asks. -/
def Test.May (s : Settings) (t : Test) (q : Request) : Prop :=
  match t.predicate with
  | .imageVisible | .imageNotVisible =>
    ∃ template, t.template = some template ∧ q = .search template s.confidence s.captureRegion
  | .variableEquals => ∃ name, t.variableName = some name ∧ q = .read name

/-- How a test fails of itself: it lacks what its predicate looks at. -/
def Test.Fails (id : String) (t : Test) (e : StepError) : Prop :=
  match t.predicate with
  | .imageVisible | .imageNotVisible =>
    t.template = none ∧ e = .dispatch (.validation [.missingField id .template])
  | .variableEquals =>
    t.variableName = none ∧ e = .dispatch (.validation [.missingField id .variableName]) ∨
      t.expected = none ∧ e = .dispatch (.validation [.missingField id .expected])

/-- What the rule of a loop asks. -/
def LoopRule.May (s : Settings) (id : String) (r : LoopRule) (q : Request) : Prop :=
  q = .log (.loopLimit id r.limit) ∨
    match r.kind with
    | .whileImageVisible | .untilImageVisible =>
      ∃ template, r.template = some template ∧ q = .search template s.confidence s.captureRegion
    | .count | .infinite => False

/-- How the rule of a loop fails of itself: it lacks what its kind looks at. -/
def LoopRule.Fails (id : String) (r : LoopRule) (e : StepError) : Prop :=
  match r.kind with
  | .whileImageVisible | .untilImageVisible =>
    r.template = none ∧ e = .dispatch (.validation [.missingField id .template])
  | .count | .infinite => False

/-- **What a step asks**, its sleeps, looks at wishes and inner steps left aside. -/
def Action.May (s : Settings) : Action → Request → Prop
  | .simple _ d => d.May s
  | .condition _ t _ _ => t.May s
  | .loop h r _ => r.May s h.id

/-- **How a step fails of itself**, inner steps left aside. -/
def Action.Fails : Action → StepError → Prop
  | .simple _ d => d.Fails
  | .condition h t _ _ => t.Fails h.id
  | .loop h r _ => r.Fails h.id

/-- Whether a request is neither a look at the clock nor a write. -/
def Request.ordinary : Request → Bool
  | .clock | .write _ _ => false
  | _ => true

theorem Request.ne_clock {q : Request} (h : q.ordinary = true) : q ≠ .clock := by
  rintro rfl
  cases h

theorem Request.ne_write {q : Request} (h : q.ordinary = true) (name : String) (v : Value) :
    q ≠ .write name v := by
  rintro rfl
  cases h

/-- Whether a step looks for an image and may store where it is. -/
def Deed.finds : Deed → Bool
  | .findImage _ _ _ _ | .waitForImage _ _ _ _ _ => true
  | _ => false

section Ordinary

variable {st : Settings} {q : Request}

theorem ClickTarget.ordinary_of_may {t : ClickTarget} (may : t.May st q) : q.ordinary = true := by
  cases t <;> cases may <;> rfl

theorem Deed.ordinary_of_may {d : Deed} (other : d.finds = false) (may : d.May st q) :
    q.ordinary = true := by
  cases d with
  | click kind place =>
      obtain may | ⟨n, rfl⟩ | ⟨p, rfl⟩ := may
      · exact ClickTarget.ordinary_of_may may
      · rfl
      · rfl
  | typeText text keyDelay =>
      cases may
      rfl
  | pressKey name =>
      obtain ⟨key, -, rfl⟩ := may
      rfl
  | hotkey names =>
      obtain ⟨name, -, rfl⟩ | rfl | ⟨key, rfl | rfl⟩ := may <;> rfl
  | wait duration variation =>
      obtain ⟨n, rfl⟩ := may
      rfl
  | findImage | waitForImage => cases other

theorem Test.ordinary_of_may {t : Test} (may : t.May st q) : q.ordinary = true := by
  obtain ⟨predicate, template, name, expected⟩ := t
  cases predicate <;> obtain ⟨_, -, rfl⟩ := may <;> rfl

theorem LoopRule.ordinary_of_may {r : LoopRule} {id : String} (may : r.May st id q) :
    q.ordinary = true := by
  obtain ⟨kind, count, template, rounds⟩ := r
  obtain rfl | may := may
  · rfl
  · cases kind with
    | count | infinite => cases may
    | whileImageVisible | untilImageVisible =>
        obtain ⟨_, -, rfl⟩ := may
        rfl

end Ordinary

theorem resolve_made (t : ClickTarget) (may : ∀ q, t.May s q → P q) (fails : ∀ e, t.Fails e → E e) :
    MadeOf P E (t.resolve s) := by
  cases t with
  | coordinates x y => exact .pure _
  | image template =>
      have look : MadeOf P E (searchFor s template none none) := searchFor_made s (may _ rfl)
      refine look.bind fun m => ?_
      cases m.location with
      | none => exact .throw _ nofun (fails _ rfl)
      | some p => exact .pure p
  | stored name =>
      refine (MadeOf.ask _ rfl (may _ rfl)).bind fun x => ?_
      cases x.bind Value.point? with
      | none => exact .throw _ nofun (fails _ rfl)
      | some p => exact .pure p

/-- **A step without inner steps** asks what it may, and fails of itself as it may. -/
theorem deed_made (d : Deed) : MadeOf (d.May s) d.Fails (d.execute s) := by
  cases d with
  | click kind place =>
      refine (resolve_made s place.target (fun _ => Or.inl) fun _ => id).bind fun _ => ?_
      refine (scatter_made _ _ fun n => .inr (.inl ⟨n, rfl⟩)).bind fun p => ?_
      exact .device _ (.inr (.inr ⟨some p, rfl⟩))
  | typeText text keyDelay => exact .device _ rfl
  | pressKey name =>
      simp only [Deed.execute]
      split
      · next key known => exact .device _ ⟨key, known, rfl⟩
      · exact .throw _ nofun rfl
  | hotkey names =>
      refine (resolveKeys_made names fun name h => .inl ⟨name, h, rfl⟩).bind fun keys => ?_
      refine made_ite (.throw _ nofun rfl) (pressTogether_made keys ?_ ?_ (.inr (.inl rfl)))
      · exact fun key => .inr (.inr ⟨key, .inl rfl⟩)
      · exact fun key => .inr (.inr ⟨key, .inr rfl⟩)
  | wait duration variation =>
      exact (draw_made variation fun n => ⟨n, rfl⟩).bind fun _ => .sleep _
  | findImage template confidence region storeInto =>
      refine (searchFor_made s (.inl rfl)).bind fun m => ?_
      exact store_made storeInto m fun name v into => .inr ⟨name, v, into, rfl⟩
  | waitForImage template timeout confidence disappear storeInto =>
      let d : Deed := .waitForImage template timeout confidence disappear storeInto
      have wait : MadeOf (d.May s) d.Fails
          (awaitImage s template (timeout.getD 0) confidence disappear) :=
        awaitImage_made s (.inl rfl) (.inr (.inl rfl)) rfl
      refine wait.bind fun m => made_ite ?_ (.pure _)
      exact store_made storeInto m fun name v into => .inr (.inr ⟨name, v, into, rfl⟩)

/-! ## 4. Conditions and loops -/

section Branching

variable {id : String}

/-- **A test** asks what it may, and fails of itself only for what it lacks. -/
theorem holds_made (t : Test) : MadeOf (t.May s) (t.Fails id) (t.holds s id) := by
  obtain ⟨predicate, template, name, expected⟩ := t
  cases predicate with
  | imageVisible =>
      cases template with
      | none => exact .throw _ nofun ⟨rfl, rfl⟩
      | some template => exact isVisible_made s ⟨template, rfl, rfl⟩
  | imageNotVisible =>
      cases template with
      | none => exact .throw _ nofun ⟨rfl, rfl⟩
      | some template => exact (isVisible_made s ⟨template, rfl, rfl⟩).bind fun _ => .pure _
  | variableEquals =>
      cases name with
      | none => exact .throw _ nofun (.inl ⟨rfl, rfl⟩)
      | some name =>
          cases expected with
          | none => exact .throw _ nofun (.inr ⟨rfl, rfl⟩)
          | some expected => exact (MadeOf.ask _ rfl ⟨name, rfl, rfl⟩).bind fun _ => .pure _

/-- **The rule of a loop** asks what it may, and fails of itself only for what it lacks. -/
theorem proceeds_made (r : LoopRule) (done : Nat) :
    MadeOf (r.May s id) (r.Fails id) (r.proceeds s id done) := by
  obtain ⟨kind, count, template, rounds⟩ := r
  cases kind with
  | count => exact .pure _
  | infinite => exact .pure _
  | whileImageVisible =>
      cases template with
      | none => exact .throw _ nofun ⟨rfl, rfl⟩
      | some template => exact isVisible_made s (.inr ⟨template, rfl, rfl⟩)
  | untilImageVisible =>
      cases template with
      | none => exact .throw _ nofun ⟨rfl, rfl⟩
      | some template =>
          exact (isVisible_made s (.inr ⟨template, rfl, rfl⟩)).bind fun _ => .pure _

theorem iterate_made (r : LoopRule) (may : ∀ q, r.May s id q → P q)
    (fails : ∀ e, r.Fails id e → E e) {body : Script Unit} (h : MadeOf P E body) (left done : Nat) :
    MadeOf P E (r.iterate s id body left done) := by
  induction left generalizing done with
  | zero =>
      exact MadeOf.boundary.bind fun _ => made_ite (.ask _ rfl (may _ (.inl rfl))) (.pure _)
  | succ left ih =>
      exact MadeOf.boundary.bind fun _ => ((proceeds_made s r done).mono may fails).bind fun _ =>
        made_ite (h.bind fun _ => ih (done + 1)) (.pure _)

end Branching

/-- Every step of a list asks only what is in `P`, and fails of itself only with what is in `E`. -/
def EachMade (s : Settings) (P : Request → Prop) (E : StepError → Prop) (as : List Action) : Prop :=
  ∀ a ∈ as, (∀ q, a.May s q → P q) ∧ ∀ e, a.Fails e → E e

theorem eachMade_any (as : List Action) : EachMade s (fun _ => True) (fun _ => True) as :=
  fun _ _ => ⟨fun _ _ => trivial, fun _ _ => trivial⟩

theorem EachMade.sub {s : Settings} {as bs : List Action} (h : EachMade s P E as) (sub : bs ⊆ as) :
    EachMade s P E bs := fun a ha => h a (sub ha)

mutual

/-- **A step and its inner steps** heed wishes in sleeps and before each round of a loop, and nowhere
else; besides that they ask and fail as each of them may. -/
theorem execute_made : (a : Action) → EachMade s P E a.walk → MadeOf P E (a.execute s)
  | .simple h deed, each => by
      have own := each (.simple h deed) (List.mem_singleton.mpr rfl)
      exact (deed_made s deed).mono own.1 own.2
  | .condition h test thenBranch elseBranch, each => by
      have own := each _ List.mem_cons_self
      have inner := each.sub (List.subset_cons_self _ _)
      refine ((holds_made s test).mono own.1 own.2).bind fun _ => made_ite ?_ ?_
      · exact executeAll_made thenBranch (inner.sub (List.subset_append_left _ _))
      · exact executeAll_made elseBranch (inner.sub (List.subset_append_right _ _))
  | .loop h rule body, each => by
      have own := each _ List.mem_cons_self
      have inner := each.sub (List.subset_cons_self _ _)
      exact iterate_made s rule own.1 own.2 (executeAll_made body inner) rule.limit 0

/-- So do inner steps. -/
theorem executeAll_made : (as : List Action) → EachMade s P E (Action.walkAll as) →
    MadeOf P E (executeAll s as)
  | [], _ => .pure ()
  | a :: rest, each => by
      refine (pauseFor_made _).bind fun _ => ?_
      refine (execute_made a (each.sub (List.subset_append_left _ _))).bind fun _ => ?_
      refine (pauseFor_made _).bind fun _ => ?_
      exact executeAll_made rest (each.sub (List.subset_append_right _ _))

end

end TaskReplay
