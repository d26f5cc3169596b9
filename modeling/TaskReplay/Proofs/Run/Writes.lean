import TaskReplay.Proofs.Run.Parts

/-!
# What a step may write

A step changes nothing that a run owns but variables, and these only as it says:

* `Action.Stores` -- which step stores what which search shows, and in which variable;
* `Written` -- a log in which every write follows straight upon the search whose location it writes, for
  a step that stores it; `part_written` -- **the log of every part of a step is like that**;
* `scopeAfter` -- the variables after a log, read off its writes; `plays_context` -- nothing else changes;
* `part_unwritten`, `failed_part_keeps` -- a part that fails has written nothing;
* `Dossier` -- all that is known of a run; `writes_framed` -- **what becomes of it in a step**.
-/

namespace TaskReplay

open Script

/-! ## 1. Steps that store -/

/-- **A step that stores** what a search shows in a variable: a search for an image, or a wait until one
appears. -/
inductive Action.Stores (st : Settings) :
    Action → (template : String) → Float32 → Option Region → (name : String) → Prop where
  | find (h : Header) (template : String) (confidence : Option Float32) (region : Option Region)
      (name : String) :
      Stores st (.simple h (.findImage template confidence region (some name))) template
        (confidence.getD st.confidence) (region.or st.captureRegion) name
  | wait (h : Header) (template : String) (timeout : Option UInt64) (confidence : Option Float32)
      (name : String) :
      Stores st (.simple h (.waitForImage template timeout confidence false (some name))) template
        (confidence.getD st.confidence) st.captureRegion name

/-- **A log in which every write follows straight upon a search** of one of the steps `as`, which stores
what it shows in the variable that is written. -/
inductive Written (st : Settings) (as : List Action) : List Turn → Prop where
  | nil : Written st as []
  | other {u : Turn} {log : List Turn} (keeps : ∀ name v, u.request ≠ .write name v)
      (rest : Written st as log) : Written st as (u :: log)
  | stored {b : Action} {template name : String} {confidence : Float32} {area : Option Region}
      {log : List Turn} (inside : b ∈ as) (stores : b.Stores st template confidence area name)
      (m : Match) (ws ws' : List Wish) (rest : Written st as log) :
      Written st as (⟨.search template confidence area, ws, .ok m⟩ ::
        ⟨.write name (.ofLocation m.location), ws', ()⟩ :: log)

/-- **What a search showed** whose step stores it in the variable `name`. -/
inductive Shown (st : Settings) (as : List Action) (log : List Turn) (name : String) :
    Option Value → Prop where
  | mk {b : Action} {template : String} {confidence : Float32} {area : Option Region} (inside : b ∈ as)
      (stores : b.Stores st template confidence area name) (m : Match) (ws : List Wish)
      (found : ⟨.search template confidence area, ws, .ok m⟩ ∈ log) :
      Shown st as log name (some (.ofLocation m.location))

/-- A log without writes. -/
def Unwritten (log : List Turn) : Prop := ∀ u ∈ log, ∀ name v, u.request ≠ .write name v

section Logs

variable {st : Settings} {as : List Action} {log log' : List Turn}

theorem Written.append (h : Written st as log) (h' : Written st as log') :
    Written st as (log ++ log') := by
  induction h with
  | nil => exact h'
  | other keeps _ ih => exact .other keeps ih
  | stored inside stores m ws ws' _ ih => exact .stored inside stores m ws ws' ih

theorem Shown.isSome {name : String} {v : Option Value} (h : Shown st as log name v) : v.isSome := by
  cases h
  rfl

theorem Shown.later {name : String} {v : Option Value} {u : Turn} (h : Shown st as log name v) :
    Shown st as (u :: log) name v := by
  cases h with
  | mk inside stores m ws found => exact .mk inside stores m ws (List.mem_cons_of_mem u found)

theorem Unwritten.written (h : Unwritten log) : Written st as log := by
  induction log with
  | nil => exact .nil
  | cons u log ih =>
      exact .other (h u List.mem_cons_self) (ih fun v hv => h v (List.mem_cons_of_mem u hv))

variable {α : Type} {m : Script α} {E : StepError → Prop} {s t : Scene} {r : Except StepError α}

/-- A script that asks for no write makes none. -/
theorem unwritten_of_made (hm : MadeOf (fun q => ∀ name v, q ≠ .write name v) E m)
    (h : Plays m.run s log r t) : Unwritten log := by
  intro u hu name v writes
  obtain ⟨-, may⟩ := h.asks hm.asks_inner u hu
  rw [writes] at may
  exact may rfl name v rfl

end Logs

/-! ## 2. The variables after a log -/

/-- The variables after a request. -/
def Request.scopeAfter (scope : Scope) : Request → Scope
  | .write name v => scope.set name v
  | _ => scope

/-- **The variables after a log.** -/
def scopeAfter (log : List Turn) (scope : Scope) : Scope :=
  log.foldl (fun scope u => u.request.scopeAfter scope) scope

section Scopes

variable {α : Type} {p : RunProg α} {s t : Scene} {log : List Turn} {a : α}

theorem Scene.context_inner {q : Request} (inner : q.inner = true) (s : Scene) :
    (s.after q).context = { s.context with scope := q.scopeAfter s.context.scope } := by
  cases q with
  | mark m | tell news => cases inner
  | _ => rfl

/-- **A program of inner requests changes variables only**, and these by its writes. -/
theorem plays_context (hp : p.Asks Inner) (h : Plays p s log a t) :
    t.context = { s.context with scope := scopeAfter log s.context.scope } := by
  induction h with
  | done a s => rfl
  | @turn q next s t log a ws x others allowed rest ih =>
      rw [ih (hp.2 x), Scene.context_inner hp.1]
      rfl

@[simp] theorem scopeAfter_cons (u : Turn) (log : List Turn) (scope : Scope) :
    scopeAfter (u :: log) scope = scopeAfter log (u.request.scopeAfter scope) := rfl

theorem scopeAfter_of_no_write {q : Request} (h : ∀ name v, q ≠ .write name v) (scope : Scope) :
    q.scopeAfter scope = scope := by
  cases q with
  | write name v => exact absurd rfl (h name v)
  | _ => rfl

theorem scopeAfter_of_unwritten {log : List Turn} (h : Unwritten log) (scope : Scope) :
    scopeAfter log scope = scope := by
  induction log generalizing scope with
  | nil => rfl
  | cons u log ih =>
      rw [scopeAfter_cons, scopeAfter_of_no_write (h u List.mem_cons_self)]
      exact ih (fun v hv => h v (List.mem_cons_of_mem u hv)) scope

/-- **A variable after a log** is as before, or holds what a search showed whose step stores it there. -/
theorem Written.get? {st : Settings} {as : List Action} (h : Written st as log) (scope : Scope)
    (name : String) :
    (scopeAfter log scope).get? name = scope.get? name ∨
      Shown st as log name ((scopeAfter log scope).get? name) := by
  induction h generalizing scope with
  | nil => exact .inl rfl
  | @other u log keeps _ ih =>
      rw [scopeAfter_cons, scopeAfter_of_no_write keeps]
      exact (ih scope).imp id Shown.later
  | @stored b template written confidence area log inside stores m ws ws' _ ih =>
      let v : Value := .ofLocation m.location
      show (scopeAfter log (scope.set written v)).get? name = _ ∨
        Shown st as _ name ((scopeAfter log (scope.set written v)).get? name)
      obtain same | shown := ih (scope.set written v)
      · -- nothing later wrote the variable: it is the one just written, or it is as before
        rw [same, Assoc.get?_set]
        by_cases this_one : name = written
        · subst this_one
          rw [beq_self_eq_true, if_pos rfl]
          exact .inr (.mk inside stores m ws List.mem_cons_self)
        · rw [beq_false_of_ne this_one]
          exact .inl rfl
      · exact .inr shown.later.later

end Scopes

/-! ## 3. What a part of a step writes -/

/-- **What a part of a step writes**: nothing, or, if it ends well, what its last search showed. -/
inductive Wrote (st : Settings) (b : Action) {α : Type} (log : List Turn) :
    Except StepError α → Prop where
  | nothing {r : Except StepError α} (unwritten : Unwritten log) : Wrote st b log r
  | location {template name : String} {confidence : Float32} {area : Option Region} (x : α)
      (stores : b.Stores st template confidence area name) (before : List Turn)
      (unwritten : Unwritten before) (m : Match) (ws ws' : List Wish)
      (ends : log = before ++ [⟨.search template confidence area, ws, .ok m⟩,
        ⟨.write name (.ofLocation m.location), ws', ()⟩]) : Wrote st b log (.ok x)

section Parts

variable {st : Settings} {a b : Action} {as : List Action} {α : Type} {m : Script α} {s t u : Scene}
  {log log' : List Turn} {r : Except StepError α} {e : StepError}

theorem Wrote.written (h : Wrote st b log r) (inside : b ∈ as) : Written st as log := by
  cases h with
  | nothing unwritten => exact unwritten.written
  | location x stores before unwritten m ws ws' ends =>
      rw [ends]
      exact unwritten.written.append (.stored inside stores m ws ws' .nil)

theorem deed_unwritten {d : Deed} {r : Except StepError Unit} (other : d.finds = false)
    (h : Plays (d.execute st).run s log r t) : Unwritten log :=
  unwritten_of_made ((deed_made st d).mono
    (fun _ may => Request.ne_write (Deed.ordinary_of_may other may)) fun _ => id) h

/-- **A store after a search** writes what that search showed, and never fails. -/
theorem store_wrote {template : String} {confidence : Float32} {area : Option Region}
    {into : Option String} {shown : Match} {r : Except StepError Unit}
    (stores : ∀ name, into = some name → b.Stores st template confidence area name)
    (unwritten : Unwritten log) {before : List Turn} {ws : List Wish}
    (ends : log = before ++ [⟨.search template confidence area, ws, .ok shown⟩])
    (h : Plays (store into shown).run u log' r t) : Wrote st b (log ++ log') r := by
  cases into with
  | none =>
      obtain ⟨rfl, -, -⟩ := plays_done h
      rw [List.append_nil]
      exact .nothing unwritten
  | some name =>
      obtain ⟨ws', x, rest, -, -, rfl, hd⟩ := plays_ask h
      obtain ⟨rfl, rfl, -⟩ := plays_done hd
      have calm : Unwritten before := fun v hv => unwritten v (ends ▸ List.mem_append_left _ hv)
      refine .location () (stores name rfl) before calm shown ws ws' ?_
      rw [ends, List.append_assoc]
      rfl

/-- A search that ends well shows what it says. -/
theorem plays_searchFor {template : String} {confidence : Option Float32} {area : Option Region}
    {shown : Match} (h : Plays (searchFor st template confidence area).run s log (.ok shown) t) :
    ∃ before ws, log = before ++
      [⟨.search template (confidence.getD st.confidence) (area.or st.captureRegion), ws, .ok shown⟩] := by
  obtain ⟨ws, x, rest, -, -, rfl, hd⟩ := plays_ask (run_search .. ▸ h)
  obtain ⟨rfl, same, -⟩ := plays_done hd
  cases x with
  | error e => cases same
  | ok x =>
      cases same
      exact ⟨[], ws, rfl⟩

/-- A search that ends well, or what ends well after it. -/
theorem plays_seek {template : String} {accuracy : Float32} {area : Option Region} {disappear : Bool}
    {missed : RunProg (Except StepError Match)} {shown : Match}
    (h : Plays (seek template accuracy area disappear missed) s log (.ok shown) t) :
    (∃ ws, log = [⟨.search template accuracy area, ws, .ok shown⟩]) ∨
      ∃ first rest u, log = first :: rest ∧ Plays missed u rest (.ok shown) t := by
  obtain ⟨ws, x, rest, -, -, rfl, hr⟩ := plays_ask h
  cases x with
  | error e => nomatch (plays_done hr).2.1
  | ok m =>
      dsimp only at hr
      split at hr
      · obtain ⟨rfl, same, -⟩ := plays_done hr
        cases same
        exact .inl ⟨ws, rfl⟩
      · exact .inr ⟨_, rest, _, rfl, hr⟩

/-- **A wait for an image that ends well** ends with the search that showed it. -/
theorem plays_watch {template : String} {timeout : UInt64} {confidence : Option Float32}
    {disappear : Bool} {deadline left : Nat} {shown : Match}
    (h : Plays (watch st template timeout confidence disappear deadline left).run s log (.ok shown) t) :
    ∃ before ws, log = before ++
      [⟨.search template (confidence.getD st.confidence) st.captureRegion, ws, .ok shown⟩] := by
  induction left generalizing s log with
  | zero =>
      rw [run_watch] at h
      obtain ⟨ws, rfl⟩ | ⟨first, rest, u, rfl, late⟩ := plays_seek h
      · exact ⟨[], ws, rfl⟩
      · nomatch (plays_done late).2.1
  | succ left ih =>
      rw [run_watch] at h
      obtain ⟨ws, rfl⟩ | ⟨first, rest, u, rfl, on⟩ := plays_seek h
      · exact ⟨[], ws, rfl⟩
      · obtain ⟨ws₁, now, rest₁, -, -, rfl, hn⟩ := plays_ask on
        split at hn
        · nomatch (plays_done hn).2.1
        · obtain ⟨ws₂, full, rest₂, -, -, rfl, hf⟩ := plays_ask hn
          split at hf
          · obtain ⟨before, ws₃, rfl⟩ := ih hf
            exact ⟨_ :: _ :: _ :: before, ws₃, rfl⟩
          · nomatch (plays_done hf).2.1

/-- The wait for an image ends well with the search that showed it. -/
theorem plays_awaitImage {template : String} {timeout : UInt64} {confidence : Option Float32}
    {disappear : Bool} {shown : Match}
    (h : Plays (awaitImage st template timeout confidence disappear).run s log (.ok shown) t) :
    ∃ before ws, log = before ++
      [⟨.search template (confidence.getD st.confidence) st.captureRegion, ws, .ok shown⟩] := by
  obtain ⟨ws, now, rest, -, -, rfl, hw⟩ := plays_ask h
  obtain ⟨before, ws', rfl⟩ := plays_watch hw
  exact ⟨_ :: before, ws', rfl⟩

/-- A search for an image whose place is stored. -/
theorem findImage_wrote {h : Header} {template : String} {confidence : Option Float32}
    {region : Option Region} {into : Option String} {r : Except StepError Unit}
    (plays : Plays (Deed.execute st (.findImage template confidence region into)).run s log r t) :
    Wrote st (.simple h (.findImage template confidence region into)) log r := by
  have calm {log : List Turn} {t : Scene} {x : Except StepError Match}
      (h : Plays (searchFor st template confidence region).run s log x t) : Unwritten log :=
    unwritten_of_made (E := fun _ => True) (searchFor_made st nofun) h
  obtain ⟨log₁, log₂, m, u, rfl, search, stores⟩ | ⟨e, rfl, fails⟩ := plays_andThen plays
  · obtain ⟨before, ws, ends⟩ := plays_searchFor search
    have names (name : String) (given : into = some name) :
        Action.Stores st (.simple h (.findImage template confidence region into)) template
          (confidence.getD st.confidence) (region.or st.captureRegion) name := by
      subst given
      exact .find h template confidence region name
    exact store_wrote names (calm search) ends stores
  · exact .nothing (calm fails)

/-- A wait for an image whose place is stored, unless the step waits for it to disappear. -/
theorem waitForImage_wrote {h : Header} {template : String} {timeout : Option UInt64}
    {confidence : Option Float32} {disappear : Bool} {into : Option String} {r : Except StepError Unit}
    (plays : Plays (Deed.execute st (.waitForImage template timeout confidence disappear into)).run s log
      r t) : Wrote st (.simple h (.waitForImage template timeout confidence disappear into)) log r := by
  have calm {log : List Turn} {t : Scene} {x : Except StepError Match}
      (h : Plays (awaitImage st template (timeout.getD 0) confidence disappear).run s log x t) :
      Unwritten log :=
    unwritten_of_made (E := fun _ => True) (awaitImage_made st nofun nofun trivial) h
  obtain ⟨log₁, log₂, m, u, rfl, waits, stores⟩ | ⟨e, rfl, fails⟩ := plays_andThen plays
  · cases disappear with
    | true =>
        obtain ⟨rfl, -, -⟩ := plays_done stores
        rw [List.append_nil]
        exact .nothing (calm waits)
    | false =>
        obtain ⟨before, ws, ends⟩ := plays_awaitImage waits
        have names (name : String) (given : into = some name) :
            Action.Stores st (.simple h (.waitForImage template timeout confidence false into)) template
              (confidence.getD st.confidence) st.captureRegion name := by
          subst given
          exact .wait h template timeout confidence name
        exact store_wrote names (calm waits) ends stores
  · exact .nothing (calm fails)

/-- **What a step writes of itself.** -/
theorem own_wrote (own : b.Own st α m) (h : Plays m.run s log r t) : Wrote st b log r := by
  cases own with
  | deed header d =>
      cases d with
      | findImage template confidence region into => exact findImage_wrote h
      | waitForImage template timeout confidence disappear into => exact waitForImage_wrote h
      | _ => exact .nothing (deed_unwritten rfl h)
  | test header test thenBranch elseBranch =>
      refine .nothing (unwritten_of_made ((holds_made st test).mono ?_ fun _ => id) h)
      exact fun _ may => Request.ne_write (Test.ordinary_of_may may)
  | boundary header rule body =>
      exact .nothing (unwritten_of_made (E := fun _ => True) .boundary h)
  | proceeds header rule body done =>
      refine .nothing (unwritten_of_made ((proceeds_made st rule done).mono ?_ fun _ => id) h)
      exact fun _ may => Request.ne_write (LoopRule.ordinary_of_may may)
  | limit header rule body =>
      have told : MadeOf (fun q => ∀ name v, q ≠ .write name v) (fun _ => True)
          (Script.ask (.log (.loopLimit header.id rule.limit))) :=
        .ask _ rfl (Request.ne_write rfl)
      exact .nothing (unwritten_of_made told h)

theorem delay_unwritten {ms : Nat} {r : Except StepError Unit}
    (h : Plays (Script.sleep ms).run s log r t) : Unwritten log :=
  unwritten_of_made (E := fun _ => True) (.sleep ms) h

theorem part_written (part : Part st a α m) (h : Plays m.run s log r t) : Written st a.walk log := by
  cases part with
  | own inside own => exact (own_wrote own h).written inside
  | delay inside given => exact (delay_unwritten h).written

/-- A part that fails writes nothing. -/
theorem part_unwritten (part : Part st a α m) (h : Plays m.run s log (.error e) t) : Unwritten log := by
  cases part with
  | own inside own =>
      cases own_wrote own h with
      | nothing unwritten => exact unwritten
  | delay inside given => exact delay_unwritten h

/-- **Every write in the log of a step** follows straight upon the search that it stores. -/
theorem InParts.written {o : Option StepError} (h : InParts (Part st a) s log o t) :
    Written st a.walk log := by
  induction h with
  | nil s => exact .nil
  | well part plays _ ih => exact (part_written part plays).append ih
  | failed part plays => exact part_written part plays

/-- **A part that fails leaves all that the run owns as it is.** -/
theorem failed_part_keeps (part : Part st a α m) (h : Plays m.run s log (.error e) t) :
    t.context = s.context := by
  have inner : m.run.Asks Inner := (part_made part).asks
  rw [plays_context inner h, scopeAfter_of_unwritten (part_unwritten part h)]

/-- **A part in which a search or a call fails**, or that sees a stop, fails. -/
theorem part_fails (part : Part st a α m) (h : Plays m.run s log r t)
    (failed : ∃ u ∈ log, u.failure? ≠ none) : ∃ e, r = .error e := by
  cases r with
  | error e => exact ⟨e, rfl⟩
  | ok x =>
      have smooth : Smooth log := MadeOf.meets (part_made part) h
      obtain ⟨u, inside, failure⟩ := failed
      exact absurd (smooth u inside) failure

end Parts

/-! ## 4. What becomes of a run in a step -/

/-- **All that is known of a run**: its task, when it began, its settings, and what it owns. -/
structure Dossier where
  task : TaskId
  startedAt : Timestamp
  settings : Settings
  own : Context

/-- The dossier after a request. -/
def Dossier.after (d : Dossier) (q : Request) : Dossier :=
  { d with own := (Scene.after ⟨.fresh, d.own⟩ q).context }

/-- The dossier after a log. -/
def Dossier.play (d : Dossier) (log : List Turn) : Dossier :=
  log.foldl (fun d u => d.after u.request) d

/-- A dossier keeps up with a play. -/
theorem plays_dossier {α : Type} {p : RunProg α} {s t : Scene} {log : List Turn} {x : α}
    (h : Plays p s log x t) (d : Dossier) (begins : s.context = d.own) :
    d.play log = { d with own := t.context } := by
  induction h generalizing d with
  | done x s =>
      rw [begins]
      rfl
  | @turn q next s t log x ws y others allowed rest ih =>
      have now : ((s.wishes ws).after q).context = (d.after q).own := by
        rw [Dossier.after, ← begins]
        cases q <;> rfl
      exact ih (d.after q) now

/-- **What a step may write**, and what becomes of a run in it, whether it ends well or fails. Of the whole
dossier only variables change. Every write of the step follows straight upon the search whose location it
writes, for a step of the tree that stores it, so a variable is as before or holds what such a search
showed, and none is ever removed. The log of the step is made of parts, and a part that fails, as it does
if one of its searches fails, leaves everything as it is. -/
theorem writes_framed (d : Dossier) (a : Action) {c : Control} {log : List Turn}
    {r : Except StepError Unit} {t : Scene}
    (h : Plays (a.execute d.settings).run ⟨c, d.own⟩ log r t) :
    d.play log = { d with own := { d.own with scope := t.context.scope } } ∧
      Written d.settings a.walk log ∧
      (∀ name, t.context.scope.get? name = d.own.scope.get? name ∨
        Shown d.settings a.walk log name (t.context.scope.get? name)) ∧
      (∀ name, (d.own.scope.get? name).isSome → (t.context.scope.get? name).isSome) ∧
      InParts (Part d.settings a) ⟨c, d.own⟩ log (failureOf r) t ∧
      ∀ (α : Type) (m : Script α), Part d.settings a α m → ∀ u log' x v, Plays m.run u log' x v →
        (failureOf x ≠ none ∨ ∃ y ∈ log', y.failure? ≠ none) → v.context = u.context := by
  have parts := execute_inParts h
  have written : Written d.settings a.walk log := parts.written
  have inner : (a.execute d.settings).run.Asks Inner := (execute_made d.settings a (eachMade_any _ _)).asks
  have context : t.context = { d.own with scope := scopeAfter log d.own.scope } := plays_context inner h
  have holds (name : String) : t.context.scope.get? name = d.own.scope.get? name ∨
      Shown d.settings a.walk log name (t.context.scope.get? name) := by
    rw [context]
    exact written.get? d.own.scope name
  refine ⟨?_, written, holds, fun name before => ?_, parts, ?_⟩
  · rw [plays_dossier h d rfl, context]
  · obtain same | shown := holds name
    · rwa [same]
    · exact shown.isSome
  · intro α m part u log' x v plays failed
    cases x with
    | error e => exact failed_part_keeps part plays
    | ok x =>
        have failing := failed.resolve_left fun h => h rfl
        obtain ⟨e, impossible⟩ := part_fails part plays failing
        cases impossible

/-- A loop that stores where an image is and then presses a key that does not exist. -/
def spotLoop : Action :=
  .loop (.named "l") ⟨.infinite, none, none, some 5⟩
    [.simple (.named "f") (.findImage "spot.png" none none (some "spot")),
      .simple (.named "k") (.pressKey "no key")]

/-- A run that has just begun. -/
def spotDossier : Dossier := ⟨⟨7⟩, .epoch, .initial, .fresh⟩

/-- What the loop does in it, on a screen that shows the image. -/
def spotLog : List Turn :=
  [⟨.awaitResume, [], false⟩, ⟨.stopped, [], false⟩,
    ⟨.search "spot.png" Settings.initial.confidence none, [], .ok (.foundAt ⟨3, 4⟩)⟩,
    ⟨.write "spot" (.point ⟨3, 4⟩), [], ()⟩]

/-- Where it ends. -/
def spotEnd : Scene := ⟨.fresh, { Context.fresh with scope := Assoc.empty.set "spot" (.point ⟨3, 4⟩) }⟩

/-- The loop fails, and the variable that its first step wrote stays. -/
theorem writes_framed_spot :
    Plays (spotLoop.execute spotDossier.settings).run ⟨.fresh, spotDossier.own⟩ spotLog
        (.error (.unknownKey ["no key"])) spotEnd ∧
      spotDossier.play spotLog =
        { spotDossier with own := { spotDossier.own with scope := spotEnd.context.scope } } ∧
      Shown .initial spotLoop.walk spotLog "spot" (some (.point ⟨3, 4⟩)) := by
  have fails : Plays (spotLoop.execute spotDossier.settings).run ⟨.fresh, spotDossier.own⟩ spotLog
      (.error (.unknownKey ["no key"])) spotEnd := by
    iterate 4 refine Plays.turn _ _ (.inr rfl) (by trivial) ?_
    exact .done _ _
  obtain ⟨kept, -, holds, -⟩ := writes_framed spotDossier spotLoop fails
  exact ⟨fails, kept, (holds "spot").resolve_left nofun⟩

end TaskReplay
