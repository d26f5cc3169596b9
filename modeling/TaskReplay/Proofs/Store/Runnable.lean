import TaskReplay.Proofs.Engine.Order
import TaskReplay.Proofs.Engine.Starting
import TaskReplay.Proofs.Store.FiniteMap
import TaskReplay.Proofs.Store.Ledger

/-!
# Stored tasks can be run

One store, written by the calls of the catalog and by the engine when a run ends, in any order of their
questions. Only one of these writers looks at what it writes:

* `Site`, `Site.service` -- an engine and the catalog on one store, that may fail at any question;
* `EngineRequest.Fair`, `EngineRequest.Sane` -- what a start relies on and what it keeps: the tasks it
  finds were saved once, so they are without faults, and so are those it writes back;
* `start_relies`, `call_relies` -- each call keeps that;
* `stored_tasks_runnable` -- **every stored task is valid**, no start is refused for a faulty task, and
  no run fails for one, unless devices say so themselves;
* `easy`, `goesOn`, `finds` -- calls on a site that are driven on, with `Sound` for what such sites
  fulfil: the hypotheses of the theorem.
-/

namespace TaskReplay

open Machine (Reaches anyone)

/-! ## 1. One store for all -/

/-- An engine and a store. -/
structure Site where
  engine : Engine
  store : Store

namespace Site

/-- A call on either. -/
abbrev Call := Engine.Call ⊕ Catalog.Call

/-- What a call returns. -/
abbrev Reply := Engine.Reply ⊕ Catalog.Reply

/-- What a call does. -/
def program (n : Nat) : Call → Prog Store.Question Store.Question.Answer Reply
  | .inl c => (Store.ofEngine (c.program n)).bind fun r => .done (.inl r)
  | .inr c => (Store.ofCatalog c.program).bind fun r => .done (.inr r)

/-- The answers that an engine and a store allow. The store may fail at any question; if it does not, it
gives what it holds. -/
def Allows (w : Site) : (q : Store.Question) → q.Answer → Prop
  | .inl (.loadTask id), x => ∀ found, x = .ok found → w.store.find id = .ok found
  | .inl q, x => w.engine.Allows q x
  | .inr (.find id), x => ∀ found, x = .ok found → w.store.find id = .ok found
  | .inr .all, x => ∀ ts, x = .ok ts → w.store.all = .ok ts
  | .inr (.save t), x => ∀ u, x = .ok u → u = t
  | .inr (.delete id), x => x = .ok () → ∃ s, w.store.delete id = .ok s
  | .inr .now, _ => True

/-- The store after a question. A write that fails leaves it as it is. -/
def stored (s : Store) : (q : Store.Question) → q.Answer → Store
  | .inl (.saveTask t), .ok _ => s.save t
  | .inr (.save t), .ok _ => s.save t
  | .inr (.delete id), .ok _ =>
    match s.delete id with
    | .ok s' => s'
    | .error _ => s
  | _, _ => s

/-- The engine after a question. -/
def moved (e : Engine) : Store.Question → Engine
  | .inl q => e.after q
  | .inr _ => e

/-- **An engine and the catalog on one store.** -/
def service : Service Call Store.Question Store.Question.Answer Reply Site where
  program := program
  allows := Allows
  after w q x := ⟨moved w.engine q, stored w.store q x⟩

/-- A site with the calls on it. -/
abbrev System := Machine Call Store.Question Store.Question.Answer Reply Site

/-- A site where nothing was done yet. -/
def initial : Site := ⟨Engine.initial, Store.empty⟩

end Site

/-! ## 2. What a start relies on -/

/-- Tasks that are found were saved; devices and screen do not say that a task is faulty, where `honest`
asks that of them. -/
def EngineRequest.Fair (honest : Prop) : (q : EngineRequest) → q.Answer → Prop
  | .loadTask _, x => ∀ t, x = .ok (some t) → t.Saved
  | .run _ q, x => honest → q.Honest x
  | _, _ => True

/-- Tasks that are written are without faults; no step is told to have failed for a fault of the task,
where devices and screen are honest. -/
def EngineRequest.Sane (honest : Prop) : EngineRequest → Prop
  | .saveTask t => t.problems = [] ∧ t.Lossless
  | .run _ (.tell (.step _ _ _ (.failed e _))) => honest → ¬ e.OfTask
  | _ => True

namespace Engine

open EngineRequest (Fair Sane)

/-- A start that is not refused for a faulty task, nor fails for one where devices are honest. -/
structure Fine (honest : Prop) (r : Except EngineError RunOutcome) : Prop where
  accepted : ∀ ps, r ≠ .error (.invalid ps)
  unblamed : honest → ∀ f, r = .error (.run f) → ¬ f.cause.OfTask

variable {honest : Prop} {α : Type} {id : TaskId} {n : Nat} {t : Task} {s : Settings}

/-- A program that neither writes a task nor runs one. -/
theorem relies_of_tells {p : EngineProg α} {post : α → Prop}
    (hp : p.Asks fun q => q.tells = true ∨ ∃ t, q = .transition t) (all : ∀ a, post a) :
    p.Relies (Fair honest) (Sane honest) post := by
  refine Prog.Asks.relies (hp.mono ?_) all
  rintro q (tells | ⟨t, rfl⟩)
  · cases q <;> trivial
  · trivial

theorem recordRun_relies (id : TaskId) (success : Bool) :
    (recordRun id success).Relies (Fair honest) (Sane honest) fun _ => True := by
  refine ⟨trivial, fun x found => ?_⟩
  cases x with
  | error e => exact ⟨trivial, fun _ _ => trivial⟩
  | ok o =>
      cases o with
      | none => exact ⟨trivial, fun _ _ => trivial⟩
      | some t =>
          have saved : t.Saved := found t rfl
          refine ⟨trivial, fun now _ => ⟨⟨saved.valid, saved.lossless⟩, fun y _ => ?_⟩⟩
          cases y with
          | ok u => trivial
          | error e => exact ⟨trivial, fun _ _ => trivial⟩

/-- What may come of the preparation of a start: the task itself, or a refusal that is not for its
faults. -/
def Prepared : Except EngineError (Task × Settings) → Prop
  | .ok (t, _) => t.Saved
  | .error e => (∀ ps, e ≠ .invalid ps) ∧ ∀ f, e ≠ .run f

theorem accept_relies (saved : t.Saved) :
    (accept id t).run.Relies (Fair honest) (Sane honest) Prepared := by
  have valid := (t.validate_eq_ok_iff).mpr saved.valid
  unfold accept
  rw [valid]
  split
  · refine ⟨trivial, fun loaded _ => ?_⟩
    cases loaded with
    | ok s => exact saved
    | error e => exact ⟨nofun, nofun⟩
  · exact ⟨nofun, nofun⟩

theorem prepare_relies (id : TaskId) :
    (prepare id).run.Relies (Fair honest) (Sane honest) Prepared := by
  refine ⟨trivial, fun busy _ => ?_⟩
  cases busy with
  | true => exact ⟨nofun, nofun⟩
  | false =>
      refine ⟨trivial, fun loaded found => ?_⟩
      cases loaded with
      | error e => exact ⟨nofun, nofun⟩
      | ok o =>
          cases o with
          | none => exact ⟨nofun, nofun⟩
          | some t => exact accept_relies (found t rfl)

theorem progress_tells (task : TaskId) (news : StepNews) :
    (progress task news).Asks fun q => q.tells = true ∨ ∃ t, q = .transition t := by
  have moves (t : Transition) (type : EventType) (data : Json) :
      (move t >>= fun _ => publish type (some task) data).Asks fun q =>
        q.tells = true ∨ ∃ t, q = .transition t :=
    ((move_asks t).mono fun q h => h.imp_right fun same => ⟨t, same⟩).bind fun _ =>
      (publish_asks type _ data).mono fun _ => Or.inl
  cases news with
  | paused i => trivial
  | step i total a moment =>
      cases moment with
      | started => exact moves _ _ _
      | completed => exact moves _ _ _
      | failed e again => exact (publish_asks _ _ _).mono fun _ => Or.inl

/-- What a start asks in place of a run's question. -/
theorem runEffect_relies {q : Request} {post : q.Answer → Prop} (sane : Sane honest (.run n q))
    (heard : ∀ x, (honest → q.Honest x) → post x) :
    (runEffect n id q).Relies (Fair honest) (Sane honest) post := by
  cases q with
  | tell news =>
      refine ⟨sane, fun u _ => ?_⟩
      exact relies_of_tells (progress_tells id news) fun _ => heard () fun _ => trivial
  | _ => exact ⟨sane, heard⟩

theorem sane_of_fit {q : Request} (fit : q.Fit s) : Sane honest (.run n q) := by
  cases q with
  | tell news =>
      cases news with
      | paused i => trivial
      | step i total a moment =>
          cases moment with
          | failed e again => exact fun _ => fit
          | started | completed => trivial
  | _ => trivial

theorem sane_of_dishonest (h : ¬ honest) (q : Request) : Sane honest (.run n q) := by
  cases q with
  | tell news =>
      cases news with
      | paused i => trivial
      | step i total a moment =>
          cases moment with
          | failed e again => exact fun yes => absurd yes h
          | started | completed => trivial
  | _ => trivial

/-- A run of a task that was saved. -/
theorem run_relies (saved : t.Saved) (s : Settings) (n : Nat) (id : TaskId) :
    ((t.run s).expand (runEffect n id)).Relies (Fair honest) (Sane honest)
      fun r => honest → Unblamed r := by
  by_cases h : honest
  · have valid := (t.validate_eq_ok_iff).mpr saved.valid
    have fits : (t.run s).Relies Request.Honest (Request.Fit s) fun r => honest → Unblamed r :=
      (run_fits (Task.complete_of_validate valid)).mono fun r unblamed _ => unblamed
    exact fits.expand fun q fit => runEffect_relies (sane_of_fit fit) fun x heard => heard h
  · have any : (t.run s).Relies (fun _ _ => True) (fun _ => True) fun r => honest → Unblamed r :=
      (Prog.asks_true _).relies fun r yes => absurd yes h
    exact any.expand fun q _ => runEffect_relies (sane_of_dishonest h q) fun _ _ => trivial

theorem finish_relies (id : TaskId) (r : RunResult) :
    (finish id r).Relies (Fair honest) (Sane honest) fun _ => True := by
  refine relies_of_tells ?_ fun _ => trivial
  refine ((move_asks _).mono fun q h => h.imp_right fun same => ⟨_, same⟩).bind fun _ => ?_
  cases r with
  | ok o => exact (publish_asks _ _ _).mono fun _ => Or.inl
  | error f => exact ⟨.inl rfl, fun _ => (publish_asks _ _ _).mono fun _ => Or.inl⟩

theorem runClaimed_relies (saved : t.Saved) (s : Settings) (n : Nat) (id : TaskId) :
    (runClaimed n id t s).Relies (Fair honest) (Sane honest) fun r => honest → Unblamed r :=
  (run_relies saved s n id).bind fun r unblamed =>
    (recordRun_relies id r.isOk).bind fun _ _ =>
      (finish_relies id r).bind fun _ _ => unblamed

/-- **A start** relies on what it finds, and keeps it so. -/
theorem start_relies (n : Nat) (id : TaskId) :
    (start n id).Relies (Fair honest) (Sane honest) (Fine honest) := by
  refine (prepare_relies id).bind fun r prepared => ?_
  cases r with
  | error e =>
      refine ⟨fun ps same => prepared.1 ps (Except.error.inj same), fun _ f same => ?_⟩
      exact absurd (Except.error.inj same) (prepared.2 f)
  | ok pair =>
      obtain ⟨t, s⟩ := pair
      refine ⟨trivial, fun now _ => ⟨trivial, fun claimed _ => ?_⟩⟩
      cases claimed with
      | none => exact ⟨nofun, nofun⟩
      | some state =>
          have told : (broadcast state).Relies (Fair honest) (Sane honest) fun _ => True :=
            relies_of_tells ((broadcast_asks state).mono fun _ => Or.inl) fun _ => trivial
          refine told.bind fun _ _ => (runClaimed_relies prepared s n id).bind fun r unblamed => ?_
          cases r with
          | ok o => exact ⟨nofun, fun _ => nofun⟩
          | error f =>
              refine ⟨nofun, fun yes g same => ?_⟩
              obtain rfl : f = g := EngineError.run.inj (Except.error.inj same)
              exact unblamed yes f rfl

/-- **A call on the engine.** -/
theorem call_relies (n : Nat) (c : Call) :
    (c.program n).Relies (Fair honest) (Sane honest) fun r => ∀ x, r = .ended x → Fine honest x := by
  have moved (t : Transition) {f : Bool → Reply} (other : ∀ b x, f b ≠ .ended x) :
      ((move t).bind fun b => .done (f b)).Relies (Fair honest) (Sane honest)
        fun r => ∀ x, r = .ended x → Fine honest x := by
    have asks : (move t).Asks fun q => q.tells = true ∨ ∃ t, q = .transition t :=
      (move_asks t).mono fun q h => h.imp_right fun same => ⟨t, same⟩
    have told : (move t).Relies (Fair honest) (Sane honest) fun _ => True :=
      relies_of_tells asks fun _ => trivial
    exact told.bind fun b _ x same => absurd same (other b x)
  cases c with
  | start id =>
      exact (start_relies n id).bind fun r fine x same => Reply.ended.inj same ▸ fine
  | pause => exact moved .pause fun _ _ => nofun
  | resume => exact moved .resume fun _ _ => nofun
  | stop => exact moved .stop fun _ _ => nofun
  | emergencyStop =>
      have told : emergencyStop.Relies (Fair honest) (Sane honest) fun _ => True := by
        refine relies_of_tells (emergencyStop_asks.mono fun q h => ?_) fun _ => trivial
        exact h.imp_right fun same => ⟨_, same⟩
      exact told.bind fun _ _ x => nofun

end Engine

/-! ## 3. What a call on the catalog relies on -/

/-- Tasks that are found were saved. -/
def CatalogRequest.Fair : (q : CatalogRequest) → q.Answer → Prop
  | .find _, x => ∀ t, x = .ok (some t) → t.Saved
  | _, _ => True

/-- Tasks that are written are without faults. -/
def CatalogRequest.Sane : CatalogRequest → Prop
  | .save t => t.problems = [] ∧ t.Lossless
  | _ => True

namespace Catalog

theorem stamp_relies {t : Task} (valid : t.problems = []) (lossless : t.Lossless) :
    (stamp t).Relies CatalogRequest.Fair CatalogRequest.Sane fun _ => True :=
  ⟨trivial, fun _ _ => ⟨⟨valid, lossless⟩, fun _ _ => trivial⟩⟩

theorem get_relies (id : TaskId) : (Catalog.get id).Relies CatalogRequest.Fair CatalogRequest.Sane
    fun r => ∀ t, r = .ok t → t.Saved := by
  refine ⟨trivial, fun x found => ?_⟩
  cases x with
  | error e =>
      intro t same
      cases same
  | ok o =>
      cases o with
      | none =>
          intro t same
          cases same
      | some u =>
          intro t same
          cases same
          exact found u rfl

theorem save_relies {t : Task}
    (exact : ∀ c ∈ Action.confidences t.actions, c.isFinite = true → Json.ExactSingle c) :
    (Catalog.save t).Relies CatalogRequest.Fair CatalogRequest.Sane fun _ => True := by
  unfold Catalog.save
  split
  · next accepted =>
    have valid := (t.validate_eq_ok_iff).mp accepted
    exact stamp_relies valid (Task.lossless_of_valid valid exact)
  · trivial

theorem setEnabled_relies (id : TaskId) (on : Bool) :
    (Catalog.setEnabled id on).Relies CatalogRequest.Fair CatalogRequest.Sane fun _ => True := by
  refine (get_relies id).bind fun r saved => ?_
  cases r with
  | error e => trivial
  | ok t =>
      have found : t.Saved := saved t rfl
      exact stamp_relies (t := { t with enabled := on }) found.valid found.lossless

/-- **A call on the catalog**: only a save looks at the task, the others write back what was found. -/
theorem call_relies {c : Call} (exact : c.Exact) :
    c.program.Relies CatalogRequest.Fair CatalogRequest.Sane fun _ => True := by
  cases c with
  | save t => exact (save_relies exact).bind fun _ _ => trivial
  | get id => exact (get_relies id).bind fun _ _ => trivial
  | list => exact ⟨trivial, fun _ _ => trivial⟩
  | setEnabled id on => exact (setEnabled_relies id on).bind fun _ _ => trivial
  | delete id => exact ⟨trivial, fun _ _ => trivial⟩

end Catalog

/-! ## 4. Every stored task is valid -/

namespace Site

/-- What a call relies on. -/
def Fair (honest : Prop) : (q : Store.Question) → q.Answer → Prop
  | .inl q, x => q.Fair honest x
  | .inr q, x => q.Fair x

/-- What a call keeps. -/
def Sane (honest : Prop) : Store.Question → Prop
  | .inl q => q.Sane honest
  | .inr q => q.Sane

/-- Calls that save tasks whose finite confidences survive their text. -/
def Exact : Call → Prop
  | .inl _ => True
  | .inr c => c.Exact

/-- What a start returns is fine. -/
def Ends (honest : Prop) (r : Reply) : Prop := ∀ x, r = .inl (.ended x) → Engine.Fine honest x

/-- Every row is that of a task that was saved. -/
def Clean (w : Site) : Prop := ∃ m ts, w.store.Holds m ts

/-- Devices and screen do not say that a task is faulty, where `honest` asks that of them. -/
def Trusted (honest : Prop) : (q : Store.Question) → q.Answer → Prop
  | .inl (.run _ q), x => honest → q.Honest x
  | _, _ => True

variable {honest : Prop} {w : Site} {q : Store.Question}

theorem program_relies (n : Nat) {c : Call} (exact : Exact c) :
    (program n c).Relies (Fair honest) (Sane honest) (Ends honest) := by
  cases c with
  | inl c =>
      have engine : (Store.ofEngine (c.program n)).Relies (Fair honest) (Sane honest)
          fun r => ∀ x, r = .ended x → Engine.Fine honest x := by
        refine Prog.Relies.expand (fun q sane => ?_) (Engine.call_relies n c)
        exact ⟨sane, fun x fair => fair⟩
      exact engine.bind fun r fine x same => fine x (Sum.inl.inj same)
  | inr c =>
      have catalog : (Store.ofCatalog c.program).Relies (Fair honest) (Sane honest) fun _ => True := by
        refine Prog.Relies.expand (fun q sane => ?_) (Catalog.call_relies exact)
        exact ⟨sane, fun x fair => fair⟩
      exact catalog.bind fun r _ x => nofun

theorem Clean.found (h : w.Clean) {id : TaskId} {t : Task} (found : w.store.find id = .ok (some t)) :
    t.Saved := by
  obtain ⟨m, ts, holds⟩ := h
  have told := holds.told id
  rw [found] at told
  exact (holds.own (Records.look_eq_ok_iff.mp told.symm).1).2

theorem Clean.listed (h : w.Clean) {us : List Task} (all : w.store.all = .ok us) :
    ∀ t ∈ us, t.Saved := by
  obtain ⟨m, ts, holds⟩ := h
  rw [holds.all] at all
  split at all
  · cases all
    exact fun t ht => holds.saved t ((List.mergeSort_perm _ _).mem_iff.mp ht)
  · cases all

/-- What a clean store gives is what calls rely on. -/
theorem Clean.fair (h : w.Clean) {x : q.Answer} (allowed : w.Allows q x) (trusted : Trusted honest q x) :
    Fair honest q x := by
  rcases q with q | q
  · cases q with
    | loadTask id => exact fun t same => h.found (allowed _ same)
    | run n q => exact trusted
    | busy | loadSettings | saveTask | now | transition | publish | log => trivial
  · cases q with
    | find id => exact fun t same => h.found (allowed _ same)
    | all | save | delete | now => trivial

theorem Clean.save (h : w.Clean) {t : Task} (valid : t.problems = []) (lossless : t.Lossless)
    (e : Engine) : Clean ⟨e, w.store.save t⟩ := by
  obtain ⟨m, ts, holds⟩ := h
  exact ⟨_, _, holds.save ⟨valid, lossless, Store.capped_capped _⟩⟩

theorem Clean.delete (h : w.Clean) {id : TaskId} {s : Store} (deleted : w.store.delete id = .ok s)
    (e : Engine) : Clean ⟨e, s⟩ := by
  obtain ⟨m, ts, holds⟩ := h
  rw [holds.delete] at deleted
  split at deleted
  · cases deleted
    exact ⟨_, _, holds.drop id⟩
  · cases deleted

/-- Questions that write no faulty task keep a store clean. -/
theorem Clean.after (h : w.Clean) (sane : Sane honest q) (x : q.Answer) :
    Clean (service.after w q x) := by
  rcases q with q | q
  · cases q with
    | saveTask t =>
        cases x with
        | ok u => exact h.save sane.1 sane.2 _
        | error e => exact h
    | busy | loadTask | loadSettings | now | transition | publish | log | run => exact h
  · cases q with
    | save t =>
        cases x with
        | ok u => exact h.save sane.1 sane.2 _
        | error e => exact h
    | delete id =>
        cases x with
        | error e => exact h
        | ok u =>
            cases deleted : w.store.delete id with
            | ok s =>
                have gone : service.after w (.inr (.delete id)) (.ok u) = ⟨w.engine, s⟩ := by
                  simp [service, stored, moved, deleted]
                rw [gone]
                exact h.delete deleted _
            | error e =>
                have same : service.after w (.inr (.delete id)) (.ok u) = w := by
                  simp [service, stored, moved, deleted]
                rw [same]
                exact h
    | find | all | now => exact h

theorem clean_initial : Clean initial := ⟨_, _, Store.holds_empty⟩

/-- What holds of every site that calls reach. -/
theorem runnable_of_reaches (honest : Prop) {m : System}
    (h : Reaches service anyone (Machine.initial initial) m)
    (exact : ∀ n c, .called n c ∈ m.log → Exact c)
    (devices : honest → ∀ n run q x, .answered n (.inl (.run run q)) x ∈ m.log → q.Honest x) :
    m.state.Clean ∧
      (∀ n a, m.calls n = some a → a.rest.Relies (Fair honest) (Sane honest) (Ends honest)) ∧
      ∀ n q x, .answered n q x ∈ m.log → Sane honest q := by
  refine Machine.relies_of_reaches (fun n _ fine => program_relies n fine)
    (fun _ _ _ clean allowed trusted => clean.fair allowed trusted)
    (fun _ _ x clean sane _ => clean.after sane x) clean_initial h exact fun n q x hx => ?_
  rcases q with q | q
  · cases q with
    | run k r => exact fun yes => devices yes n k r x hx
    | busy | loadTask | loadSettings | saveTask | now | transition | publish | log => trivial
  · trivial

/-- **Every stored task can be run**: whatever calls write the store, in any order of their questions
and with any failures of the store, what it holds are rows of valid tasks; no start is refused for a
faulty task; and where devices and screen do not say that a task is faulty, no run fails for a fault of
its task, nor is a step told to. -/
theorem stored_tasks_runnable {m : System} (h : Reaches service anyone (Machine.initial initial) m)
    (exact : ∀ n c, .called n c ∈ m.log → Exact c) :
    (∀ e ∈ m.state.store.rows.entries,
      ∃ t : Task, e = (t.id.text, Store.Row.ofTask t) ∧ t.validate = .ok ()) ∧
    (∀ id t, m.state.store.find id = .ok (some t) → t.validate = .ok ()) ∧
    (∀ ts, m.state.store.all = .ok ts → ∀ t ∈ ts, t.validate = .ok ()) ∧
    (∀ n c ps, m.calls n ≠ some ⟨c, .done (.inl (.ended (.error (.invalid ps))))⟩) ∧
    ((∀ n run q x, .answered n (.inl (.run run q)) x ∈ m.log → q.Honest x) →
      (∀ n c f, m.calls n = some ⟨c, .done (.inl (.ended (.error (.run f))))⟩ → ¬ f.cause.OfTask) ∧
      ∀ n run i total a e again u,
        .answered n (.inl (.run run (.tell (.step i total a (.failed e again))))) u ∈ m.log →
          ¬ e.OfTask) := by
  have valid {t : Task} (saved : t.Saved) : t.validate = .ok () :=
    (t.validate_eq_ok_iff).mpr saved.valid
  obtain ⟨clean, rests, -⟩ := runnable_of_reaches False h exact nofun
  refine ⟨fun e he => ?_, fun id t found => valid (clean.found found),
    fun ts all t ht => valid (clean.listed all t ht), fun n c ps done => ?_, fun honest => ?_⟩
  · obtain ⟨records, ts, holds⟩ := clean
    rw [holds.rows] at he
    obtain ⟨t, ht, rfl⟩ := List.mem_map.mp he
    exact ⟨t, rfl, valid (holds.saved t ht)⟩
  · exact (rests n _ done _ rfl).accepted ps rfl
  · obtain ⟨-, ends, told⟩ := runnable_of_reaches True h exact fun _ => honest
    exact ⟨fun n c f done => (ends n _ done _ rfl).unblamed trivial f rfl,
      fun n run i total a e again u hu => told n _ u hu trivial⟩

/-! ## 5. A task that is saved, run and switched off -/

/-- **Calls that a site can rely on**: the hypotheses under which tasks stay runnable. -/
structure Sound (m : System) : Prop where
  reached : Reaches service anyone (Machine.initial initial) m
  exact : ∀ n c, .called n c ∈ m.log → Exact c
  trusted : ∀ n q x, .answered n q x ∈ m.log → Trusted True q x

/-- Answers of a world in which stores and observers work and every template is on the screen. -/
def easy (w : Site) : (q : Store.Question) → q.Answer
  | .inl (.run _ (.search _ _ _)) => .ok ⟨true, none, none, none⟩
  | .inl q => Engine.smooth (fun _ => none) (.ok ()) w.engine q
  | .inr .now => .epoch
  | .inr (.save t) => .ok t
  | .inr (.find _) => .ok none
  | .inr .all => .ok []
  | .inr (.delete id) => .error (Store.missing id)

/-- A look-up, or a wait for the end of a pause: here an easy world has no answer. -/
def looks : Store.Question → Bool
  | .inl (.loadTask _) | .inr (.find _) | .inr .all | .inr (.delete _) => true
  | .inl q => Engine.pauses q
  | _ => false

/-- A search. -/
def searches : Store.Question → Bool
  | .inl (.run _ (.search _ _ _)) => true
  | _ => false

/-- **Call `n` goes on** in an easy world up to its next look-up, or to where it stops. -/
def goesOn (stops : Store.Question → Bool) (n : Nat) (c : Call) (m : System) : System :=
  m.goOn service easy (fun q => stops q || looks q) n c

/-- The look-up of call `n` finds a task, if it is for that one. -/
def finds (n : Nat) (t : Task) (m : System) : System :=
  match m.calls n with
  | some ⟨c, .ask (.inl (.loadTask id)) next⟩ =>
    if id = t.id then m.reply service n c (.inl (.loadTask id)) (.ok (some t)) (next (.ok (some t)))
    else m
  | some ⟨c, .ask (.inr (.find id)) next⟩ =>
    if id = t.id then m.reply service n c (.inr (.find id)) (.ok (some t)) (next (.ok (some t)))
    else m
  | _ => m

section Easy

variable {m : System} {n : Nat} {t : Task}

theorem allows_easy (w : Site) {q : Store.Question} (goes_on : looks q = false) :
    Allows w q (easy w q) := by
  rcases q with q | q
  · cases q with
    | run n q => cases q <;> trivial
    | loadTask id => cases goes_on
    | _ => first | rfl | trivial
  · cases q with
    | save t => exact fun u same => (Except.ok.inj same).symm
    | now => trivial
    | _ => cases goes_on

theorem trusted_easy (w : Site) (q : Store.Question) : Trusted True q (easy w q) := by
  rcases q with q | q
  · cases q with
    | run n q => cases q <;> first | exact fun _ => trivial | exact fun _ => nofun
    | _ => trivial
  · trivial

theorem sound_initial : Sound (Machine.initial initial) where
  reached := .here
  exact _ _ hc := nomatch hc
  trusted _ _ _ hx := nomatch hx

theorem Sound.begin (h : Sound m) {c : Call} (exact : Exact c) (free : m.calls n = none) :
    Sound (m.begin service n c) where
  reached := h.reached.step trivial (.call c free)
  exact k d hd := by
    cases hd with
    | head => exact exact
    | tail _ hd => exact h.exact k d hd
  trusted k q x hx := by
    cases hx with
    | tail _ hx => exact h.trusted k q x hx

theorem Sound.reply (h : Sound m) {c : Call} {q : Store.Question} {x : q.Answer}
    {next : q.Answer → Prog Store.Question Store.Question.Answer Reply}
    (asks : m.calls n = some ⟨c, .ask q next⟩) (allowed : Allows m.state q x)
    (trusted : Trusted True q x) : Sound (m.reply service n c q x (next x)) where
  reached := h.reached.step trivial (.answer x asks allowed)
  exact k d hd := by
    cases hd with
    | tail _ hd => exact h.exact k d hd
  trusted k r y hy := by
    cases hy with
    | head => exact trusted
    | tail _ hy => exact h.trusted k r y hy

theorem Sound.goesOn (h : Sound m) (stops : Store.Question → Bool) (n : Nat) {c : Call}
    (exact : Exact c) : Sound (goesOn stops n c m) := by
  refine Machine.goOn_keeps (fun m h free => h.begin exact free) (fun m c q next h asks free => ?_) h
  exact h.reply asks (allows_easy _ (Bool.or_eq_false_iff.mp free).2) (trusted_easy _ _)

/-- What is there can be found. -/
theorem Sound.finds (h : Sound m) (n : Nat) {s : Store} (holds : m.state.store = s)
    (there : s.find t.id = .ok (some t)) : Sound (finds n t m) := by
  subst holds
  unfold Site.finds
  split
  · next asks =>
    split
    · next own =>
      subst own
      exact h.reply asks (fun found same => Except.ok.inj same ▸ there) trivial
    · exact h
  · next asks =>
    split
    · next own =>
      subst own
      exact h.reply asks (fun found same => Except.ok.inj same ▸ there) trivial
    · exact h
  · exact h

end Easy

/-- What is found after a save. -/
theorem find_saved {s : Store} {m : Records} {ts : List Task} {t : Task} (h : s.Holds m ts)
    (saved : t.Saved) (readable : t.Readable) (dated : m.dated t = t) :
    (s.save t).find t.id = .ok (some t) := by
  have kept := saved.kept_eq
  have holds : (s.save t).Holds (m.put t.kept) _ := h.save (kept.symm ▸ saved)
  have look : (m.put t.kept).look t.id = .ok t := by
    rw [kept]
    exact Records.look_eq_ok_iff.mpr ⟨by rw [Records.put, Function.update_self, dated], readable⟩
  have told := (holds.told t.id).trans look
  cases found : (s.save t).find t.id with
  | error e => rw [found] at told; cases told
  | ok o =>
      cases o with
      | none => rw [found] at told; cases told
      | some u => rw [found] at told; cases told; rfl

open Store (searching searching_inRange)

/-- The task once it was switched off. -/
def switchedOff : Task := { searching with enabled := false }

/-- The task once its run was recorded. -/
def recordedOff : Task := switchedOff.recordRun true .epoch

theorem searching_saved : searching.Saved :=
  have valid : searching.problems = [] := by decide
  ⟨valid, Task.lossless_of_valid valid searching_inRange.exact, by decide⟩

/-- A start of the task has come to its first search. -/
def searchingRun : System :=
  Machine.initial initial |> goesOn looks 0 (.inr (.save searching))
    |> goesOn looks 1 (.inl (.start ⟨0⟩)) |> finds 1 searching
    |> goesOn searches 1 (.inl (.start ⟨0⟩))

/-- The task was switched off meanwhile. -/
def disabledRun : System :=
  searchingRun |> goesOn looks 2 (.inr (.setEnabled ⟨0⟩ false)) |> finds 2 searching
    |> goesOn looks 2 (.inr (.setEnabled ⟨0⟩ false))

/-- The run has ended and was recorded. -/
def recordedRun : System :=
  disabledRun |> goesOn looks 1 (.inl (.start ⟨0⟩)) |> finds 1 switchedOff
    |> goesOn looks 1 (.inl (.start ⟨0⟩))

/-- **A task with a confidence that is switched off while it runs**: the run goes on to its end and is
recorded, and what is stored then is valid. -/
theorem stored_tasks_runnable_recorded : Sound recordedRun ∧
    .called 2 (.inr (.setEnabled ⟨0⟩ false)) ∈ recordedRun.log ∧
    recordedRun.calls 1 = some ⟨.inl (.start ⟨0⟩), .done (.inl (.ended (.ok .completed)))⟩ ∧
    recordedRun.state.store.find ⟨0⟩ = .ok (some recordedOff) ∧
    (recordedOff.runCount = 1 ∧ recordedOff.enabled = false) ∧ recordedOff.validate = .ok () ∧
    ∀ n c f, recordedRun.calls n = some ⟨c, .done (.inl (.ended (.error (.run f))))⟩ →
      ¬ f.cause.OfTask := by
  have valid := searching_saved.valid
  have lossless := searching_saved.lossless
  have off : switchedOff.Saved := ⟨valid, lossless, searching_saved.counted⟩
  have recorded : recordedOff.Saved := ⟨valid, lossless, by decide⟩
  have holds₁ := Store.holds_empty.save (searching_saved.kept_eq.symm ▸ searching_saved)
  have holds₂ := holds₁.save (off.kept_eq.symm ▸ off)
  have there : (Store.empty.save searching).find searching.id = .ok (some searching) :=
    find_saved Store.holds_empty searching_saved (by decide) rfl
  -- the save, the start up to its first search, the switch, the rest of the run
  have sound₁ : Sound searchingRun := by
    have saved := sound_initial.goesOn looks 0 (c := .inr (.save searching)) searching_inRange.exact
    have started := saved.goesOn looks 1 (c := .inl (.start ⟨0⟩)) trivial
    exact (started.finds 1 rfl there).goesOn searches 1 (c := .inl (.start ⟨0⟩)) trivial
  have sound₂ : Sound disabledRun := by
    have asked := sound₁.goesOn looks 2 (c := .inr (.setEnabled ⟨0⟩ false)) trivial
    exact (asked.finds 2 rfl there).goesOn looks 2 (c := .inr (.setEnabled ⟨0⟩ false)) trivial
  have sound : Sound recordedRun := by
    have ran := sound₂.goesOn looks 1 (c := .inl (.start ⟨0⟩)) trivial
    exact (ran.finds 1 rfl (find_saved holds₁ off (by decide) rfl)).goesOn looks 1
      (c := .inl (.start ⟨0⟩)) trivial
  have found : recordedRun.state.store.find ⟨0⟩ = .ok (some recordedOff) :=
    find_saved holds₂ recorded (by decide) rfl
  have runnable := stored_tasks_runnable sound.reached sound.exact
  exact ⟨sound, List.mem_of_getElem? (show recordedRun.log[18]? = _ from rfl), rfl, found, ⟨rfl, rfl⟩,
    runnable.2.1 _ _ found, (runnable.2.2.2.2 fun n run q x hx => sound.trusted n _ x hx trivial).1⟩

end Site
end TaskReplay
