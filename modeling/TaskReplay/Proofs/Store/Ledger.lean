import TaskReplay.Catalog
import TaskReplay.Engine.Program
import TaskReplay.Proofs.Conversation.Solo
import TaskReplay.Proofs.Store.Columns

/-!
# Who read and wrote a task

A run that ends notes itself down in its task, and others switch the task on or off or delete it. Each
of them reads the task at one time and writes all of it at another, so what a store shows in the end
depends on who read and wrote in which order, and on nothing else:

* `Change`, `Call`, `service` -- the calls about one task, and a store that never fails by itself;
* `history` -- who read and wrote in which order; `Desk` -- what the store shows of the task and what
  each call has read, told from the history alone;
* `Progress`, `Account` -- where a call stands, and what that says about its part of the history;
* `Books.answer` -- one question and its answer; `books_of_reaches` -- **the store shows what the
  history tells**, whichever calls are made.
-/

namespace TaskReplay.Store

open Machine (Reaches anyone phaseAt)

/-! ## 1. Calls -/

/-- A question of the engine or of the catalog. -/
abbrev Question := EngineRequest ⊕ CatalogRequest

/-- The answers to a question. -/
abbrev Question.Answer : Question → Type
  | .inl q => q.Answer
  | .inr q => q.Answer

/-- A change that others make to a task. -/
inductive Change where
  | enable (on : Bool)
  | delete
  deriving DecidableEq

/-- A call about one task. -/
inductive Call where
  /-- A run that ended notes itself down. -/
  | record (success : Bool)
  | change (c : Change)
  deriving DecidableEq

/-- What a call returns. -/
inductive Reply where
  | recorded
  | switched (result : Except Failure Task)
  | deleted (result : Except Failure Unit)

/-- A program of the engine among questions of both kinds. -/
def ofEngine (p : EngineProg α) : Prog Question Question.Answer α :=
  p.expand fun q => .ask (.inl q) .done

/-- A program of the catalog among questions of both kinds. -/
def ofCatalog (p : CatalogProg α) : Prog Question Question.Answer α :=
  p.expand fun q => .ask (.inr q) .done

/-- What a call does. -/
def Call.program (id : TaskId) : Call → Prog Question Question.Answer Reply
  | record success => (ofEngine (Engine.recordRun id success)).bind fun _ => .done .recorded
  | change (.enable on) => (ofCatalog (Catalog.setEnabled id on)).bind fun r => .done (.switched r)
  | change .delete => (ofCatalog (Catalog.delete id)).bind fun r => .done (.deleted r)

/-- The answers of a store that does not fail by itself; clocks and logs answer as they like. -/
def Allows (s : Store) : (q : Question) → q.Answer → Prop
  | .inl (.loadTask id), x => x = s.find id ∧ x.isOk = true
  | .inl (.saveTask _), x => x = .ok ()
  | .inr (.find id), x => x = s.find id ∧ x.isOk = true
  | .inr .all, x => x = s.all
  | .inr (.save t), x => x = .ok t
  | .inr (.delete id), x => x = (s.delete id).map fun _ => ()
  | _, _ => True

/-- The store after a question. -/
def after (s : Store) : Question → Store
  | .inl (.saveTask t) => s.save t
  | .inr (.save t) => s.save t
  | .inr (.delete id) =>
    match s.delete id with
    | .ok s' => s'
    | .error _ => s
  | _ => s

/-- **The calls about one task.** -/
def service (id : TaskId) : Service Call Question Question.Answer Reply Store where
  program _ c := c.program id
  allows := Allows
  after s q _ := s.after q

/-- A store with the calls on it. -/
abbrev System := Machine Call Question Question.Answer Reply Store

/-- A line of the log of a system. -/
abbrev Line := Entry Call Question Question.Answer

/-! ## 2. Reads and writes -/

/-- What a call does to the store at once. -/
inductive Access where
  | read
  | write
  deriving DecidableEq

/-- The access that a question makes. -/
def access? : Question → Option Access
  | .inl (.loadTask _) | .inr (.find _) => some .read
  | .inl (.saveTask _) | .inr (.save _) | .inr (.delete _) => some .write
  | _ => none

/-- Who read and wrote, latest first. -/
def history (log : List Line) : List (Nat × Access) :=
  log.filterMap fun
    | .called _ _ => none
    | .answered n q _ => (access? q).map (n, ·)

/-- What the store shows of the task, and what each call has read. -/
structure Desk where
  shown : Option Standing
  copies : Nat → Option Standing

/-- What a call writes when it has read `o`. -/
def Call.writes : Call → Option Standing → Option Standing
  | record success, o => o.map fun st => ⟨st.enabled, capped (st.runs + 1), some success⟩
  | change (.enable on), o => o.map fun st => ⟨on, capped st.runs, st.success⟩
  | change .delete, _ => none

/-- The desk after one access. -/
def Desk.step (calls : Nat → Call) (d : Desk) : Nat × Access → Desk
  | (n, .read) => { d with copies := Function.update d.copies n d.shown }
  | (n, .write) => { d with shown := (calls n).writes (d.copies n) }

/-- The desk after a history, if the store first showed `first`. -/
def desk (calls : Nat → Call) (first : Option Standing) (h : List (Nat × Access)) : Desk :=
  h.foldr (fun a d => d.step calls a) ⟨first, fun _ => none⟩

/-- The accesses of one call, latest first. -/
def accesses (n : Nat) (h : List (Nat × Access)) : List Access :=
  (h.filter fun a => a.1 == n).map (·.2)

/-! ## 3. Where a call stands -/

/-- Where a call stands. -/
inductive Progress where
  | unread
  /-- It has read the task and has yet to write. -/
  | holds (t : Task)
  | ended

/-- What a read brings. -/
def Progress.ofFound : Except Failure (Option Task) → Progress
  | .ok (some t) => holds t
  | _ => ended

/-- Where a call stands after a question and its answer. -/
def Progress.step : Progress → (q : Question) → q.Answer → Progress
  | _, .inl (.loadTask _), x => ofFound x
  | _, .inr (.find _), x => ofFound x
  | _, .inl (.saveTask _), _ => ended
  | _, .inr (.save _), _ => ended
  | _, .inr (.delete _), _ => ended
  | φ, _, _ => φ

/-- The questions in order for a call. -/
inductive Call.May (id : TaskId) : Call → Progress → Question → Prop where
  | reload (success : Bool) : May id (.record success) .unread (.inl (.loadTask id))
  | date (success : Bool) (t : Task) : May id (.record success) (.holds t) (.inl .now)
  | note (success : Bool) (t : Task) (now : Timestamp) :
      May id (.record success) (.holds t) (.inl (.saveTask (t.recordRun success now)))
  | tell (success : Bool) (notice : Notice) : May id (.record success) .ended (.inl (.log notice))
  | look (on : Bool) : May id (.change (.enable on)) .unread (.inr (.find id))
  | stamp (on : Bool) (t : Task) : May id (.change (.enable on)) (.holds t) (.inr .now)
  | switch (on : Bool) (t : Task) (now : Timestamp) :
      May id (.change (.enable on)) (.holds t)
        (.inr (.save { t with enabled := on, updatedAt := now }))
  | delete : May id (.change .delete) .unread (.inr (.delete id))

/-- **What a call does, in order**: it reads, writes what it has read with its change, and is over. -/
theorem program_follows (id : TaskId) (c : Call) :
    (c.program id).Follows ⟨c.May id, Progress.step⟩ (fun _ φ => φ = .ended) .unread := by
  cases c with
  | record success =>
      refine ⟨.reload success, fun x => ?_⟩
      cases x with
      | error e => exact ⟨.tell success _, fun _ => rfl⟩
      | ok found =>
          cases found with
          | none => exact ⟨.tell success _, fun _ => rfl⟩
          | some t =>
              refine ⟨.date success t, fun now => ⟨.note success t now, fun y => ?_⟩⟩
              cases y with
              | ok u => rfl
              | error e => exact ⟨.tell success _, fun _ => rfl⟩
  | change c =>
      cases c with
      | delete => exact ⟨.delete, fun _ => rfl⟩
      | enable on =>
          refine ⟨.look on, fun x => ?_⟩
          cases x with
          | error e => rfl
          | ok found =>
              cases found with
              | none => rfl
              | some t => exact ⟨.stamp on t, fun now => ⟨.switch on t now, fun _ => rfl⟩⟩

/-- Where call `n` stands, read off a log. -/
def progress (n : Nat) (log : List Line) : Progress := phaseAt Progress.step .unread n log

/-- **What a call has done by now**: where it stands, its accesses, and what it has read. -/
inductive Account (id : TaskId) (c : Call) : Progress → List Access → Option Standing → Prop where
  | unread (o : Option Standing) : Account id c .unread [] o
  | holds {t : Task} (own : t.id = id) (fits : capped t.runCount = t.runCount) :
      Account id c (.holds t) [.read] (some t.standing)
  /-- There was no task to be read. -/
  | missed (kind : c ≠ .change .delete) : Account id c .ended [.read] none
  | written (kind : c ≠ .change .delete) (o : Option Standing) : Account id c .ended [.write, .read] o
  | deleted (kind : c = .change .delete) (o : Option Standing) : Account id c .ended [.write] o

/-- The store shows `o` of the task; if nothing, there is no row. -/
structure Shows (s : Store) (id : TaskId) (o : Option Standing) : Prop where
  shown : s.standing? id = o
  absent : o = none → s.rows.get? id.text = none

/-- **The store shows what the history tells**, and so does each call. -/
structure Books (id : TaskId) (calls : Nat → Call) (first : Option Standing) (s : Store)
    (log : List Line) : Prop where
  shows : Shows s id (desk calls first (history log)).shown
  accounts : ∀ n, Account id (calls n) (progress n log) (accesses n (history log))
    ((desk calls first (history log)).copies n)

section Books

variable {id : TaskId} {calls : Nat → Call} {first o : Option Standing} {s : Store} {log : List Line}
  {k n : Nat} {q : Question} {a : Access} {h : List (Nat × Access)}

theorem history_aside (x : q.Answer) (ha : access? q = none) :
    history (.answered k q x :: log) = history log := by
  simp [history, ha]

theorem history_access (x : q.Answer) (ha : access? q = some a) :
    history (.answered k q x :: log) = (k, a) :: history log := by
  simp [history, ha]

theorem accesses_self : accesses k ((k, a) :: h) = a :: accesses k h := by simp [accesses]

theorem accesses_of_ne (hn : n ≠ k) : accesses n ((k, a) :: h) = accesses n h := by
  simp [accesses, hn.symm]

theorem progress_self (x : q.Answer) :
    progress k (.answered k q x :: log) = (progress k log).step q x := if_pos rfl

theorem progress_of_ne (hn : n ≠ k) (x : q.Answer) :
    progress n (.answered k q x :: log) = progress n log := if_neg hn.symm

/-- A question that is no access changes nothing. -/
theorem Books.aside (hb : Books id calls first s log) (x : q.Answer) (ha : access? q = none)
    (stays : (progress k log).step q x = progress k log) :
    Books id calls first s (.answered k q x :: log) where
  shows := by rw [history_aside x ha]; exact hb.shows
  accounts n := by
    rw [history_aside x ha]
    by_cases hn : n = k
    · subst hn
      rw [progress_self, stays]
      exact hb.accounts n
    · rw [progress_of_ne hn]
      exact hb.accounts n

/-- An access: the desk goes on by one step, and only the account of the caller changes. -/
theorem Books.access {s' : Store} (hb : Books id calls first s log) (x : q.Answer)
    (ha : access? q = some a)
    (shows : Shows s' id ((desk calls first (history log)).step calls (k, a)).shown)
    (account : Account id (calls k) ((progress k log).step q x) (a :: accesses k (history log))
      (((desk calls first (history log)).step calls (k, a)).copies k)) :
    Books id calls first s' (.answered k q x :: log) where
  shows := by rw [history_access x ha]; exact shows
  accounts n := by
    rw [history_access x ha]
    by_cases hn : n = k
    · subst hn
      rw [progress_self, accesses_self]
      exact account
    · rw [progress_of_ne hn, accesses_of_ne hn]
      have same : ((desk calls first (history log)).step calls (k, a)).copies n =
          (desk calls first (history log)).copies n := by
        cases a with
        | read => exact Function.update_of_ne hn _ _
        | write => rfl
      show Account id (calls n) _ _ (((desk calls first (history log)).step calls (k, a)).copies n)
      rw [same]
      exact hb.accounts n

/-- What a read finds is what the store shows. -/
theorem account_found {c : Call} {x : Except Failure (Option Task)} (shows : Shows s id o)
    (hx : x = s.find id) (ok : x.isOk = true) (kind : c ≠ .change .delete) :
    Account id c (.ofFound x) [.read] o := by
  cases x with
  | error e => cases ok
  | ok found =>
      cases found with
      | none =>
          have gone := get?_of_find_none hx.symm
          obtain rfl : o = none := by rw [← shows.shown, standing?, gone]; rfl
          exact .missed kind
      | some t =>
          obtain ⟨own, shown, fits⟩ := standing_of_find hx.symm
          obtain rfl : o = some t.standing := by rw [← shows.shown, shown]
          exact .holds own fits

theorem Books.read (hb : Books id calls first s log) (hφ : progress k log = .unread)
    (ha : access? q = some .read) (x : q.Answer) {found : Except Failure (Option Task)}
    (step : (progress k log).step q x = .ofFound found) (hx : found = s.find id)
    (ok : found.isOk = true) (kind : calls k ≠ .change .delete) :
    Books id calls first s (.answered k q x :: log) := by
  refine hb.access x ha hb.shows ?_
  have account := hb.accounts k
  rw [hφ] at account
  generalize hl : accesses k (history log) = l at account ⊢
  cases account
  have copied : ((desk calls first (history log)).step calls (k, .read)).copies k =
      (desk calls first (history log)).shown := Function.update_self ..
  rw [step, copied]
  exact account_found hb.shows hx ok kind

/-- A write of what the call has read, with its change. -/
theorem Books.write (hb : Books id calls first s log) {t t' : Task} (hφ : progress k log = .holds t)
    (ha : access? q = some .write) (x : q.Answer) (ended : (progress k log).step q x = .ended)
    (same : t'.id = t.id)
    (writes : (calls k).writes (some t.standing) =
      some { t'.standing with runs := capped t'.runCount })
    (kind : calls k ≠ .change .delete) :
    Books id calls first (s.save t') (.answered k q x :: log) := by
  have account := hb.accounts k
  rw [hφ] at account
  generalize hl : accesses k (history log) = l at account
  generalize hc : (desk calls first (history log)).copies k = copy at account
  cases account with
  | holds own fits =>
      have shown : ((desk calls first (history log)).step calls (k, .write)).shown =
          some { t'.standing with runs := capped t'.runCount } := by rw [Desk.step, hc, writes]
      refine hb.access x ha ⟨?_, ?_⟩ ?_
      · rw [shown, standing?_save (same.trans own)]
      · rw [shown]
        exact nofun
      · rw [ended, hl]
        exact .written kind _

theorem Books.erase (hb : Books id calls first s log) (hφ : progress k log = .unread)
    (ha : access? q = some .write) (x : q.Answer) (ended : (progress k log).step q x = .ended)
    (kind : calls k = .change .delete) {s' : Store} (gone : s'.rows.get? id.text = none) :
    Books id calls first s' (.answered k q x :: log) := by
  have account := hb.accounts k
  rw [hφ] at account
  generalize hl : accesses k (history log) = l at account
  cases account
  have shown : ((desk calls first (history log)).step calls (k, .write)).shown = none := by
    rw [Desk.step, kind]
    rfl
  refine hb.access x ha ⟨?_, fun _ => gone⟩ ?_
  · rw [shown, standing?, gone]
    rfl
  · rw [ended, hl]
    exact .deleted kind _

theorem after_deleted {s' : Store} (hd : s.delete id = .ok s') :
    s.after (.inr (.delete id)) = s' := by
  simp only [after, hd]

/-- A deleted row is gone, and where there was none there is none. -/
theorem gone_after_delete (s : Store) (id : TaskId) :
    (s.after (.inr (.delete id))).rows.get? id.text = none := by
  cases hd : s.delete id with
  | ok s' => rw [after_deleted hd, get?_delete hd, if_pos (beq_self_eq_true _)]
  | error e =>
      simp only [after, hd]
      unfold delete at hd
      split at hd
      · cases hd
      · assumption

/-- **One question and its answer.** -/
theorem Books.answer (hb : Books id calls first s log)
    (may : (calls k).May id (progress k log) q) (x : q.Answer) (allowed : Allows s q x) :
    Books id calls first (s.after q) (.answered k q x :: log) := by
  generalize hc : calls k = c at may
  generalize hφ : progress k log = φ at may
  cases may with
  | reload success =>
      exact hb.read hφ rfl x (by rw [hφ]; rfl) allowed.1 allowed.2 (by rw [hc]; nofun)
  | date success t => exact hb.aside x rfl (by rw [hφ]; rfl)
  | note success t now =>
      exact hb.write hφ rfl x (by rw [hφ]; rfl) rfl (by rw [hc]; rfl) (by rw [hc]; nofun)
  | tell success notice => exact hb.aside x rfl (by rw [hφ]; rfl)
  | look on =>
      exact hb.read hφ rfl x (by rw [hφ]; rfl) allowed.1 allowed.2 (by rw [hc]; nofun)
  | stamp on t => exact hb.aside x rfl (by rw [hφ]; rfl)
  | switch on t now =>
      exact hb.write hφ rfl x (by rw [hφ]; rfl) rfl (by rw [hc]; rfl) (by rw [hc]; nofun)
  | delete => exact hb.erase hφ rfl x (by rw [hφ]; rfl) hc (gone_after_delete s id)

end Books

/-- **The store shows what the history tells**, whichever calls are made. -/
theorem books_of_reaches (calls : Nat → Call) {id : TaskId} {s : Store} {m : System}
    {first : Option Standing} (h : Reaches (service id) anyone (Machine.initial s) m)
    (shows : Shows s id first) (own : ∀ n a, m.calls n = some a → a.call = calls n) :
    Books id calls first m.state m.log := by
  induction h with
  | here => exact ⟨shows, fun _ => .unread none⟩
  | @step m m' n h _ hs ih =>
      have before (k : Nat) (a : Activity Call Question Question.Answer Reply)
          (ha : m.calls k = some a) : a.call = calls k := by
        obtain ⟨p', hp⟩ := hs.calls_after ha
        exact own k ⟨a.call, p'⟩ hp
      have hb := ih before
      cases hs with
      | call c free => exact ⟨hb.shows, hb.accounts⟩
      | @answer c q next x asks allowed =>
          have follows := (Machine.follows_of_reaches (fun _ c => program_follows id c) h n).2 _ asks
          have caller : c = calls n := before n _ asks
          subst caller
          exact hb.answer follows.1 x allowed

end TaskReplay.Store
