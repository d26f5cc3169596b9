import Mathlib.Order.Bounds.Basic
import TaskReplay.Proofs.Run.Film

/-!
# When a wait ends

A run sees a pause only when it looks, every tenth of a second, and a stop at once. Whatever is wished
while it waits, and in whatever order:

* `Agenda` -- wishes by time, no two at one time; `Agenda.control` -- what is wished at a time;
* `Earliest` -- the first of some times, if there is one;
* `Suspension.timer` -- the times at which a wait has a timer; `endure_heard`, `endure_ended` -- a wait goes
  on until the next wish and hears it, or is over before;
* `endure_resume`, `endure_sleep_until` -- **a wait ends at the first time that has a reason for it**: for a
  paused run a stop or a look that finds no pause, for a sleep a stop or its end;
* `Agenda.Polls` -- the loop in which a paused run looks, sleeps and looks again;
  `endure_resume_iff_polls` -- **a wait for a pause to end is that loop**;
* `le_now_take` -- no request on film turns the clock back.
-/

namespace TaskReplay

/-! ## 1. Wishes by time -/

/-- Entries in the order of time, no two at one time. -/
def Ordered (l : List (Nat × Wish)) : Prop := l.Pairwise fun a b => a.1 < b.1

/-- What is wished at time `t`, that time included, if `c` was wished before the entries. -/
def heardBy (c : Control) (l : List (Nat × Wish)) (t : Nat) : Control :=
  ((l.filter (·.1 ≤ t)).map (·.2)).foldl Control.wish c

/-- **Wishes by time.** -/
structure Agenda where
  entries : List (Nat × Wish)
  ordered : Ordered entries

namespace Agenda

/-- What is wished at a time, that time included. -/
def control (σ : Agenda) (t : Nat) : Control := heardBy .fresh σ.entries t

/-- The entries after a time. -/
def since (σ : Agenda) (t : Nat) : List (Nat × Wish) := σ.entries.filter (t < ·.1)

/-- The times of stops. -/
def stops (σ : Agenda) : Set Nat := {t | (t, Wish.stop) ∈ σ.entries}

end Agenda

section Heard

variable {c : Control} {l : List (Nat × Wish)} {e : Nat × Wish} {t t₀ : Nat}

theorem heardBy_cons_later (h : t < e.1) : heardBy c (e :: l) t = heardBy c l t := by
  simp [heardBy, Nat.not_le.mpr h]

theorem heardBy_cons_earlier (h : e.1 ≤ t) :
    heardBy c (e :: l) t = heardBy (c.wish e.2) l t := by
  simp [heardBy, h]

/-- Before the first entry, nothing has changed. -/
theorem heardBy_of_later (h : ∀ e ∈ l, t < e.1) : heardBy c l t = c := by
  have none_yet : l.filter (·.1 ≤ t) = [] :=
    List.filter_eq_nil_iff.mpr fun e he => by simpa using h e he
  simp [heardBy, none_yet]

/-- What is wished at a time, from what was wished at an earlier one. -/
theorem heardBy_split (ordered : Ordered l) (h : t₀ ≤ t) :
    heardBy c l t = heardBy (heardBy c l t₀) (l.filter (t₀ < ·.1)) t := by
  induction l generalizing c with
  | nil => rfl
  | cons e l ih =>
      obtain ⟨after, ordered⟩ := List.pairwise_cons.mp ordered
      by_cases past : e.1 ≤ t₀
      · have dropped : (e :: l).filter (t₀ < ·.1) = l.filter (t₀ < ·.1) := by simp [past]
        rw [dropped, heardBy_cons_earlier past, heardBy_cons_earlier (past.trans h)]
        exact ih ordered
      · have all_later : ∀ d ∈ e :: l, t₀ < d.1 := by
          intro d hd
          rcases List.mem_cons.mp hd with rfl | hd
          · exact Nat.lt_of_not_le past
          · exact (Nat.lt_of_not_le past).trans (after d hd)
        have kept : (e :: l).filter (t₀ < ·.1) = e :: l :=
          List.filter_eq_self.mpr fun d hd => by simpa using all_later d hd
        rw [kept, heardBy_of_later all_later]

/-- A stop is wished at a time exactly if one came by then. -/
theorem stopped_heardBy : (heardBy c l t).stopped = true ↔
    c.stopped = true ∨ ∃ u ≤ t, (u, Wish.stop) ∈ l := by
  simp [heardBy, Control.stopped_foldl_wish, and_comm]

/-- A stopped run takes no pause. -/
theorem unpaused_of_stopped (ws : List Wish) (h : c.stopped = true → c.paused = false)
    (stopped : (ws.foldl Control.wish c).stopped = true) :
    (ws.foldl Control.wish c).paused = false := by
  induction ws generalizing c with
  | nil => exact h stopped
  | cons x ws ih =>
      refine ih (fun still => ?_) stopped
      cases x with
      | pause =>
          have before : c.stopped = true := by simpa [Control.wish] using still
          simpa [Control.wish, Control.pause, before] using h before
      | resume => rfl
      | stop => rfl

end Heard

namespace Agenda

section Agenda

variable {σ : Agenda} {t t₀ : Nat}

theorem since_ordered (σ : Agenda) (t₀ : Nat) : Ordered (σ.since t₀) := σ.ordered.filter _

theorem since_later (σ : Agenda) (t₀ : Nat) : ∀ e ∈ σ.since t₀, t₀ < e.1 := fun e he => by
  simpa using (List.mem_filter.mp he).2

theorem mem_of_since {e : Nat × Wish} (h : e ∈ σ.since t₀) : e ∈ σ.entries := (List.mem_filter.mp h).1

/-- What is wished at a time, from what was wished before. -/
theorem control_since (h : t₀ ≤ t) : heardBy (σ.control t₀) (σ.since t₀) t = σ.control t :=
  (heardBy_split σ.ordered h).symm

/-- A stop is wished at a time exactly if one came by then. -/
theorem stopped_control : (σ.control t).stopped = true ↔ ∃ u ≤ t, u ∈ σ.stops := by
  rw [control, stopped_heardBy]
  simp [Control.fresh, stops]

/-- As long as no stop is wished, all stops are still to come. -/
theorem stop_since (unstopped : (σ.control t₀).stopped = false) :
    (t, Wish.stop) ∈ σ.since t₀ ↔ t ∈ σ.stops := by
  refine ⟨mem_of_since, fun stop => List.mem_filter.mpr ⟨stop, ?_⟩⟩
  have later : t₀ < t := Nat.lt_of_not_le fun early => by
    rw [stopped_control.mpr ⟨t, early, stop⟩] at unstopped
    cases unstopped
  simpa using later

end Agenda

end Agenda

/-! ## 2. The first time with a reason -/

/-- **The first of some times**, if there is one. -/
def Earliest (times : Set Nat) : Option Nat → Prop
  | some t => IsLeast times t
  | none => times = ∅

theorem Earliest.unique {times : Set Nat} {o o' : Option Nat} (h : Earliest times o)
    (h' : Earliest times o') : o = o' := by
  cases o with
  | none =>
      cases o' with
      | none => rfl
      | some t' => exact absurd h'.1 (h ▸ Set.notMem_empty t')
  | some t =>
      cases o' with
      | none => exact absurd h.1 (h' ▸ Set.notMem_empty t)
      | some t' => exact congrArg some (IsLeast.unique h h')

/-- Entries as wishes of a film: one at a time. -/
def singly (l : List (Nat × Wish)) : List (Nat × List Wish) := l.map fun e => (e.1, [e.2])

/-- No stop comes before the first entry. -/
theorem le_of_stop {t u : Nat} {x : Wish} {l : List (Nat × Wish)} (ordered : Ordered ((t, x) :: l))
    (h : (u, Wish.stop) ∈ (t, x) :: l) : t ≤ u := by
  rcases List.mem_cons.mp h with same | h
  · rw [← (Prod.mk.inj same).1]
  · exact ((List.pairwise_cons.mp ordered).1 _ h).le

/-- Only a stop stops. -/
theorem unstopped_wish {c : Control} {x : Wish} (unstopped : c.stopped = false) (other : x ≠ .stop) :
    (c.wish x).stopped = false := by
  cases x with
  | pause => rw [Control.wish, Control.stopped_pause, unstopped]
  | resume => exact unstopped
  | stop => exact absurd rfl other

/-- A look at the pause, for a wait that began at a time. -/
def IsPoll (since t : Nat) : Prop := ∃ k, 1 ≤ k ∧ t = since + pausePoll * k

theorem IsPoll.later {since t : Nat} (h : IsPoll since t) : since < t := by
  obtain ⟨k, pos, rfl⟩ := h
  exact Nat.lt_add_of_pos_right (Nat.mul_pos (by decide) pos)

theorem isPoll_succ (since k : Nat) : IsPoll since (since + pausePoll * k + pausePoll) :=
  ⟨k + 1, Nat.le_add_left .., by rw [Nat.mul_succ, Nat.add_assoc]⟩

/-- Between two looks there is none. -/
theorem IsPoll.le_of_lt {since k t : Nat} (h : IsPoll since t) (later : since + pausePoll * k < t) :
    since + pausePoll * k + pausePoll ≤ t := by
  obtain ⟨j, -, rfl⟩ := h
  have beyond : k + 1 ≤ j := Nat.lt_of_mul_lt_mul_left (Nat.lt_of_add_lt_add_left later)
  have scaled := Nat.mul_le_mul_left pausePoll beyond
  rw [Nat.mul_succ] at scaled
  omega

theorem nextPoll_isLeast {since now : Nat} (h : since ≤ now) :
    IsLeast {t | now < t ∧ IsPoll since t} (Suspension.nextPoll since now) := by
  refine ⟨⟨Suspension.lt_nextPoll h, (now - since) / pausePoll + 1, Nat.le_add_left 1 _, rfl⟩, ?_⟩
  rintro t ⟨later, k, -, rfl⟩
  have beyond : (now - since) / pausePoll < k := by
    rw [Nat.div_lt_iff_lt_mul (by decide), Nat.mul_comm]
    omega
  exact Nat.add_le_add_left (Nat.mul_le_mul_left pausePoll beyond) since

namespace Suspension

/-- **The times at which a wait has a timer.** -/
def timer : Suspension → Nat → Prop
  | settle due, t | sleep due, t => t = due
  | resume since, t => IsPoll since t

/-- Whether a wait can be under way at a time. -/
def Under : Suspension → Nat → Prop
  | settle due, t | sleep due, t => t ≤ due
  | resume since, t => since ≤ t

section Waits

variable {w : Suspension} {c : Control} {now t : Nat} {full : Bool} {x : Wish} {l : List (Nat × Wish)}

/-- A wait does not end before it began. -/
theorem le_wake (under : w.Under now) (wakes : w.wake? c now = some (t, full)) : now ≤ t := by
  cases w with
  | settle due =>
      cases wakes
      exact under
  | sleep due =>
      simp only [wake?] at wakes
      split at wakes <;> cases wakes
      · exact le_refl _
      · exact under
  | resume since =>
      simp only [wake?] at wakes
      split at wakes
      · cases wakes
        exact le_refl _
      · split at wakes <;> cases wakes
        exact (nextPoll_isLeast under).1.1.le

/-- A wait ends at once at a stop and else at one of its timers, and tells which of both it was. -/
theorem wake?_timer (heeds : w.heeds = true) (under : w.Under now)
    (wakes : w.wake? c now = some (t, full)) : full = !c.stopped ∧ (t = now ∨ w.timer t) := by
  cases stopped : c.stopped with
  | true =>
      rw [wake?_stopped heeds stopped] at wakes
      cases wakes
      exact ⟨rfl, .inl rfl⟩
  | false =>
      cases w with
      | settle due => cases heeds
      | sleep due =>
          simp only [wake?, stopped, Bool.false_eq_true, if_false] at wakes
          cases wakes
          exact ⟨rfl, .inr rfl⟩
      | resume since =>
          simp only [wake?, stopped, Bool.false_eq_true, if_false] at wakes
          split at wakes
          · cases wakes
          · cases wakes
            exact ⟨rfl, .inr (nextPoll_isLeast under).1.2⟩

/-- A wait that goes on until a time that is none of its timers goes on beyond it. -/
theorem lt_wake (off : ¬ w.timer t) (heeds : w.heeds = true) (under : w.Under now) (h : now < t)
    (goes_on : (w.wake? c now).all (t ≤ ·.1)) : (w.wake? c now).all (t < ·.1) := by
  cases wakes : w.wake? c now with
  | none => rfl
  | some d =>
      obtain ⟨u, full⟩ := d
      obtain ⟨-, at_once | is_timer⟩ := wake?_timer heeds under wakes
      · simp only [wakes, Option.all_some, decide_eq_true_eq] at goes_on
        omega
      · simp only [wakes, Option.all_some, decide_eq_true_eq] at goes_on ⊢
        exact lt_of_le_of_ne goes_on fun same => off (same ▸ is_timer)

/-- A wait that goes on until a time is under way then. -/
theorem Under.later (under : w.Under now) (goes_on : (w.wake? c now).all (t ≤ ·.1)) :
    w.Under (max now t) := by
  cases w with
  | settle due => exact max_le under (by simpa [wake?] using goes_on)
  | sleep due =>
      cases stopped : c.stopped with
      | true =>
          have past : t ≤ now := by simpa [wake?, stopped] using goes_on
          rw [max_eq_left past]
          exact under
      | false => exact max_le under (by simpa [wake?, stopped] using goes_on)
  | resume since => exact le_trans under (le_max_left now t)

/-- A wait that goes on until the next entry hears it. -/
theorem endure_heard {d : Nat × Wish} (h : now < d.1) (goes_on : (w.wake? c now).all (d.1 ≤ ·.1)) :
    (w.endure c now (singly (d :: l))).2 = (w.endure (c.wish d.2) d.1 (singly l)).2 := by
  simp only [singly, List.map_cons, endure]
  rw [if_pos goes_on, Nat.max_eq_right h.le]
  rfl

/-- A wait that is over before the next entry. -/
theorem endure_ended {d : Nat × Wish} (wakes : w.wake? c now = some (t, full)) (h : t < d.1) :
    (w.endure c now (singly (d :: l))).2 = some t := by
  have finished : ¬ (w.wake? c now).all (d.1 ≤ ·.1) := by simpa [wakes] using h
  simp only [singly, List.map_cons, endure]
  rw [if_neg finished, wakes]
  rfl

/-- **A wait does not end before it began**, whatever is wished meanwhile. -/
theorem le_endure {wishes : List (Nat × List Wish)} (under : w.Under now)
    (ends : (w.endure c now wishes).2 = some t) : now ≤ t := by
  induction wishes generalizing c now with
  | nil =>
      obtain ⟨⟨t', full⟩, wakes, rfl⟩ := Option.map_eq_some_iff.mp ends
      exact le_wake under wakes
  | cons e rest ih =>
      simp only [endure] at ends
      split at ends
      · next goes_on => exact (le_max_left now e.1).trans (ih (under.later goes_on) ends)
      · obtain ⟨⟨t', full⟩, wakes, rfl⟩ := Option.map_eq_some_iff.mp ends
        exact le_wake under wakes

end Waits

section Endure

variable {c : Control} {now since due t : Nat} {x : Wish} {l : List (Nat × Wish)}

/-- The times at which a paused run has a reason to go on: a stop, or a look that finds no pause. -/
def reasons (c : Control) (since now : Nat) (l : List (Nat × Wish)) : Set Nat :=
  {t | (t, Wish.stop) ∈ l ∨ now < t ∧ IsPoll since t ∧ (heardBy c l t).paused = false}

/-- **A look that finds no pause comes after the next entry**, if the wait goes on until then. -/
theorem lt_of_free_poll (unstopped : c.stopped = false) (begun : since ≤ now)
    (ordered : Ordered ((t, x) :: l)) (off : ¬ IsPoll since t)
    (goes_on : ((resume since).wake? c now).all (t ≤ ·.1)) {u : Nat} (poll : now < u ∧ IsPoll since u)
    (free : (heardBy c ((t, x) :: l) u).paused = false) : t < u := by
  refine lt_of_le_of_ne (Nat.le_of_not_lt fun before => ?_) ?_
  · -- nothing was wished by then, so that look would have ended the wait
    have later : ∀ d ∈ (t, x) :: l, u < d.1 := by
      intro d hd
      rcases List.mem_cons.mp hd with rfl | hd
      · exact before
      · exact before.trans ((List.pairwise_cons.mp ordered).1 d hd)
    rw [heardBy_of_later later] at free
    have wakes : t ≤ nextPoll since now := by simpa [wake?, unstopped, free] using goes_on
    have first : nextPoll since now ≤ u := (nextPoll_isLeast begun).2 poll
    omega
  · rintro rfl
    exact off poll.2

/-- **An entry that is no stop** takes no reason away and adds none, if the wait goes on until then. -/
theorem reasons_cons (unstopped : c.stopped = false) (begun : since ≤ now)
    (ordered : Ordered ((t, x) :: l)) (off : ¬ IsPoll since t) (now_lt : now < t)
    (goes_on : ((resume since).wake? c now).all (t ≤ ·.1)) (other : x ≠ .stop) :
    reasons c since now ((t, x) :: l) = reasons (c.wish x) since t l := by
  ext u
  have heard (u_later : t < u) : heardBy c ((t, x) :: l) u = heardBy (c.wish x) l u :=
    heardBy_cons_earlier (e := (t, x)) u_later.le
  constructor
  · rintro (stopped | ⟨poll, is_poll, free⟩)
    · rcases List.mem_cons.mp stopped with same | stopped
      · exact absurd (Prod.mk.inj same).2.symm other
      · exact .inl stopped
    · have u_later := lt_of_free_poll unstopped begun ordered off goes_on ⟨poll, is_poll⟩ free
      exact .inr ⟨u_later, is_poll, heard u_later ▸ free⟩
  · rintro (stopped | ⟨u_later, is_poll, free⟩)
    · exact .inl (List.mem_cons_of_mem _ stopped)
    · exact .inr ⟨now_lt.trans u_later, is_poll, (heard u_later).symm ▸ free⟩

/-- **A wait for a pause to end** is over at the first time with a reason for it. -/
theorem endure_resume (unstopped : c.stopped = false) (begun : since ≤ now) (ordered : Ordered l)
    (later : ∀ e ∈ l, now < e.1) (off : ∀ e ∈ l, ¬ IsPoll since e.1) :
    Earliest (reasons c since now l) ((resume since).endure c now (singly l)).2 := by
  induction l generalizing c now with
  | nil =>
      cases paused : c.paused with
      | true => simp [endure, singly, wake?, unstopped, paused, Earliest, reasons, heardBy]
      | false =>
          simpa [endure, singly, wake?, unstopped, paused, Earliest, reasons, heardBy] using
            nextPoll_isLeast begun
  | cons e l ih =>
      obtain ⟨t, x⟩ := e
      have now_lt : now < t := later _ List.mem_cons_self
      have off_t : ¬ IsPoll since t := off _ List.mem_cons_self
      have after : ∀ d ∈ l, t < d.1 := (List.pairwise_cons.mp ordered).1
      by_cases goes_on : ((resume since).wake? c now).all (t ≤ ·.1)
      · rw [endure_heard now_lt goes_on]
        by_cases stop : x = .stop
        · subst stop
          rw [(endure_stopped (w := resume since) rfl (c := c.wish .stop) rfl t (singly l)).1]
          refine ⟨.inl List.mem_cons_self, ?_⟩
          rintro u (stopped | ⟨poll, is_poll, free⟩)
          · exact le_of_stop ordered stopped
          · exact (lt_of_free_poll unstopped begun ordered off_t goes_on ⟨poll, is_poll⟩ free).le
        · rw [reasons_cons unstopped begun ordered off_t now_lt goes_on stop]
          exact ih (unstopped_wish unstopped stop) (begun.trans now_lt.le)
            (List.pairwise_cons.mp ordered).2 after fun d hd => off d (List.mem_cons_of_mem _ hd)
      · -- no pause is wished, and a look comes first
        have free : c.paused = false := by
          cases paused : c.paused with
          | true => simp [wake?, unstopped, paused] at goes_on
          | false => rfl
        have first : nextPoll since now < t := by simpa [wake?, unstopped, free] using goes_on
        have wakes : (resume since).wake? c now = some (nextPoll since now, true) := by
          simp [wake?, unstopped, free]
        obtain ⟨⟨next, is_poll⟩, least⟩ := nextPoll_isLeast begun
        rw [endure_ended wakes first]
        refine ⟨.inr ⟨next, is_poll, ?_⟩, ?_⟩
        · rw [heardBy_cons_later first, heardBy_of_later fun d hd => first.trans (after d hd), free]
        · rintro u (stopped | ⟨poll, is_poll, -⟩)
          · exact first.le.trans (le_of_stop ordered stopped)
          · exact least ⟨poll, is_poll⟩

/-- **A sleep** is over when it is due or at a stop before that. -/
theorem endure_sleep_until (unstopped : c.stopped = false) (begun : now ≤ due) (ordered : Ordered l)
    (later : ∀ e ∈ l, now < e.1) :
    Earliest {t | t = due ∨ (t, Wish.stop) ∈ l} ((sleep due).endure c now (singly l)).2 := by
  induction l generalizing c now with
  | nil => simp [endure, singly, wake?, unstopped, Earliest, IsLeast, lowerBounds]
  | cons e l ih =>
      obtain ⟨t, x⟩ := e
      have now_lt : now < t := later _ List.mem_cons_self
      have wakes : (sleep due).wake? c now = some (due, true) := by simp [wake?, unstopped]
      by_cases in_time : t ≤ due
      · rw [endure_heard now_lt (by simpa [wakes] using in_time)]
        by_cases stop : x = .stop
        · subst stop
          rw [(endure_stopped (w := sleep due) rfl (c := c.wish .stop) rfl t (singly l)).1]
          refine ⟨.inr List.mem_cons_self, ?_⟩
          rintro u (rfl | stopped)
          · exact in_time
          · exact le_of_stop ordered stopped
        · have same : {u | u = due ∨ (u, Wish.stop) ∈ (t, x) :: l} =
              {u | u = due ∨ (u, Wish.stop) ∈ l} := by
            ext u
            simp [Ne.symm stop]
          rw [same]
          obtain ⟨after, ordered⟩ := List.pairwise_cons.mp ordered
          exact ih (unstopped_wish unstopped stop) in_time ordered after
      · have late : due < t := Nat.lt_of_not_le in_time
        rw [endure_ended wakes late]
        refine ⟨.inl rfl, ?_⟩
        rintro u (rfl | stopped)
        · exact le_refl _
        · exact late.le.trans (le_of_stop ordered stopped)

end Endure

end Suspension

/-! ## 3. The loop of looks -/

namespace Agenda

variable {σ : Agenda} {t₀ t u r : Nat}

/-- The times at which a run that is paused at `t₀` has a reason to go on. -/
def reasons (σ : Agenda) (t₀ : Nat) : Set Nat :=
  σ.stops ∪ {t | IsPoll t₀ t ∧ (σ.control t).paused = false}

theorem reasons_since (unstopped : (σ.control t₀).stopped = false) :
    Suspension.reasons (σ.control t₀) t₀ t₀ (σ.since t₀) = σ.reasons t₀ := by
  ext t
  refine or_congr (stop_since unstopped) ⟨fun h => ?_, fun h => ?_⟩
  · obtain ⟨later, is_poll, free⟩ := h
    exact ⟨is_poll, control_since later.le ▸ free⟩
  · obtain ⟨is_poll, free⟩ := h
    have later : t₀ < t := is_poll.later
    exact ⟨later, is_poll, (control_since later.le).symm ▸ free⟩

/-- A wait for a pause to end that nobody disturbs at a look. -/
theorem earliest_resume (unstopped : (σ.control t₀).stopped = false)
    (off : ∀ e ∈ σ.entries, ¬ IsPoll t₀ e.1) : Earliest (σ.reasons t₀)
      ((Suspension.resume t₀).endure (σ.control t₀) t₀ (singly (σ.since t₀))).2 :=
  reasons_since unstopped ▸ Suspension.endure_resume unstopped (le_refl _) (σ.since_ordered _)
    (σ.since_later _) fun e he => off e (mem_of_since he)

/-- A sleep of some length from `t` on is over at its end or at the first stop. -/
theorem exists_sleep_ends (unstopped : (σ.control t).stopped = false) (ms : Nat) :
    ∃ u, ((Suspension.sleep (t + ms)).endure (σ.control t) t (singly (σ.since t))).2 = some u ∧
      IsLeast {u | u = t + ms ∨ u ∈ σ.stops} u := by
  have earliest := Suspension.endure_sleep_until unstopped (Nat.le_add_right t ms)
    (σ.since_ordered _) (σ.since_later _)
  simp only [stop_since unstopped] at earliest
  cases ends : ((Suspension.sleep (t + ms)).endure (σ.control t) t (singly (σ.since t))).2 with
  | none =>
      rw [ends] at earliest
      have due : t + ms ∈ {u | u = t + ms ∨ u ∈ σ.stops} := .inl rfl
      exact absurd due (earliest ▸ Set.notMem_empty _)
  | some u =>
      rw [ends] at earliest
      exact ⟨u, rfl, earliest⟩

/-- **The loop of a paused run**, from one of its looks to its end: a look that finds no pause pending
is the last; after any other it sleeps for a tenth of a second, or until a stop, and looks again. -/
inductive Polls (σ : Agenda) : Nat → Nat → Prop where
  | last {t : Nat} (free : (σ.control t).pausePending = false) : Polls σ t t
  | again {t u r : Nat} (pending : (σ.control t).pausePending = true)
      (sleeps : ((Suspension.sleep (t + pausePoll)).endure (σ.control t) t
        (singly (σ.since t))).2 = some u)
      (rest : Polls σ u r) : Polls σ t r

/-- A look of a run that is paused since `t₀`, which finds it paused and has found no reason to go on. -/
structure StillPaused (σ : Agenda) (t₀ t : Nat) : Prop where
  look : ∃ k, t = t₀ + pausePoll * k
  pending : (σ.control t).pausePending = true
  ahead : ∀ u ∈ σ.reasons t₀, t < u

theorem unstopped_of_pending {c : Control} (pending : c.pausePending = true) : c.stopped = false := by
  simpa using (Bool.and_eq_true_iff.mp pending).2

theorem StillPaused.first (pending : (σ.control t₀).pausePending = true) : σ.StillPaused t₀ t₀ where
  look := ⟨0, rfl⟩
  pending := pending
  ahead u hu := by
    rcases hu with stop | ⟨is_poll, -⟩
    · exact since_later σ t₀ _ ((stop_since (unstopped_of_pending pending)).mpr stop)
    · exact is_poll.later

/-- Where a pause is pending there is no reason to go on. -/
theorem notMem_reasons (pending : (σ.control u).pausePending = true) : u ∉ σ.reasons t₀ := by
  intro reason
  rcases reason with stop | ⟨-, free⟩
  · have unstopped := unstopped_of_pending pending
    rw [stopped_control.mpr ⟨u, le_refl u, stop⟩] at unstopped
    cases unstopped
  · rw [Control.pausePending, free] at pending
    cases pending

/-- A look that finds no pause pending is a reason to go on, if no stop came before it. -/
theorem mem_reasons (free : (σ.control u).pausePending = false) (is_poll : IsPoll t₀ u)
    (stops : ∀ v ∈ σ.stops, u ≤ v) : u ∈ σ.reasons t₀ := by
  cases stopped : (σ.control u).stopped with
  | true =>
      obtain ⟨v, by_then, stop⟩ := stopped_control.mp stopped
      exact .inl (le_antisymm by_then (stops v stop) ▸ stop)
  | false =>
      have unpaused : (σ.control u).paused = false := by
        simpa [Control.pausePending, stopped] using free
      exact .inr ⟨is_poll, unpaused⟩

/-- After a look comes the end of its sleep: one more look at a pending pause, or the first reason to go
on. -/
theorem StillPaused.next (h : σ.StillPaused t₀ t)
    (wakes : IsLeast {u | u = t + pausePoll ∨ u ∈ σ.stops} u) :
    σ.StillPaused t₀ u ∨ (σ.control u).pausePending = false ∧ IsLeast (σ.reasons t₀) u := by
  obtain ⟨k, rfl⟩ := h.look
  have within : u ≤ t₀ + pausePoll * k + pausePoll := wakes.2 (.inl rfl)
  have stops : ∀ v ∈ σ.stops, u ≤ v := fun v stop => wakes.2 (.inr stop)
  -- no reason comes before the sleep is over
  have bound : ∀ v ∈ σ.reasons t₀, u ≤ v := by
    intro v reason
    have later := h.ahead v reason
    rcases reason with stop | ⟨is_poll, -⟩
    · exact stops v stop
    · exact within.trans (is_poll.le_of_lt later)
  cases pending : (σ.control u).pausePending with
  | true =>
      refine .inl ⟨?_, pending, fun v hv => lt_of_le_of_ne (bound v hv) ?_⟩
      · rcases wakes.1 with rfl | stop
        · exact ⟨k + 1, by rw [Nat.mul_succ, Nat.add_assoc]⟩
        · exact absurd (show u ∈ σ.reasons t₀ from .inl stop) (notMem_reasons pending)
      · exact fun same => notMem_reasons pending (same ▸ hv)
  | false =>
      refine .inr ⟨rfl, ?_, bound⟩
      rcases wakes.1 with rfl | stop
      · exact mem_reasons pending (isPoll_succ t₀ k) stops
      · exact .inl stop

/-- The loop ends at the first reason to go on. -/
theorem Polls.isLeast (polls : σ.Polls t r) (h : σ.StillPaused t₀ t) :
    IsLeast (σ.reasons t₀) r := by
  induction polls with
  | last free =>
      rw [h.pending] at free
      cases free
  | again pending sleeps rest ih =>
      obtain ⟨u, ends, wakes⟩ := exists_sleep_ends (unstopped_of_pending pending) pausePoll
      obtain rfl := Option.some.inj (sleeps.symm.trans ends)
      rcases h.next wakes with still | ⟨free, first⟩
      · exact ih still
      · cases rest with
        | last => exact first
        | again pending =>
            rw [pending] at free
            cases free

/-- It comes to its end if there is a reason to go on. -/
theorem polls_of_isLeast (first : IsLeast (σ.reasons t₀) r) (h : σ.StillPaused t₀ t) :
    σ.Polls t r := by
  -- each sleep brings the loop closer to that reason
  induction left : r - t using Nat.strong_induction_on generalizing t with
  | _ left ih =>
    obtain ⟨u, ends, wakes⟩ := exists_sleep_ends (unstopped_of_pending h.pending) pausePoll
    refine .again h.pending ends ?_
    rcases h.next wakes with still | ⟨free, now⟩
    · have before : u < r := still.ahead r first.1
      have later : t < u := by
        rcases wakes.1 with rfl | stop
        · exact Nat.lt_add_of_pos_right (by decide)
        · exact h.ahead u (.inl stop)
      exact ih (r - u) (by omega) still rfl
    · rw [first.unique now]
      exact .last free

/-- **A wait for a pause to end is that loop**: the time at which a run that was found paused goes on can
be had without its looks. -/
theorem endure_resume_iff_polls (pending : (σ.control t₀).pausePending = true)
    (off : ∀ e ∈ σ.entries, ¬ IsPoll t₀ e.1) :
    ((Suspension.resume t₀).endure (σ.control t₀) t₀ (singly (σ.since t₀))).2 = some t ↔
      σ.Polls t₀ t := by
  have earliest := earliest_resume (unstopped_of_pending pending) off
  refine ⟨fun ends => ?_, fun polls => ?_⟩
  · rw [ends] at earliest
    exact polls_of_isLeast earliest (.first pending)
  · have first : Earliest (σ.reasons t₀) (some t) := polls.isLeast (.first pending)
    exact earliest.unique first

end Agenda

/-! ## 4. Waits on film -/

/-- No request turns the clock back. -/
theorem le_now_take (w : Surroundings) (plan : Plan) (f : Film) (q : Request) :
    f.now ≤ (f.take w plan q).now := by
  have under : (f.wait w q).Under f.now := by
    cases q with
    | awaitResume =>
        simp only [Film.wait]
        split <;> exact Nat.le_refl _
    | _ => exact Nat.le_add_right _ _
  show f.now ≤ (f.shot w plan q).ended.getD f.now
  cases ended : (f.shot w plan q).ended with
  | none => exact Nat.le_refl _
  | some t => exact Suspension.le_endure under ended

end TaskReplay
