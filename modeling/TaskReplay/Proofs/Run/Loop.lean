import TaskReplay.Proofs.Run.Walk

/-!
# Loops

A loop looks for a stop, looks whether it goes on and does its body, again and again up to its limit.

* `Performs` -- steps one after the other, each with its delays, up to the first that fails;
* `LoopRule.Looks` -- the ways a look can go with which a loop decides on a round;
* `Rounds`, `Closing` -- rounds that were done, and the ways a loop can end after them, with all that
  is asked; `plays_iterate` -- a loop goes one of these ways;
* `searched`, `noticed` -- the searches in a log, each with its answer, and what the log was told;
* `loop_law` -- **how many rounds a loop does**, how often it searches, and when it warns.
-/

namespace TaskReplay

open Script

/-! ## 1. Inner steps -/

/-- A step within a step: with its own delays, and nothing more. -/
def innerStep (st : Settings) (a : Action) : Script Unit := do
  pauseFor a.header.delayBefore
  a.execute st
  pauseFor a.header.delayAfter

/-- **Inner steps in order**, all of them or up to the first that fails, where the log ends. -/
inductive Performs (st : Settings) :
    List Action → Scene → List Turn → Except StepError Unit → Scene → Prop where
  | nil (s : Scene) : Performs st [] s [] (.ok ()) s
  | step {a : Action} {rest : List Action} {s u t : Scene} {log log' : List Turn}
      {r : Except StepError Unit} (first : Plays (innerStep st a).run s log (.ok ()) u)
      (later : Performs st rest u log' r t) : Performs st (a :: rest) s (log ++ log') r t
  | fail {a : Action} {rest : List Action} {s t : Scene} {log : List Turn} {e : StepError}
      (first : Plays (innerStep st a).run s log (.error e) t) :
      Performs st (a :: rest) s log (.error e) t

section Plays

variable {st : Settings} {s t : Scene} {log : List Turn} {r : Except StepError Unit}

theorem run_executeAll_cons (a : Action) (rest : List Action) :
    (executeAll st (a :: rest)).run = (innerStep st a >>= fun _ => executeAll st rest).run := by
  rw [executeAll]
  simp only [innerStep, run_bind, Prog.bind_assoc]
  congr 1
  funext x
  cases x with
  | error e => rfl
  | ok _ =>
    simp only [Prog.bind_assoc]
    congr 1
    funext x
    cases x <;> rfl

theorem plays_executeAll {body : List Action} (h : Plays (executeAll st body).run s log r t) :
    Performs st body s log r t := by
  induction body generalizing s log with
  | nil =>
      rw [executeAll] at h
      obtain ⟨rfl, rfl, rfl⟩ := plays_done h
      exact .nil t
  | cons a rest ih =>
      rw [run_executeAll_cons] at h
      obtain ⟨first, later, _, u, rfl, ha, hr⟩ | ⟨e, rfl, ha⟩ := plays_andThen h
      · exact .step ha (ih hr)
      · exact .fail ha

end Plays

/-! ## 2. Whether a loop goes on -/

/-- Whether a loop goes by what is on the screen. -/
def LoopKind.watches : LoopKind → Bool
  | .whileImageVisible | .untilImageVisible => true
  | .count | .infinite => false

/-- Whether a loop that goes by the screen goes on after a search. -/
def LoopRule.goesOn (r : LoopRule) (m : Match) : Bool :=
  match r.kind with
  | .untilImageVisible => !m.found
  | _ => m.found

/-- **How a look can go** with which a loop decides on a round within its limit: one search if it goes
by the screen, and else none. -/
inductive LoopRule.Looks (st : Settings) (id : String) (r : LoopRule) (done : Nat) (s : Scene) :
    List Turn → Except StepError Bool → Scene → Prop where
  | blind (kind : r.kind.watches = false) : Looks st id r done s [] (.ok (r.wantsMore done)) s
  | seen {template : String} (kind : r.kind.watches = true) (named : r.template = some template)
      (ws : List Wish) (m : Match) :
      Looks st id r done s [⟨.search template st.confidence st.captureRegion, ws, .ok m⟩]
        (.ok (r.goesOn m)) (s.wishes ws)
  | failed {template : String} (kind : r.kind.watches = true) (named : r.template = some template)
      (ws : List Wish) (f : Failure) :
      Looks st id r done s [⟨.search template st.confidence st.captureRegion, ws, .error f⟩]
        (.error (.dispatch f)) (s.wishes ws)
  | unnamed (kind : r.kind.watches = true) (unnamed : r.template = none) :
      Looks st id r done s [] (.error (.dispatch (.validation [.missingField id .template]))) s

section Looks

variable {st : Settings} {id : String} {rule : LoopRule} {done : Nat} {s t : Scene}
  {log : List Turn} {go : Except StepError Bool}

theorem run_proceeds_blind (kind : rule.kind.watches = false) :
    (rule.proceeds st id done).run = .done (.ok (rule.wantsMore done)) := by
  obtain ⟨k, count, template, most⟩ := rule
  cases k with
  | count | infinite => rfl
  | whileImageVisible | untilImageVisible => cases kind

theorem run_proceeds_named {template : String} (kind : rule.kind.watches = true)
    (named : rule.template = some template) :
    (rule.proceeds st id done).run = .ask (.search template st.confidence st.captureRegion) fun x =>
      .done ((x.map rule.goesOn).mapError .dispatch) := by
  obtain ⟨k, count, _, most⟩ := rule
  cases named
  cases k with
  | count | infinite => cases kind
  | whileImageVisible | untilImageVisible =>
    show Prog.ask (Request.search template st.confidence st.captureRegion) _ =
      Prog.ask (Request.search template st.confidence st.captureRegion) _
    congr 1
    funext x
    cases x <;> rfl

theorem run_proceeds_unnamed (kind : rule.kind.watches = true) (unnamed : rule.template = none) :
    (rule.proceeds st id done).run =
      .done (.error (.dispatch (.validation [.missingField id .template]))) := by
  obtain ⟨k, count, _, most⟩ := rule
  cases unnamed
  cases k with
  | count | infinite => cases kind
  | whileImageVisible | untilImageVisible => rfl

/-- **The look goes one of these ways.** -/
theorem plays_proceeds (h : Plays (rule.proceeds st id done).run s log go t) :
    rule.Looks st id done s log go t := by
  cases kind : rule.kind.watches with
  | false =>
      rw [run_proceeds_blind kind] at h
      obtain ⟨rfl, rfl, rfl⟩ := plays_done h
      exact .blind kind
  | true =>
      cases named : rule.template with
      | none =>
          rw [run_proceeds_unnamed kind named] at h
          obtain ⟨rfl, rfl, rfl⟩ := plays_done h
          exact .unnamed kind named
      | some template =>
          rw [run_proceeds_named kind named] at h
          obtain ⟨ws, x, rest, -, -, rfl, hd⟩ := plays_ask h
          obtain ⟨rfl, rfl, rfl⟩ := plays_done hd
          cases x with
          | ok m => exact .seen kind named ws m
          | error f => exact .failed kind named ws f

end Looks

/-! ## 3. The course of a loop -/

/-- What a loop asks itself for a round, and what its body does in it. -/
structure Round where
  own : List Turn
  work : List Turn

/-- What is asked in a round. -/
def Round.log (r : Round) : List Turn := r.own ++ r.work

/-- What a loop asks itself for rounds. -/
def ownTurns (rounds : List Round) : List Turn := rounds.flatMap Round.own

/-- What a loop asks itself if no stop is wished: it waits for a pause to end, and looks. -/
def unstopped (ws : List Wish) (paused : Bool) (look : List Turn) : List Turn :=
  ⟨.awaitResume, ws, paused⟩ :: ⟨.stopped, [], false⟩ :: look

section Course

variable (st : Settings) (id : String) (rule : LoopRule) (body : List Action)

/-- **Rounds that were done** after `done` others: before each a look that says to go on, and then the
whole body. -/
inductive Rounds : Nat → Scene → List Round → Scene → Prop where
  | nil (done : Nat) (s : Scene) : Rounds done s [] s
  | cons {done : Nat} {s u v t : Scene} {look work : List Turn} {rounds : List Round}
      (ws : List Wish) (paused : Bool) (within : done < rule.limit)
      (looks : rule.Looks st id done (s.wishes ws) look (.ok true) u)
      (does : Performs st body u work (.ok ()) v) (later : Rounds (done + 1) v rounds t) :
      Rounds done s (⟨unstopped ws paused look, work⟩ :: rounds) t

/-- **How a loop can end** after `done` rounds. -/
inductive Closing (done : Nat) (s : Scene) : Round → Except StepError Unit → Scene → Prop where
  /-- A stop is wished before a round. -/
  | stopped (ws : List Wish) (paused : Bool) (stop : (s.wishes ws).control.stopped = true) :
      Closing done s ⟨[⟨.awaitResume, ws, paused⟩, ⟨.stopped, [], true⟩], []⟩ (.error .interrupted)
        (s.wishes ws)
  /-- The look says not to go on. -/
  | ended {t : Scene} {look : List Turn} (ws : List Wish) (paused : Bool) (within : done < rule.limit)
      (looks : rule.Looks st id done (s.wishes ws) look (.ok false) t) :
      Closing done s ⟨unstopped ws paused look, []⟩ (.ok ()) t
  /-- The look fails. -/
  | blinded {t : Scene} {look : List Turn} {e : StepError} (ws : List Wish) (paused : Bool)
      (within : done < rule.limit)
      (looks : rule.Looks st id done (s.wishes ws) look (.error e) t) :
      Closing done s ⟨unstopped ws paused look, []⟩ (.error e) t
  /-- A step of the body fails. -/
  | broken {u t : Scene} {look work : List Turn} {e : StepError} (ws : List Wish) (paused : Bool)
      (within : done < rule.limit)
      (looks : rule.Looks st id done (s.wishes ws) look (.ok true) u)
      (does : Performs st body u work (.error e) t) :
      Closing done s ⟨unstopped ws paused look, work⟩ (.error e) t
  /-- The limit is reached, and the loop wanted to go on. -/
  | exhausted (ws : List Wish) (paused : Bool) (limit : done = rule.limit)
      (more : rule.wantsMore done = true) :
      Closing done s ⟨unstopped ws paused [⟨.log (.loopLimit id rule.limit), [], ()⟩], []⟩ (.ok ())
        (s.wishes ws)
  /-- The limit is reached, and no more was wanted. -/
  | completed (ws : List Wish) (paused : Bool) (limit : done = rule.limit)
      (more : rule.wantsMore done = false) :
      Closing done s ⟨unstopped ws paused [], []⟩ (.ok ()) (s.wishes ws)

end Course

section Plays

variable {st : Settings} {id : String} {rule : LoopRule} {body : List Action} {done : Nat}
  {s t : Scene} {log : List Turn} {r : Except StepError Unit}

/-- A stop ends a loop before a round, and else the round goes on. -/
theorem plays_unstopped {α : Type} {f : Unit → Script α} {x : Except StepError α}
    (h : Plays (boundary >>= f).run s log x t) :
    (∃ ws paused rest, log = unstopped ws paused rest ∧ Plays (f ()).run (s.wishes ws) rest x t) ∨
      ∃ ws paused, log = [⟨.awaitResume, ws, paused⟩, ⟨.stopped, [], true⟩] ∧
        x = .error .interrupted ∧ t = s.wishes ws ∧ (s.wishes ws).control.stopped = true := by
  rw [run_bind, run_boundary] at h
  obtain ⟨ws, paused, rest, -, -, rfl, hs⟩ := plays_ask h
  obtain ⟨stop, rest, seen, rfl, hf⟩ := plays_at_once (by rfl) hs
  cases stop with
  | false => exact .inl ⟨ws, paused, rest, rfl, hf⟩
  | true =>
      obtain ⟨rfl, rfl, rfl⟩ := plays_done hf
      exact .inr ⟨ws, paused, rfl, rfl, rfl, seen.symm⟩

/-- **A loop does rounds and ends in one of these ways.** -/
theorem plays_iterate {left : Nat}
    (h : Plays (rule.iterate st id (executeAll st body) left done).run s log r t)
    (limit : done + left = rule.limit) :
    ∃ rounds last u, log = rounds.flatMap Round.log ++ last.log ∧
      Rounds st id rule body done s rounds u ∧
      Closing st id rule body (done + rounds.length) u last r t := by
  -- on the rounds that are left; at none, only the rule says whether more is wanted
  induction left generalizing done s log with
  | zero =>
      rw [LoopRule.iterate] at h
      obtain ⟨ws, paused, rest, rfl, hr⟩ | ⟨ws, paused, rfl, rfl, rfl, stop⟩ := plays_unstopped h
      · split at hr
        · next more =>
          obtain ⟨_, last, -, rfl, hd⟩ := plays_at_once (by rfl) hr
          obtain ⟨rfl, rfl, rfl⟩ := plays_done hd
          exact ⟨[], _, s, rfl, .nil done s, .exhausted ws paused limit more⟩
        · next more =>
          obtain ⟨rfl, rfl, rfl⟩ := plays_done hr
          exact ⟨[], _, s, rfl, .nil done s, .completed ws paused limit (eq_false_of_ne_true more)⟩
      · exact ⟨[], _, s, rfl, .nil done s, .stopped ws paused stop⟩
  | succ left ih =>
      have within : done < rule.limit := by omega
      rw [LoopRule.iterate] at h
      obtain ⟨ws, paused, rest, rfl, hr⟩ | ⟨ws, paused, rfl, rfl, rfl, stop⟩ := plays_unstopped h
      · obtain ⟨look, rest, go, u, rfl, hl, hb⟩ | ⟨e, rfl, hl⟩ := plays_andThen hr
        · have looks := plays_proceeds hl
          cases go with
          | false =>
              obtain ⟨rfl, rfl, rfl⟩ := plays_done hb
              exact ⟨[], ⟨unstopped ws paused look, []⟩, s, by simp [Round.log, unstopped],
                .nil done s, .ended ws paused within looks⟩
          | true =>
              obtain ⟨work, rest, _, v, rfl, hw, hi⟩ | ⟨e, rfl, hw⟩ := plays_andThen hb
              · obtain ⟨rounds, last, w, rfl, later, closing⟩ := ih hi (by omega)
                refine ⟨_ :: rounds, last, w, ?_,
                  .cons ws paused within looks (plays_executeAll hw) later, ?_⟩
                · simp [Round.log, unstopped]
                · rwa [List.length_cons, Nat.add_comm rounds.length 1, ← Nat.add_assoc]
              · exact ⟨[], _, s, rfl, .nil done s,
                  .broken ws paused within looks (plays_executeAll hw)⟩
        · exact ⟨[], ⟨unstopped ws paused rest, []⟩, s, by simp [Round.log],
            .nil done s, .blinded ws paused within (plays_proceeds hl)⟩
      · exact ⟨[], _, s, rfl, .nil done s, .stopped ws paused stop⟩

end Plays

/-! ## 4. Searches and warnings -/

/-- The answer to a search. -/
def Turn.searched? : Turn → Option (Except Failure Match)
  | ⟨.search _ _ _, _, answer⟩ => some answer
  | _ => none

/-- **The searches in a log**, each with its answer. -/
def searched (log : List Turn) : List (Except Failure Match) := log.filterMap Turn.searched?

/-- What the log is told by a request. -/
def Turn.notice? : Turn → Option Notice
  | ⟨.log notice, _, _⟩ => some notice
  | _ => none

/-- **What the log was told.** -/
def noticed (log : List Turn) : List Notice := log.filterMap Turn.notice?

@[simp] theorem searched_append (l l' : List Turn) :
    searched (l ++ l') = searched l ++ searched l' := List.filterMap_append

@[simp] theorem noticed_append (l l' : List Turn) : noticed (l ++ l') = noticed l ++ noticed l' :=
  List.filterMap_append

@[simp] theorem searched_unstopped (ws : List Wish) (paused : Bool) (look : List Turn) :
    searched (unstopped ws paused look) = searched look := rfl

@[simp] theorem noticed_unstopped (ws : List Wish) (paused : Bool) (look : List Turn) :
    noticed (unstopped ws paused look) = noticed look := rfl

section Course

variable {st : Settings} {id : String} {rule : LoopRule} {body : List Action} {done : Nat}
  {s t : Scene} {log : List Turn} {rounds : List Round} {last : Round}

/-- A look tells the log nothing. -/
theorem LoopRule.Looks.noticed {go : Except StepError Bool}
    (h : rule.Looks st id done s log go t) : noticed log = [] := by
  cases h <;> rfl

/-- Who does not go by the screen does not search. -/
theorem LoopRule.Looks.blind_inv {go : Bool} (kind : rule.kind.watches = false)
    (h : rule.Looks st id done s log (.ok go) t) : searched log = [] ∧ rule.wantsMore done = go := by
  cases h with
  | blind _ => exact ⟨rfl, rfl⟩
  | seen watches => cases kind.symm.trans watches

/-- Who goes by the screen searches once. -/
theorem LoopRule.Looks.seen_inv {go : Bool} (kind : rule.kind.watches = true)
    (h : rule.Looks st id done s log (.ok go) t) :
    ∃ m, searched log = [.ok m] ∧ rule.goesOn m = go := by
  cases h with
  | blind blind => cases kind.symm.trans blind
  | seen _ _ ws m => exact ⟨m, rfl, rfl⟩

theorem Rounds.length_le (h : Rounds st id rule body done s rounds t) (within : done ≤ rule.limit) :
    done + rounds.length ≤ rule.limit := by
  induction h with
  | nil => exact within
  | cons ws paused room _ _ _ ih =>
      rw [List.length_cons]
      have later := ih room
      omega

theorem Rounds.noticed (h : Rounds st id rule body done s rounds t) :
    noticed (ownTurns rounds) = [] := by
  induction h with
  | nil => rfl
  | cons ws paused within looks does later ih =>
      simp only [ownTurns, List.flatMap_cons, noticed_append, noticed_unstopped] at ih ⊢
      rw [looks.noticed, ih, List.nil_append]

/-- Rounds of a loop that does not go by the screen. -/
theorem Rounds.blind (h : Rounds st id rule body done s rounds t)
    (kind : rule.kind.watches = false) :
    searched (ownTurns rounds) = [] ∧
      ∀ i < rounds.length, rule.wantsMore (done + i) = true := by
  induction h with
  | nil => exact ⟨rfl, nofun⟩
  | cons ws paused within looks does later ih =>
      obtain ⟨none, more⟩ := looks.blind_inv kind
      obtain ⟨nones, mores⟩ := ih
      refine ⟨?_, fun i hi => ?_⟩
      · simp only [ownTurns, List.flatMap_cons, searched_append, searched_unstopped] at nones ⊢
        rw [none, nones, List.nil_append]
      · cases i with
        | zero => exact more
        | succ i =>
            rw [Nat.add_comm i 1, ← Nat.add_assoc]
            exact mores i (Nat.lt_of_succ_lt_succ hi)

/-- Rounds of a loop that goes by the screen: one search for each, which says to go on. -/
theorem Rounds.seen (h : Rounds st id rule body done s rounds t)
    (kind : rule.kind.watches = true) :
    ∃ seen : List Match, searched (ownTurns rounds) = seen.map .ok ∧ seen.length = rounds.length ∧
      ∀ m ∈ seen, rule.goesOn m = true := by
  induction h with
  | nil => exact ⟨[], rfl, rfl, nofun⟩
  | cons ws paused within looks does later ih =>
      obtain ⟨m, one, more⟩ := looks.seen_inv kind
      obtain ⟨seen, all, count, mores⟩ := ih
      refine ⟨m :: seen, ?_, congrArg (· + 1) count, List.forall_mem_cons.mpr ⟨more, mores⟩⟩
      simp only [ownTurns, List.flatMap_cons, searched_append, searched_unstopped] at all ⊢
      rw [one, all]
      rfl

/-- A loop that fails tells the log nothing, and fails because of a stop, with the error of its last
search or of its body, or because it lacks a template. -/
theorem Closing.failure {e : StepError} (h : Closing st id rule body done s last (.error e) t) :
    noticed last.own = [] ∧
      (t.control.stopped = true ∨ (∃ f, searched last.own = [.error f] ∧ e = .dispatch f) ∨
        (∃ v, Performs st body v last.work (.error e) t) ∨
        rule.kind.watches = true ∧ rule.template = none) := by
  cases h with
  | stopped ws paused stop => exact ⟨rfl, .inl stop⟩
  | blinded ws paused within looks =>
      refine ⟨looks.noticed, .inr ?_⟩
      cases looks with
      | failed _ _ ws f => exact .inl ⟨f, rfl, rfl⟩
      | unnamed kind unnamed => exact .inr (.inr ⟨kind, unnamed⟩)
  | broken ws paused within looks does => exact ⟨looks.noticed, .inr (.inr (.inl ⟨_, does⟩))⟩

/-- A loop that does not fail ends before its body. -/
theorem Closing.work_eq_nil (h : Closing st id rule body done s last (.ok ()) t) :
    last.work = [] := by
  cases h <;> rfl

/-- The end of a loop that does not go by the screen and does not fail. -/
theorem Closing.blind (h : Closing st id rule body done s last (.ok ()) t)
    (kind : rule.kind.watches = false) :
    searched last.own = [] ∧
      ((done < rule.limit ∧ rule.wantsMore done = false ∧ noticed last.own = []) ∨
        done = rule.limit ∧
          noticed last.own = if rule.wantsMore done then [.loopLimit id rule.limit] else []) := by
  cases h with
  | ended ws paused within looks =>
      obtain ⟨none, ended⟩ := looks.blind_inv kind
      exact ⟨none, .inl ⟨within, ended, looks.noticed⟩⟩
  | exhausted ws paused limit more => exact ⟨rfl, .inr ⟨limit, (if_pos more).symm⟩⟩
  | completed ws paused limit more =>
      exact ⟨rfl, .inr ⟨limit, (if_neg (ne_true_of_eq_false more)).symm⟩⟩

/-- The end of a loop that goes by the screen and does not fail. -/
theorem Closing.seen (h : Closing st id rule body done s last (.ok ()) t)
    (kind : rule.kind.watches = true) :
    (∃ m, done < rule.limit ∧ searched last.own = [.ok m] ∧ rule.goesOn m = false ∧
        noticed last.own = []) ∨
      done = rule.limit ∧ searched last.own = [] ∧
        noticed last.own = [.loopLimit id rule.limit] := by
  cases h with
  | ended ws paused within looks =>
      obtain ⟨m, one, ended⟩ := looks.seen_inv kind
      exact .inl ⟨m, within, one, ended, looks.noticed⟩
  | exhausted ws paused limit more => exact .inr ⟨limit, rfl, rfl⟩
  | completed ws paused limit more =>
      obtain ⟨k, count, template, most⟩ := rule
      cases k with
      | count | infinite => cases kind
      | whileImageVisible | untilImageVisible => cases more

end Course

/-! ## 5. The law -/

/-- The screen shows `sees i` to search `i`, if it gets there and does not fail. -/
def Shows (sees : Nat → Match) (searches : List (Except Failure Match)) : Prop :=
  ∀ i m, searches[i]? = some (.ok m) → m = sees i

/-- The search that ends a loop, if the screen shows `sees i` to its search `i`. -/
def LoopRule.EndsAt (r : LoopRule) (sees : Nat → Match) (j : Nat) : Prop :=
  (∀ i < j, r.goesOn (sees i) = true) ∧ r.goesOn (sees j) = false

/-- The law of a loop that goes by the screen, for whatever the screen shows. -/
def LoopRule.SeenLaw (r : LoopRule) (id : String) (rounds : Nat)
    (searches : List (Except Failure Match)) (notices : List Notice) : Prop :=
  ∀ sees, Shows sees searches →
    (∀ j, r.EndsAt sees j → rounds = min r.limit j ∧ searches.length = min r.limit (j + 1) ∧
        notices = if r.limit ≤ j then [.loopLimit id r.limit] else []) ∧
      ((∀ i, r.goesOn (sees i) = true) →
        rounds = r.limit ∧ searches.length = r.limit ∧ notices = [.loopLimit id r.limit])

/-- **The law of a loop that does not fail**: its rounds, its searches and its warnings. -/
def LoopRule.Law (r : LoopRule) (id : String) (rounds : Nat)
    (searches : List (Except Failure Match)) (notices : List Notice) : Prop :=
  match r.kind with
  | .count =>
    rounds = min r.limit (r.count.getD 0).toNat ∧ searches = [] ∧
      notices = if r.limit < (r.count.getD 0).toNat then [.loopLimit id r.limit] else []
  | .infinite => rounds = r.limit ∧ searches = [] ∧ notices = [.loopLimit id r.limit]
  | .whileImageVisible | .untilImageVisible =>
    (∃ seen : List Match, searches = seen.map .ok) ∧ r.SeenLaw id rounds searches notices

section Law

variable {st : Settings} {id : String} {rule : LoopRule} {body : List Action} {s u t : Scene}
  {rounds : List Round} {last : Round} {seen : List Match} {sees : Nat → Match}
  {searches : List (Except Failure Match)}

theorem Shows.left (shows : Shows sees (seen.map .ok ++ searches)) {i : Nat} (h : i < seen.length) :
    seen[i] = sees i :=
  shows i _ (by simp [List.getElem?_append_left, h])

/-- Searches that all say to go on end nothing: the first that does comes later. -/
theorem LoopRule.EndsAt.length_le {j : Nat} (ends : rule.EndsAt sees j)
    (goOn : ∀ m ∈ seen, rule.goesOn m = true) (shows : Shows sees (seen.map .ok ++ searches)) :
    seen.length ≤ j := by
  refine Nat.le_of_not_lt fun before => ?_
  have more := goOn _ (List.getElem_mem before)
  rw [shows.left before, ends.2] at more
  cases more

/-- The limit ends the loop. -/
theorem LoopRule.seenLaw_exhausted (goOn : ∀ m ∈ seen, rule.goesOn m = true)
    (limit : seen.length = rule.limit) :
    rule.SeenLaw id seen.length (seen.map .ok ++ []) [.loopLimit id rule.limit] := by
  intro sees shows
  have count : (seen.map Except.ok ++ ([] : List (Except Failure Match))).length = rule.limit := by
    simpa using limit
  rw [count]
  refine ⟨fun j ends => ?_, fun _ => ⟨limit, rfl, rfl⟩⟩
  have later := ends.length_le goOn shows
  rw [if_pos (by omega)]
  exact ⟨by omega, by omega, rfl⟩

/-- A search ends the loop. -/
theorem LoopRule.seenLaw_ended {m : Match} (goOn : ∀ m ∈ seen, rule.goesOn m = true)
    (within : seen.length < rule.limit) (ended : rule.goesOn m = false) :
    rule.SeenLaw id seen.length (seen.map .ok ++ [.ok m]) [] := by
  intro sees shows
  have here : rule.goesOn (sees seen.length) = false := by
    rw [← shows seen.length m (by simp), ended]
  refine ⟨fun j ends => ?_, fun more => absurd here (ne_false_of_eq_true (more _))⟩
  have later := ends.length_le goOn shows
  have now : j ≤ seen.length :=
    Nat.le_of_not_lt fun after => absurd here (ne_false_of_eq_true (ends.1 _ after))
  rw [List.length_append, List.length_map, List.length_singleton, if_neg (by omega)]
  exact ⟨by omega, by omega, rfl⟩

theorem ownTurns_concat (rounds : List Round) (last : Round) :
    ownTurns (rounds ++ [last]) = ownTurns rounds ++ last.own := by
  simp [ownTurns]

theorem LoopRule.wantsMore_count (kind : rule.kind = .count) (i : Nat) :
    rule.wantsMore i = decide (i < (rule.count.getD 0).toNat) := by
  simp [wantsMore, kind]

theorem LoopRule.wantsMore_infinite (kind : rule.kind = .infinite) (i : Nat) :
    rule.wantsMore i = true := by
  simp [wantsMore, kind]

/-- Rounds without a search, and their end. -/
theorem Closing.course_blind (done : Rounds st id rule body 0 s rounds u)
    (closing : Closing st id rule body rounds.length u last (.ok ()) t)
    (kind : rule.kind.watches = false) :
    searched (ownTurns (rounds ++ [last])) = [] ∧
      (∀ i < rounds.length, rule.wantsMore i = true) ∧
      ((rounds.length < rule.limit ∧ rule.wantsMore rounds.length = false ∧
          noticed (ownTurns (rounds ++ [last])) = []) ∨
        rounds.length = rule.limit ∧ noticed (ownTurns (rounds ++ [last])) =
          if rule.wantsMore rounds.length then [.loopLimit id rule.limit] else []) := by
  obtain ⟨none, more⟩ := done.blind kind
  obtain ⟨none', ending⟩ := closing.blind kind
  rw [ownTurns_concat, searched_append, noticed_append, none, none', done.noticed, List.nil_append,
    List.nil_append]
  exact ⟨rfl, fun i h => Nat.zero_add i ▸ more i h, ending⟩

/-- Rounds with a search each, and their end. -/
theorem Closing.course_seen (done : Rounds st id rule body 0 s rounds u)
    (closing : Closing st id rule body rounds.length u last (.ok ()) t)
    (kind : rule.kind.watches = true) :
    (∃ seen : List Match, searched (ownTurns (rounds ++ [last])) = seen.map .ok) ∧
      rule.SeenLaw id rounds.length (searched (ownTurns (rounds ++ [last])))
        (noticed (ownTurns (rounds ++ [last]))) := by
  obtain ⟨seen, all, count, goOn⟩ := done.seen kind
  rw [ownTurns_concat, searched_append, noticed_append, done.noticed, all, List.nil_append, ← count]
  rw [← count] at closing
  obtain ⟨m, within, one, ended, quiet⟩ | ⟨limit, none, warned⟩ := closing.seen kind
  · rw [one, quiet]
    exact ⟨⟨seen ++ [m], by simp⟩, LoopRule.seenLaw_ended goOn within ended⟩
  · rw [none, warned]
    exact ⟨⟨seen, by simp⟩, LoopRule.seenLaw_exhausted goOn limit⟩

/-- **Rounds and their end keep the law**, if the end is no failure. -/
theorem Closing.law (done : Rounds st id rule body 0 s rounds u)
    (closing : Closing st id rule body rounds.length u last (.ok ()) t) :
    rule.Law id rounds.length (searched (ownTurns (rounds ++ [last])))
      (noticed (ownTurns (rounds ++ [last]))) := by
  unfold LoopRule.Law
  split
  · next kind =>
    obtain ⟨none, more, ending⟩ := closing.course_blind done (by rw [kind]; rfl)
    simp only [LoopRule.wantsMore_count kind, decide_eq_true_eq, decide_eq_false_iff_not]
      at more ending
    have counted : rounds.length ≤ (rule.count.getD 0).toNat :=
      Nat.le_of_not_lt fun past => absurd (more _ past) (Nat.lt_irrefl _)
    obtain ⟨within, ended, quiet⟩ | ⟨limit, told⟩ := ending
    · rw [quiet, if_neg (by omega)]
      exact ⟨by omega, none, rfl⟩
    · rw [told, limit]
      exact ⟨by omega, none, rfl⟩
  · next kind =>
    obtain ⟨none, -, ending⟩ := closing.course_blind done (by rw [kind]; rfl)
    simp only [LoopRule.wantsMore_infinite kind] at ending
    obtain ⟨-, ended, -⟩ | ⟨limit, told⟩ := ending
    · cases ended
    · exact ⟨limit, none, told⟩
  · next kind => exact closing.course_seen done (by rw [kind]; rfl)
  · next kind => exact closing.course_seen done (by rw [kind]; rfl)

theorem LoopRule.limit_lt : rule.limit < UInt32.size := by
  unfold limit
  split
  · next most _ => exact most.toNat_lt
  · decide

end Law

/-- **The course of a loop**: rounds that were done, at most as many as its limit, and then one of the
ways to end. If it does not fail, it keeps its law. It fails only because of a stop, of a search, of its
body or of a template that is missing, and then it warns of nothing. -/
theorem loop_law {st : Settings} {h : Header} {rule : LoopRule} {body : List Action} {s t : Scene}
    {log : List Turn} {r : Except StepError Unit}
    (play : Plays ((Action.loop h rule body).execute st).run s log r t) :
    ∃ rounds last u, log = rounds.flatMap Round.log ++ last.log ∧
      Rounds st h.id rule body 0 s rounds u ∧
      Closing st h.id rule body rounds.length u last r t ∧
      rounds.length ≤ rule.limit ∧ rule.limit < UInt32.size ∧
      (r = .ok () → last.work = [] ∧
        rule.Law h.id rounds.length (searched (ownTurns (rounds ++ [last])))
          (noticed (ownTurns (rounds ++ [last])))) ∧
      ∀ e, r = .error e → noticed (ownTurns (rounds ++ [last])) = [] ∧
        (StopWished s log ∨ (∃ f, searched last.own = [.error f] ∧ e = .dispatch f) ∨
          (∃ v, Performs st body v last.work (.error e) t) ∨
          rule.kind.watches = true ∧ rule.template = none) := by
  have stop := play.stopped_iff
  rw [Action.execute] at play
  obtain ⟨rounds, last, u, split, done, closing⟩ := plays_iterate play (Nat.zero_add _)
  rw [Nat.zero_add] at closing
  have bounded := done.length_le (Nat.zero_le _)
  refine ⟨rounds, last, u, split, done, closing, by omega, rule.limit_lt, ?_, ?_⟩
  · rintro rfl
    exact ⟨closing.work_eq_nil, closing.law done⟩
  · rintro e rfl
    rw [← stop, ownTurns_concat, noticed_append, done.noticed, List.nil_append]
    exact closing.failure

/-- What a loop asks itself is among all that is asked. -/
theorem ownTurns_sublist (rounds : List Round) (last : Round) :
    (ownTurns (rounds ++ [last])).Sublist (rounds.flatMap Round.log ++ last.log) := by
  rw [ownTurns_concat]
  refine .append ?_ (List.sublist_append_left _ _)
  induction rounds with
  | nil => exact .slnil
  | cons r rounds ih => exact (List.sublist_append_left _ _).append ih

/-- A template that is on the screen. -/
def present : Match := ⟨true, none, none, none⟩

/-- A loop of at most two rounds that clicks while a template is on the screen. -/
def clicking : Action :=
  .loop (.named "l") ⟨.whileImageVisible, none, some "x", some 2⟩
    [.simple (.named "c") (.click .single (.on (.coordinates 1 2)))]

/-- One of its rounds. -/
def clickingRound : List Turn :=
  unstopped [] false [⟨.search "x" Settings.initial.confidence none, [], .ok present⟩,
    ⟨.device (.click .single (some ⟨1, 2⟩)), [], .ok ()⟩]

/-- The loop with its template always on the screen. -/
def clickingLog : List Turn :=
  clickingRound ++ (clickingRound ++ unstopped [] false [⟨.log (.loopLimit "l" 2), [], ()⟩])

theorem plays_clicking :
    Plays (clicking.execute .initial).run ⟨.fresh, .fresh⟩ clickingLog (.ok ()) ⟨.fresh, .fresh⟩ := by
  iterate 11 refine Plays.turn _ _ (.inr rfl) (by trivial) ?_
  exact .done _ _

/-- It does two rounds, searches twice and warns once. -/
theorem loop_law_clicking :
    Plays (clicking.execute .initial).run ⟨.fresh, .fresh⟩ clickingLog (.ok ()) ⟨.fresh, .fresh⟩ ∧
      ∃ rounds last, clickingLog = rounds.flatMap Round.log ++ last.log ∧ rounds.length = 2 ∧
        (searched (ownTurns (rounds ++ [last]))).length = 2 ∧
        noticed (ownTurns (rounds ++ [last])) = [.loopLimit "l" 2] := by
  obtain ⟨rounds, last, u, split, -, -, -, -, ok, -⟩ := loop_law plays_clicking
  obtain ⟨-, -, law⟩ := ok rfl
  have shows : Shows (fun _ => present) (searched (ownTurns (rounds ++ [last]))) := by
    intro i m own
    have among : .ok m ∈ searched clickingLog := by
      rw [split]
      exact ((ownTurns_sublist rounds last).filterMap _).subset (List.mem_of_getElem? own)
    have two : searched clickingLog = [.ok present, .ok present] := rfl
    simpa [two] using among
  exact ⟨plays_clicking, rounds, last, split, (law _ shows).2 fun _ => rfl⟩

end TaskReplay
