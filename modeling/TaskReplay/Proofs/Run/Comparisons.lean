import TaskReplay.Proofs.Run.Dispatch
import TaskReplay.Proofs.Text.Decimal

/-!
# What a condition on a variable compares

The variables of a run are written by the steps that look for images, and by no others. So what a
condition compares with its text is a point or nothing:

* `Request.Tidy` -- a request that writes nothing but where a match is; `run_tidy` -- **a run asks nothing
  else**, however deep its steps; `Scope.Located`, `located_run` -- so every variable holds a point or
  nothing, at any time;
* `TextOf` -- the text of what a variable holds, said of its characters; `display_iff` -- it is the one
  that conditions compare with; `TextOf.unique` -- a text is that of one point at most, and `null` is
  that of none;
* `ReadsOn` -- a program that reads a variable and goes on in one way;
* `variable_equals_exact` -- **which branch a condition runs**, wherever it is reached.
-/

namespace TaskReplay

open Script

/-! ## 1. What a run writes -/

/-- A request that writes nothing but where a match is. -/
def Request.Tidy (q : Request) : Prop :=
  ∀ name v, q = .write name v → ∃ location, v = Value.ofLocation location

theorem Request.tidy_of_ordinary {q : Request} (h : q.ordinary = true) : q.Tidy :=
  fun name v writes => absurd writes (Request.ne_write h name v)

section Steps

variable (st : Settings)

/-- A script of a step that writes nothing but where a match is. -/
abbrev TidyScript {α : Type} (m : Script α) : Prop := MadeOf Request.Tidy (fun _ => True) m

theorem tidy_of_may {α : Type} {P : Request → Prop} {E : StepError → Prop} {m : Script α}
    (hm : MadeOf P E m) (may : ∀ {q}, P q → q.ordinary = true) : TidyScript m :=
  hm.mono (fun _ h => Request.tidy_of_ordinary (may h)) fun _ _ => trivial

theorem store_tidy (into : Option String) (m : Match) : TidyScript (store into m) := by
  cases into with
  | none => exact .pure ()
  | some name => exact .ask _ rfl fun _ _ writes => ⟨m.location, by cases writes; rfl⟩

theorem deed_tidy (d : Deed) : TidyScript (d.execute st) := by
  have look {q : Request} (h : q.ordinary = true) : q.Tidy := Request.tidy_of_ordinary h
  cases d with
  | findImage template confidence region into =>
      exact (searchFor_made st (look rfl)).bind fun m => store_tidy into m
  | waitForImage template timeout confidence disappear into =>
      refine (awaitImage_made st (look rfl) nofun trivial).bind fun m => ?_
      exact made_ite (store_tidy into m) (.pure _)
  | _ => exact tidy_of_may (deed_made st _) (Deed.ordinary_of_may rfl)

theorem holds_tidy (test : Test) (id : String) : TidyScript (test.holds st id) :=
  tidy_of_may (holds_made st test) Test.ordinary_of_may

theorem iterate_tidy (r : LoopRule) (id : String) {body : Script Unit} (h : TidyScript body)
    (left done : Nat) : TidyScript (r.iterate st id body left done) :=
  iterate_made st r (fun _ may => Request.tidy_of_ordinary (LoopRule.ordinary_of_may may))
    (fun _ _ => trivial) h left done

mutual

/-- A step and its inner steps. -/
theorem execute_tidy : (a : Action) → TidyScript (a.execute st)
  | .simple _ deed => deed_tidy st deed
  | .condition h test thenBranch elseBranch => (holds_tidy st test h.id).bind fun _ =>
      made_ite (executeAll_tidy thenBranch) (executeAll_tidy elseBranch)
  | .loop h rule body => iterate_tidy st rule h.id (executeAll_tidy body) rule.limit 0

/-- Inner steps. -/
theorem executeAll_tidy : (as : List Action) → TidyScript (executeAll st as)
  | [] => .pure ()
  | a :: rest =>
      (pauseFor_made _).bind fun _ => (execute_tidy a).bind fun _ =>
        (pauseFor_made _).bind fun _ => executeAll_tidy rest

end

end Steps

section Walk

variable {st : Settings} {total i : Nat} {a : Action}

theorem asks_tidy {α : Type} {m : Script α} (hm : TidyScript m) :
    m.run.Asks Request.Tidy := by
  refine hm.asks_inner.mono fun q asked name v writes => asked.2 ?_ name v writes
  rw [writes]
  rfl

/-- An ordinary request before a program. -/
theorem tidy_ask {α : Type} {q : Request} {next : q.Answer → RunProg α} (h : q.ordinary = true)
    (rest : ∀ x, (next x).Asks Request.Tidy) : Prog.Asks Request.Tidy (.ask q next) :=
  ⟨Request.tidy_of_ordinary h, rest⟩

theorem closeStep_tidy (x : Except StepError Unit) :
    (closeStep st total i a x).Asks Request.Tidy := by
  have pause : (a.recover st).run.Asks Request.Tidy :=
    asks_tidy (recover_made st a fun _ => Request.tidy_of_ordinary rfl)
  cases x with
  | ok u =>
      refine tidy_ask rfl fun _ => pause.bind fun r => ?_
      cases r with
      | ok u => trivial
      | error e => exact tidy_ask rfl fun _ => trivial
  | error e =>
      by_cases he : e = .interrupted
      · subst he
        exact tidy_ask rfl fun _ => trivial
      · rw [closeStep.eq_3 st total i a e he]
        split
        · exact tidy_ask rfl fun _ => tidy_ask rfl fun _ => trivial
        · exact tidy_ask rfl fun _ => tidy_ask rfl fun _ => trivial

theorem gate_tidy : (gate i).Asks Request.Tidy := by
  refine tidy_ask rfl fun _ => tidy_ask rfl fun pending => ?_
  cases pending with
  | false => exact tidy_ask rfl fun _ => trivial
  | true =>
      refine tidy_ask rfl fun _ => tidy_ask rfl fun _ => tidy_ask rfl fun _ => tidy_ask rfl fun _ => ?_
      exact tidy_ask rfl fun _ => trivial

theorem walkStep_tidy : (walkStep st total i a).Asks Request.Tidy := by
  rw [walkStep_eq]
  refine gate_tidy.bind fun stop => ?_
  cases stop with
  | true => exact tidy_ask rfl fun _ => trivial
  | false =>
      have performed : TidyScript (a.perform st) := (pauseFor_made _).bind fun _ => execute_tidy st a
      exact tidy_ask rfl fun _ => (asks_tidy performed).bind closeStep_tidy

theorem runFrom_tidy (as : List Action) : (runFrom st total i as).Asks Request.Tidy := by
  induction as generalizing i with
  | nil => exact tidy_ask rfl fun _ => trivial
  | cons a as ih =>
      refine walkStep_tidy.bind fun o => ?_
      cases o with
      | some r => trivial
      | none => exact ih

/-- **A run writes nothing but where matches are.** -/
theorem run_tidy (t : Task) : (t.run st).Asks Request.Tidy :=
  tidy_ask rfl fun _ => runFrom_tidy t.actions

end Walk

/-! ## 2. What variables hold -/

/-- Every variable that was written holds a point or nothing. -/
def Scope.Located (scope : Scope) : Prop :=
  ∀ name v, scope.get? name = some v → ∃ location, v = Value.ofLocation location

section Scopes

variable {α : Type} {st : Settings} {s t : Scene} {log : List Turn}

theorem Scope.Located.set {scope : Scope} (h : scope.Located) (name : String)
    (location : Option Point) : Scope.Located (scope.set name (.ofLocation location)) := by
  intro other v holds
  rw [Assoc.get?_set] at holds
  split at holds
  · exact ⟨location, (Option.some.inj holds).symm⟩
  · exact h other v holds

theorem located_after {q : Request} (tidy : q.Tidy) (h : s.context.scope.Located) :
    (s.after q).context.scope.Located := by
  cases q with
  | write name v =>
      obtain ⟨location, rfl⟩ := tidy name v rfl
      exact h.set name location
  | mark m => cases m <;> exact h
  | _ => exact h

theorem PlaysOn.located {p q : RunProg α} (tidy : p.Asks Request.Tidy) (h : PlaysOn p s log q t)
    (begins : s.context.scope.Located) : t.context.scope.Located := by
  induction h with
  | here p s => exact begins
  | turn ws x others allowed _ ih => exact ih (tidy.2 x) (located_after tidy.1 begins)

/-- **At any time of a run every variable holds a point or nothing.** -/
theorem located_run {t : Task} {c : Control} {p : CueProg RunResult}
    (comes : CuePlaysOn (t.cued st) ⟨c, .fresh⟩ log p s) : s.context.scope.Located :=
  comes.run.located (run_tidy t) nofun

end Scopes

/-! ## 3. Texts of variables -/

/-- **The text of what a variable holds**, if it holds a point or nothing, said of its characters. -/
inductive TextOf : Option Value → String → Prop where
  | unwritten : TextOf none "null"
  | null : TextOf (some .null) "null"
  /-- Both coordinates in plain decimal text, with a comma between them. -/
  | point {p : Point} {e : String} {xs ys : List Char} (x : Text.Plain p.x.toInt xs)
      (y : Text.Plain p.y.toInt ys) (text : e.toList = xs ++ ',' :: ys) : TextOf (some (.point p)) e

section Texts

variable {p p' : Point} {e : String} {x : Option Value}

theorem toList_pair (p : Point) :
    p.pair.toList = (toString p.x.toInt).toList ++ ',' :: (toString p.y.toInt).toList := by
  rw [Point.pair, String.toList_append, String.toList_append, List.append_assoc]
  rfl

theorem textOf_point_iff : TextOf (some (.point p)) e ↔ p.pair = e := by
  constructor
  · rintro ⟨⟩
    next xs ys x y text =>
      rw [← String.toList_inj, toList_pair, text, x.eq_toString, y.eq_toString]
  · rintro rfl
    exact .point (Text.plain_toString _) (Text.plain_toString _) (toList_pair p)

theorem textOf_nothing_iff (nothing : x.getD .null = .null) : TextOf x e ↔ "null" = e := by
  cases x with
  | none => exact ⟨fun h => by cases h; rfl, fun h => h ▸ .unwritten⟩
  | some v =>
      obtain rfl : v = .null := nothing
      exact ⟨fun h => by cases h; rfl, fun h => h ▸ .null⟩

/-- **A point or nothing shows as conditions compare it.** -/
theorem display_iff (located : ∀ v, x = some v → ∃ location, v = Value.ofLocation location) :
    (x.getD .null).display = e ↔ TextOf x e := by
  cases x with
  | none => exact (textOf_nothing_iff rfl).symm
  | some v =>
      obtain ⟨location, rfl⟩ := located v rfl
      cases location with
      | none => exact (textOf_nothing_iff rfl).symm
      | some p => exact textOf_point_iff.symm

/-- There is no comma in a plain text. -/
theorem comma_notMem {i : Int} {cs : List Char} (h : Text.Plain i cs) : ',' ∉ cs := by
  intro inside
  obtain digit | minus := h.characters ',' inside
  · cases digit
  · cases minus

/-- **A text is that of one point at most.** -/
theorem TextOf.unique (h : TextOf (some (.point p)) e) (h' : TextOf (some (.point p')) e) : p = p' := by
  cases h with
  | point x y text =>
      cases h' with
      | point x' y' text' =>
          -- the comma after the first coordinate is the only one
          have same := text.symm.trans text'
          obtain ⟨rfl, -, rfl⟩ := (List.append_cons_inj_of_notMem (comma_notMem x)
            (comma_notMem y)).mp same
          have same_x : p.x = p'.x := Int32.toInt_inj.mp (x.unique x')
          have same_y : p.y = p'.y := Int32.toInt_inj.mp (y.unique y')
          cases p
          cases p'
          exact congrArg₂ Point.mk same_x same_y

/-- No point shows as nothing does. -/
theorem TextOf.not_null : ¬ TextOf (some (.point p)) "null" := by
  rintro ⟨⟩
  next xs ys x y text =>
    have comma : ',' ∈ "null".toList := text ▸ List.mem_append_right xs List.mem_cons_self
    exact absurd comma (by decide)

end Texts

/-! ## 4. Conditions -/

/-- **A program that reads a variable and goes on with `q`**: it can do so at once, and do nothing else. -/
structure ReadsOn {α : Type} (p : CueProg α) (s : Scene) (name : String) (q : CueProg α) : Prop where
  goes : CuePlaysOn p s [⟨.read name, [], s.context.scope.get? name⟩] q s
  only : ∀ u log r t, CuePlaysOn p s (u :: log) r t →
    u = ⟨.read name, [], s.context.scope.get? name⟩ ∧ CuePlaysOn q s log r t

section Conditions

variable {α : Type} {st : Settings} {s : Scene} {log : List Turn} {place : Place} {h : Header}
  {test : Test} {thenBranch elseBranch : List Action} {v e : String}

theorem reads_on (f : Option Value → CueProg α) :
    ReadsOn (.ask (.request (.read v)) f) s v (f (s.context.scope.get? v)) where
  goes := .turn [] _ (.inr rfl) rfl (.here _ s)
  only u log r t comes := by
    cases comes with
    | turn ws x others allowed rest =>
        obtain rfl : ws = [] := others.resolve_left nofun
        obtain rfl : x = s.context.scope.get? v := allowed
        exact ⟨rfl, rest⟩

/-- What a condition on a variable does: it reads the variable and runs one of its branches. -/
theorem inside_variableEquals (compares : test.predicate = .variableEquals)
    (variable_is : test.variableName = some v) (text_is : test.expected = some e) :
    ((Action.condition h test thenBranch elseBranch).cuedInside st place).run =
      .ask (.request (.read v)) fun x =>
        if (x.getD .null).display = e then (cuedAll st (0 :: place) 0 thenBranch).run
        else (cuedAll st (1 :: place) 0 elseBranch).run := by
  obtain ⟨predicate, template, name, expected⟩ := test
  obtain rfl : predicate = .variableEquals := compares
  obtain rfl : name = some v := variable_is
  obtain rfl : expected = some e := text_is
  show Prog.ask (Cue.request (.read v)) _ = Prog.ask (Cue.request (.read v)) _
  congr 1
  funext x
  show ExceptT.run (if ((x.getD .null).display == e) = true then _ else _) = _
  by_cases same : (x.getD .null).display = e
  · rw [if_pos same, if_pos (beq_iff_eq.mpr same)]
  · rw [if_neg same, if_neg (mt beq_iff_eq.mp same)]

/-- **Which branch a condition on a variable runs.** Wherever a run comes to such a condition, at any
depth of its steps, every variable that was written holds a point or nothing. The condition reads the
variable and goes on: with the branch for yes if its text is that of what the variable holds, which is
`x,y` in plain decimal digits for a point and `null` for nothing or if it was never written; and else with
the branch for no. What follows the branch is the same for both. And a text is that of one point at most,
and then not that of nothing. -/
theorem variable_equals_exact {t : Task} {c : Control} {next : Unit → CueProg RunResult}
    (comes : CuePlaysOn (t.cued st) ⟨c, .fresh⟩ log (.ask (.enter place) next) s)
    (here : StepIn t.actions place (.condition h test thenBranch elseBranch))
    (compares : test.predicate = .variableEquals) (variable_is : test.variableName = some v)
    (text_is : test.expected = some e) :
    PlaysOn (t.run st) ⟨c, .fresh⟩ log (CueProg.plain (next ())) s ∧
      s.context.scope.Located ∧
      (∃ rest,
        (TextOf (s.context.scope.get? v) e →
          ReadsOn (next ()) s v ((cuedAll st (0 :: place) 0 thenBranch).run.bind rest)) ∧
        (¬ TextOf (s.context.scope.get? v) e →
          ReadsOn (next ()) s v ((cuedAll st (1 :: place) 0 elseBranch).run.bind rest))) ∧
      (∀ p p' text, TextOf (some (.point p)) text → TextOf (some (.point p')) text → p = p') ∧
      ∀ p, ¬ TextOf (some (.point p)) "null" := by
  have located := located_run comes
  obtain ⟨rest, follows⟩ := begins_step comes here
  rw [inside_variableEquals compares variable_is text_is, Prog.ask_bind] at follows
  have exact_text := display_iff (e := e) (located v)
  have reads := reads_on (s := s) (v := v) fun x =>
    (if (x.getD .null).display = e then (cuedAll st (0 :: place) 0 thenBranch).run
      else (cuedAll st (1 :: place) 0 elseBranch).run).bind rest
  rw [← follows] at reads
  refine ⟨comes.run, located, ⟨rest, fun text_of => ?_, fun other => ?_⟩, fun _ _ _ => TextOf.unique,
    fun _ => TextOf.not_null⟩
  · rwa [if_pos (exact_text.mpr text_of)] at reads
  · rwa [if_neg (mt exact_text.mp other)] at reads

/-- A loop of one round that stores where an image is and then compares that with a text. -/
def spotCheck : Action :=
  .loop (.named "l") ⟨.count, some 1, none, some 1⟩
    [.simple (.named "f") (.findImage "spot.png" none none (some "spot")),
      .condition (.named "c") ⟨.variableEquals, none, some "spot", some "-3,4"⟩
        [.simple (.named "k") (.pressKey "enter")] []]

/-- Its run, on a screen that shows the image at `(-3, 4)`, until the comparison begins. -/
def spotChecked : List Turn :=
  [⟨.mark (.status .running), [], ()⟩, ⟨.mark (.index 0), [], ()⟩, ⟨.pausePending, [], false⟩,
    ⟨.stopped, [], false⟩, ⟨.tell (.step 0 1 spotCheck .started), [], ()⟩, ⟨.awaitResume, [], false⟩,
    ⟨.stopped, [], false⟩,
    ⟨.search "spot.png" Settings.initial.confidence none, [], .ok (.foundAt ⟨-3, 4⟩)⟩,
    ⟨.write "spot" (.point ⟨-3, 4⟩), [], ()⟩]

/-- Where it is then. -/
def spotScene : Scene :=
  ⟨.fresh, { Context.fresh with status := .running, scope := Assoc.empty.set "spot" (.point ⟨-3, 4⟩) }⟩

/-- The comparison runs its branch for yes. -/
theorem variable_equals_exact_spot :
    ∃ next rest,
      CuePlaysOn ((Task.ofActions [spotCheck]).cued .initial) ⟨.fresh, .fresh⟩ spotChecked
        (.ask (.enter [1, 0, 0]) next) spotScene ∧
      TextOf (spotScene.context.scope.get? "spot") "-3,4" ∧
      ReadsOn (next ()) spotScene "spot"
        ((cuedAll .initial [0, 1, 0, 0] 0 [.simple (.named "k") (.pressKey "enter")]).run.bind rest) := by
  have comes : ∃ next, CuePlaysOn ((Task.ofActions [spotCheck]).cued .initial) ⟨.fresh, .fresh⟩
      spotChecked (.ask (.enter [1, 0, 0]) next) spotScene := by
    apply Exists.intro
    iterate 5 refine .turn _ _ (.inr rfl) (by trivial) ?_
    refine .enter ?_
    iterate 2 refine .turn _ _ (.inr rfl) (by trivial) ?_
    refine .round (.enter ?_)
    iterate 2 refine .turn _ _ (.inr rfl) (by trivial) ?_
    exact .here _ _
  obtain ⟨next, comes⟩ := comes
  have here : StepIn [spotCheck] [1, 0, 0] (.condition (.named "c")
      ⟨.variableEquals, none, some "spot", some "-3,4"⟩ [.simple (.named "k") (.pressKey "enter")] []) :=
    rfl
  have text_of : TextOf (spotScene.context.scope.get? "spot") "-3,4" := textOf_point_iff.mpr (by decide)
  obtain ⟨-, -, ⟨rest, yes, -⟩, -⟩ := variable_equals_exact comes here rfl rfl rfl
  exact ⟨next, rest, comes, text_of, yes text_of⟩

end Conditions
end TaskReplay
