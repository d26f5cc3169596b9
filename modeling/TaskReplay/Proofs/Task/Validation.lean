import Mathlib.Data.List.Induction
import TaskReplay.Proofs.Task.Complete
import TaskReplay.Proofs.Task.Tree

/-!
# When a task is valid

What a task must have, said over the places of its tree, and that the list of its faults says
exactly what is missing and where:

* `idFault` -- the fault of an id, by the ids before it; `Met.Past.look`, `stepProblems_eq` -- a walk
  with two sets of ids finds just these faults;
* `Task.Valid` -- a filled name, and at every place of the tree a complete step with a filled id of
  its own;
* `Task.Tells` -- what a list of faults tells of the steps that were passed: one fault for a blank
  name, the steps' own in the order of the walk, one for each blank id, and one for each id that is
  there more than once;
* `Task.Report` -- the list of faults of a task: it tells of all steps, and in turn, so that the
  fault of an id that is there more than once stands where the id comes the second time;
  `report_iff` -- a task has one report;
* `Task.validate_exact` -- **a task is accepted iff it is valid, and else refused with its report**.
-/

namespace TaskReplay

open Text

namespace Task

/-! ## 1. The faults of a sequence -/

/-- **The fault of an id** that comes after the ids `earlier`: it is blank, or it is there the second
time. -/
def idFault (earlier : List String) (id : String) : List Problem :=
  if ¬ Filled id then [.emptyActionId]
  else if earlier.count id = 1 then [.duplicateActionId id]
  else []

/-- The faults of steps that come after steps with the ids `earlier`, one step after another. -/
def faultsAfter (earlier : List String) : List Action → List Problem
  | [] => []
  | a :: rest => idFault earlier a.id ++ a.problems ++ faultsAfter (earlier ++ [a.id]) rest

/-- **The sets of a walk** that has come past the ids `earlier`. -/
structure Met.Past (m : Met) (earlier : List String) : Prop where
  seen : ∀ id, id ∈ m.seen ↔ Filled id ∧ id ∈ earlier
  reported : ∀ id, id ∈ m.reported ↔ Filled id ∧ 2 ≤ earlier.count id

section Walk

variable {m : Met} {earlier : List String} {id other : String} {as : List Action}

theorem Met.past_nothing : Met.nothing.Past [] where
  seen _ := by simp [Met.nothing]
  reported _ := by simp [Met.nothing]

theorem count_append_singleton :
    (earlier ++ [id]).count other = earlier.count other + if id = other then 1 else 0 := by
  rw [List.count_append, List.count_singleton]
  simp

/-- **One look**: the fault of the id, and the sets with it entered. -/
theorem Met.Past.look (h : m.Past earlier) (id : String) :
    (m.look id).1 = idFault earlier id ∧ (m.look id).2.Past (earlier ++ [id]) := by
  have once : id ∈ earlier ↔ 1 ≤ earlier.count id := List.one_le_count_iff.symm
  unfold Met.look idFault
  by_cases filled : Filled id
  · rw [if_neg (by simpa using filled), if_neg (not_not_intro filled)]
    by_cases seen : id ∈ m.seen
    · have there := once.mp ((h.seen id).mp seen).2
      rw [if_neg (not_not_intro seen)]
      by_cases reported : id ∈ m.reported
      · -- the third time and later: both sets have it
        have twice := ((h.reported id).mp reported).2
        rw [if_neg (not_not_intro reported), if_neg (by omega)]
        refine ⟨rfl, fun other => ?_, fun other => ?_⟩
        · rw [h.seen, List.mem_append, List.mem_singleton]
          grind
        · rw [h.reported, count_append_singleton]
          grind
      · -- the second time: it is reported
        have few : ¬ 2 ≤ earlier.count id := fun many => reported ((h.reported id).mpr ⟨filled, many⟩)
        rw [if_pos reported, if_pos (by omega)]
        refine ⟨rfl, fun other => ?_, fun other => ?_⟩
        · rw [h.seen, List.mem_append, List.mem_singleton]
          grind
        · rw [List.mem_cons, h.reported, count_append_singleton]
          grind
    · -- the first time: it is seen
      have absent : ¬ 1 ≤ earlier.count id := fun there =>
        seen ((h.seen id).mpr ⟨filled, once.mpr there⟩)
      rw [if_pos seen, if_neg (by omega)]
      refine ⟨rfl, fun other => ?_, fun other => ?_⟩
      · rw [List.mem_cons, h.seen, List.mem_append, List.mem_singleton]
        grind
      · rw [h.reported, count_append_singleton]
        grind
  · rw [if_pos ((onlyBlanks_eq_true_iff id).mpr filled), if_pos filled]
    refine ⟨rfl, fun other => ?_, fun other => ?_⟩
    · rw [h.seen, List.mem_append, List.mem_singleton]
      grind
    · rw [h.reported, count_append_singleton]
      grind

/-- **A walk with its two sets finds the faults by the ids before each step.** -/
theorem stepProblems_eq (h : m.Past earlier) : stepProblems m as = faultsAfter earlier as := by
  induction as generalizing m earlier with
  | nil => rfl
  | cons a as ih =>
      obtain ⟨fault, past⟩ := h.look a.id
      rw [stepProblems, fault, ih past, faultsAfter]

end Walk

section Steps

variable {earlier : List String} {a : Action} {as bs : List Action} {p : Problem} {id : String}

/-- Faults of the first steps come before those of the later ones. -/
theorem faultsAfter_append : faultsAfter earlier (as ++ bs) =
    faultsAfter earlier as ++ faultsAfter (earlier ++ as.map Action.id) bs := by
  induction as generalizing earlier with
  | nil => simp [faultsAfter]
  | cons a as ih => simp [faultsAfter, ih]

/-- The faults of an id are none of a step's own. -/
theorem filter_idFault : (idFault earlier id).filter Problem.ofStep = [] := by
  unfold idFault
  split
  · rfl
  · split <;> rfl

/-- **The steps' own faults**, in the order of the steps. -/
theorem filter_faultsAfter :
    (faultsAfter earlier as).filter Problem.ofStep = as.flatMap Action.problems := by
  induction as generalizing earlier with
  | nil => rfl
  | cons a as ih => simp [faultsAfter, ih, filter_idFault]

/-- A fault that is none of a step's own is counted by ids. -/
theorem count_faultsAfter (h : p.ofStep = false) : (faultsAfter earlier (a :: as)).count p =
    (idFault earlier a.id).count p + (faultsAfter (earlier ++ [a.id]) as).count p := by
  have none_own : a.problems.count p = 0 := by
    refine List.count_eq_zero.mpr fun mem => ?_
    rw [← a.filter_problems] at mem
    rw [(List.mem_filter.mp mem).2] at h
    cases h
  rw [faultsAfter, List.count_append, List.count_append, none_own, Nat.add_zero]

theorem count_emptyName : (faultsAfter earlier as).count .emptyName = 0 := by
  induction as generalizing earlier with
  | nil => rfl
  | cons a as ih =>
      rw [count_faultsAfter rfl, ih, idFault]
      split
      · rfl
      · split <;> rfl

/-- **One fault for each blank id.** -/
theorem count_emptyActionId : (faultsAfter earlier as).count .emptyActionId =
    as.countP fun a => ¬ Filled a.id := by
  induction as generalizing earlier with
  | nil => rfl
  | cons a as ih =>
      rw [count_faultsAfter rfl, ih, idFault, List.countP_cons, Nat.add_comm]
      by_cases h : Filled a.id
      · simp only [h, not_true_eq_false, if_false, decide_false]
        split <;> rfl
      · simp [h]

theorem count_idFault_duplicate (other : String) :
    (idFault earlier other).count (.duplicateActionId id) =
      if other = id ∧ Filled id ∧ earlier.count id = 1 then 1 else 0 := by
  unfold idFault
  by_cases same : other = id
  · subst same
    by_cases filled : Filled other <;> by_cases once : earlier.count other = 1 <;>
      simp [filled, once]
  · have absent : Problem.duplicateActionId id ≠ .duplicateActionId other := fun e =>
      same (Problem.duplicateActionId.inj e).symm
    simp only [same, false_and, if_false]
    split
    · rfl
    · split
      · exact List.count_eq_zero.mpr fun mem => absent (List.mem_singleton.mp mem)
      · rfl

/-- **One fault for each id that is there twice**, unless it was there twice before. -/
theorem count_duplicate : (faultsAfter earlier as).count (.duplicateActionId id) =
    if Filled id ∧ earlier.count id ≤ 1 ∧ 2 ≤ earlier.count id + (as.map Action.id).count id
    then 1 else 0 := by
  induction as generalizing earlier with
  | nil =>
      rw [List.map_nil, List.count_nil, if_neg (by omega)]
      rfl
  | cons a as ih =>
      rw [count_faultsAfter rfl, ih, count_idFault_duplicate, List.map_cons, List.count_cons,
        count_append_singleton]
      by_cases same : a.id = id
      · by_cases filled : Filled id
        · simp only [same, filled, true_and, beq_self_eq_true, if_true]
          grind
        · simp [filled]
      · simp [same]

/-- A sequence of steps has no faults iff each is complete and has a filled id of its own. -/
theorem faultsAfter_eq_nil_iff : faultsAfter [] as = [] ↔
    (∀ a ∈ as, Filled a.id ∧ a.Complete) ∧ (as.map Action.id).Nodup := by
  constructor
  · intro none_found
    have filled : ∀ a ∈ as, Filled a.id := by
      have count : (faultsAfter [] as).count .emptyActionId = _ := count_emptyActionId
      rw [none_found, List.count_nil, eq_comm, List.countP_eq_zero] at count
      simpa using count
    have complete : ∀ a ∈ as, a.Complete := by
      have own : (faultsAfter [] as).filter Problem.ofStep = _ := filter_faultsAfter
      rw [none_found, List.filter_nil, eq_comm, List.flatMap_eq_nil_iff] at own
      exact fun a ha => a.problems_eq_nil_iff.mp (own a ha)
    refine ⟨fun a ha => ⟨filled a ha, complete a ha⟩, List.nodup_iff_count_le_one.mpr fun id => ?_⟩
    have count : (faultsAfter [] as).count (.duplicateActionId id) = _ := count_duplicate
    rw [none_found, List.count_nil, List.count_nil, eq_comm] at count
    by_cases there : id ∈ as.map Action.id
    · obtain ⟨a, ha, rfl⟩ := List.mem_map.mp there
      have few : ¬ 2 ≤ (as.map Action.id).count a.id := fun many => by
        simp [filled a ha, many] at count
      omega
    · rw [List.count_eq_zero.mpr there]
      exact Nat.zero_le 1
  · rintro ⟨steps, once⟩
    refine List.eq_nil_iff_forall_not_mem.mpr fun p hp => ?_
    cases own : p.ofStep with
    | true =>
        have found := List.mem_filter.mpr ⟨hp, own⟩
        rw [filter_faultsAfter] at found
        obtain ⟨a, ha, mem⟩ := List.mem_flatMap.mp found
        rw [a.problems_eq_nil_iff.mpr (steps a ha).2] at mem
        cases mem
    | false =>
        have count := List.count_pos_iff.mpr hp
        cases p with
        | emptyName => rw [count_emptyName] at count; cases count
        | emptyActionId =>
            rw [count_emptyActionId, List.countP_pos_iff] at count
            obtain ⟨a, ha, blank⟩ := count
            exact (of_decide_eq_true blank) (steps a ha).1
        | duplicateActionId id =>
            have few := List.nodup_iff_count_le_one.mp once id
            rw [count_duplicate, List.count_nil, if_neg (by omega)] at count
            cases count
        | _ => cases own

end Steps

/-! ## 2. Valid tasks -/

/-- **A task that can be run.** -/
structure Valid (t : Task) : Prop where
  /-- It has a name. -/
  named : Filled t.name
  /-- Every step has an id. -/
  identified : ∀ π a, stepAt? t.actions π = some a → Filled a.id
  /-- No two steps have the same id. -/
  distinct : ∀ π ρ a b, stepAt? t.actions π = some a → stepAt? t.actions ρ = some b →
    a.id = b.id → π = ρ
  /-- Every step has what its kind requires. -/
  complete : ∀ π a, stepAt? t.actions π = some a → a.Complete

/-! ## 3. Reports -/

/-- **What a list of faults tells of steps that were passed**, under a name of the task. -/
structure Tells (name : String) (as : List Action) (ps : List Problem) : Prop where
  /-- A blank name comes first, and once. -/
  nameFirst : ps.head? = some .emptyName ∨ Filled name
  nameOnce : ps.count .emptyName = if Filled name then 0 else 1
  /-- The steps' own faults are there in the order of the walk. -/
  own : ps.filter Problem.ofStep = as.flatMap Action.problems
  /-- Each blank id is there, and no other. -/
  blanks : ps.count .emptyActionId = as.countP fun a => ¬ Filled a.id
  /-- Each filled id that is there more than once is there once, and no other. -/
  duplicates : ∀ id, ps.count (.duplicateActionId id) =
    if Filled id ∧ 2 ≤ (as.map Action.id).count id then 1 else 0

/-- **The report on a task.** -/
structure Report (t : Task) (ps : List Problem) : Prop where
  /-- It tells of every step. -/
  tells : Tells t.name t.walk ps
  /-- It tells of one step after another: at each step the fault of its id stands after all that is
  told of the steps passed, and before the step's own faults and the rest. -/
  inTurn : ∀ past a rest, t.walk = past ++ a :: rest → ∃ before after,
    ps = before ++ (idFault (past.map Action.id) a.id ++ a.problems) ++ after ∧
      Tells t.name past before

section Tasks

variable {t : Task} {name : String} {as past rest : List Action} {ps qs : List Problem}

/-- Lists that tell of the same steps have the same faults. -/
theorem Tells.perm (h : Tells name as ps) (h' : Tells name as qs) : ps.Perm qs := by
  refine List.perm_iff_count.mpr fun p => ?_
  cases own : p.ofStep with
  | true => rw [← List.count_filter own, h.own, ← h'.own, List.count_filter own]
  | false =>
      cases p with
      | emptyName => rw [h.nameOnce, h'.nameOnce]
      | emptyActionId => rw [h.blanks, h'.blanks]
      | duplicateActionId id => rw [h.duplicates, h'.duplicates]
      | _ => cases own

/-- The fault of a blank name. -/
def nameProblems (name : String) : List Problem := if Filled name then [] else [.emptyName]

/-- What there is to tell of steps that were passed. -/
def told (name : String) (as : List Action) : List Problem := nameProblems name ++ faultsAfter [] as

theorem problems_eq (t : Task) : t.problems = told t.name t.walk := by
  rw [problems, stepProblems_eq Met.past_nothing, told, nameProblems]
  by_cases h : Filled t.name
  · simp [(onlyBlanks_eq_false_iff _).mpr h, h]
  · simp [(onlyBlanks_eq_true_iff _).mpr h, h]

/-- What there is to tell grows by one step after another. -/
theorem told_step (a : Action) : told name (as ++ [a]) =
    told name as ++ (idFault (as.map Action.id) a.id ++ a.problems) := by
  simp [told, faultsAfter_append, faultsAfter]

theorem tells_told (name : String) (as : List Action) : Tells name as (told name as) where
  nameFirst := by
    by_cases h : Filled name
    · exact .inr h
    · exact .inl (by simp [told, nameProblems, h])
  nameOnce := by
    rw [told, List.count_append, count_emptyName, nameProblems]
    split <;> rfl
  own := by
    have nameless : (nameProblems name).filter Problem.ofStep = [] := by
      unfold nameProblems
      split <;> rfl
    rw [told, List.filter_append, nameless, filter_faultsAfter, List.nil_append]
  blanks := by
    rw [told, List.count_append, count_emptyActionId, nameProblems]
    split <;> simp
  duplicates id := by
    rw [told, List.count_append, count_duplicate, nameProblems]
    split <;> simp

theorem report_problems (t : Task) : t.Report t.problems where
  tells := problems_eq t ▸ tells_told t.name t.walk
  inTurn past a rest walk := by
    refine ⟨told t.name past, faultsAfter ((past ++ [a]).map Action.id) rest, ?_, tells_told ..⟩
    have split : t.walk = (past ++ [a]) ++ rest := by simpa using walk
    rw [problems_eq, split, told, faultsAfter_append, ← List.append_assoc, ← told_step]
    rfl

/-- Where a report tells of steps in turn, it begins with what there is to tell of them. -/
theorem Report.begins (h : t.Report ps) (walk : t.walk = past ++ rest) :
    ∃ after, ps = told t.name past ++ after := by
  induction past using List.reverseRecOn generalizing rest with
  | nil =>
      rcases h.tells.nameFirst with first | filled
      · by_cases filled : Filled t.name
        · exact ⟨ps, by simp [told, nameProblems, filled, faultsAfter]⟩
        · obtain ⟨after, rfl⟩ := List.head?_eq_some_iff.mp first
          exact ⟨after, by simp [told, nameProblems, filled, faultsAfter]⟩
      · exact ⟨ps, by simp [told, nameProblems, filled, faultsAfter]⟩
  | append_singleton past a ih =>
      have here : t.walk = past ++ a :: rest := by simpa using walk
      obtain ⟨after, begins⟩ := ih here
      obtain ⟨before, later, turn, tells⟩ := h.inTurn past a rest here
      -- both beginnings tell of the same steps, so they are equally long
      have long : before.length = (told t.name past).length :=
        (tells.perm (tells_told t.name past)).length_eq
      have same : before ++ ((idFault (past.map Action.id) a.id ++ a.problems) ++ later) =
          told t.name past ++ after := by rw [← List.append_assoc, ← turn, begins]
      obtain ⟨rfl, -⟩ := List.append_inj same long
      exact ⟨later, by rw [told_step, turn]⟩

/-- **A task has one report**: the list of its faults. -/
theorem report_iff : t.Report ps ↔ ps = t.problems := by
  constructor
  · intro h
    obtain ⟨after, begins⟩ := h.begins (List.append_nil _).symm
    have long := (h.tells.perm (tells_told t.name t.walk)).length_eq
    rw [begins, List.length_append] at long
    have none_left : after = [] := List.eq_nil_of_length_eq_zero (by omega)
    rw [begins, none_left, List.append_nil, problems_eq]
  · rintro rfl
    exact report_problems t

/-- A task has no faults iff it is valid. -/
theorem problems_eq_nil_iff (t : Task) : t.problems = [] ↔ t.Valid := by
  have steps := walk_inOrder t
  have named : nameProblems t.name = [] ↔ Filled t.name := by
    by_cases h : Filled t.name <;> simp [nameProblems, h]
  rw [problems_eq, told, List.append_eq_nil_iff, named, faultsAfter_eq_nil_iff, steps.nodup_iff]
  constructor
  · rintro ⟨name, each, distinct⟩
    exact ⟨name, fun π a h => (each a ((steps.mem_iff a).mpr ⟨π, h⟩)).1, distinct,
      fun π a h => (each a ((steps.mem_iff a).mpr ⟨π, h⟩)).2⟩
  · intro valid
    refine ⟨valid.named, fun a ha => ?_, valid.distinct⟩
    obtain ⟨π, h⟩ := (steps.mem_iff a).mp ha
    exact ⟨valid.identified π a h, valid.complete π a h⟩

/-- What a task is refused with. -/
theorem validate_eq_error_iff : t.validate = .error ps ↔ t.problems ≠ [] ∧ ps = t.problems := by
  unfold validate
  split
  · next none_found => simp [List.isEmpty_iff.mp none_found]
  · next found =>
    have some_found : t.problems ≠ [] := fun none_found => found (by rw [none_found]; rfl)
    simp [some_found, eq_comm]

/-- **A task is accepted iff it is valid, and else refused with its report**, which is the only one;
the report goes by the walk, which lists every step of the tree, each once and depth first. -/
theorem validate_exact (t : Task) : (t.validate = .ok () ↔ t.Valid) ∧
    (∀ ps, t.validate = .error ps ↔ ¬ t.Valid ∧ t.Report ps) ∧
    InOrder (stepAt? t.actions) t.walk := by
  refine ⟨(validate_eq_ok_iff t).trans (problems_eq_nil_iff t), fun ps => ?_, walk_inOrder t⟩
  rw [validate_eq_error_iff, report_iff, ← problems_eq_nil_iff]

/-- A click on a template, under an id. -/
def clickOn (id template : String) : Action := .simple (.named id) (.click .single (.on (.image template)))

/-- A task with one id three times and another one twice, at two depths, and a step that lacks a
template and an id. -/
def thrice : Task :=
  .ofActions [.loop (.named "a") ⟨.infinite, none, none, none⟩ [clickOn "b" "x", clickOn " " ""],
    clickOn "a" "x", clickOn "b" "x", clickOn "a" "x"]

/-- The report on it, and a list with the same faults that is none. -/
theorem validate_exact_thrice :
    ¬ thrice.Valid ∧
    thrice.Report [.emptyActionId, .missingField " " .targetTemplate,
      .duplicateActionId "a", .duplicateActionId "b"] ∧
    ¬ thrice.Report [.emptyActionId, .missingField " " .targetTemplate,
      .duplicateActionId "b", .duplicateActionId "a"] := by
  have refused : thrice.validate = .error [.emptyActionId, .missingField " " .targetTemplate,
      .duplicateActionId "a", .duplicateActionId "b"] := by rfl
  obtain ⟨invalid, report⟩ := ((validate_exact thrice).2.1 _).mp refused
  refine ⟨invalid, report, fun other => ?_⟩
  have both := ((validate_exact thrice).2.1 _).mpr ⟨invalid, other⟩
  rw [refused] at both
  exact absurd (Except.error.inj both) (by decide)

end Tasks
end Task
end TaskReplay
