import TaskReplay.Proofs.Run.Walk

/-!
# The parts of a step

A step with inner steps goes through the scripts of these, one after the other, and with the first that
fails it is over:

* `Turn.failure?` -- the error that an answer makes of a step; `MadeOf.meets` -- a script that ends well
  met no such answer, and one that fails either fails of itself or with the error of its very last
  answer;
* `Action.Own` -- the scripts that one step has of itself, inner steps left aside; `Part` -- those of a
  step and its inner steps, and the delays around the inner steps;
* `InParts` -- a log that is made of parts, all of which ended well except perhaps the last;
* `execute_inParts` -- **whatever a step does, its log is made of its parts**.
-/

namespace TaskReplay

open Script

/-! ## 1. Answers that are errors -/

/-- The error of a result, if it is one. -/
def failureOf {α : Type} : Except StepError α → Option StepError
  | .ok _ => none
  | .error e => some e

/-- The error that an answer makes of a step: that of a call or a search that failed, or that of a stop. -/
def Request.failure? : (q : Request) → q.Answer → Option StepError
  | .device _, x => failureOf (x.mapError .dispatch)
  | .search _ _ _, x => failureOf (x.mapError .dispatch)
  | .sleep _, full => if full then none else some .interrupted
  | .stopped, stop => if stop then some .interrupted else none
  | _, _ => none

/-- The error that a turn makes of a step. -/
def Turn.failure? (u : Turn) : Option StepError := u.request.failure? u.answer

/-- A log without such answers. -/
def Smooth (log : List Turn) : Prop := ∀ v ∈ log, v.failure? = none

/-- **A log that ends where a script failed**: with the answer that made it fail and no other of that
kind, or without one, if the script failed of itself. -/
inductive EndsWith (E : StepError → Prop) (e : StepError) (log : List Turn) : Prop where
  | answer (before : List Turn) (last : Turn) (ends : log = before ++ [last])
      (failed : last.failure? = some e) (smooth : Smooth before)
  | itself (own : E e) (smooth : Smooth log)

section Failures

variable {α β : Type} {P : Request → Prop} {E : StepError → Prop} {m : Script α} {s t : Scene}
  {log : List Turn} {e : StepError}

theorem smooth_nil : Smooth [] := List.forall_mem_nil _

theorem smooth_append {l l' : List Turn} : Smooth (l ++ l') ↔ Smooth l ∧ Smooth l' := by
  simp only [Smooth, List.forall_mem_append]

theorem EndsWith.after {before : List Turn} (smooth : Smooth before) (h : EndsWith E e log) :
    EndsWith E e (before ++ log) := by
  cases h with
  | answer pre last ends failed calm =>
      exact .answer (before ++ pre) last (by rw [ends, List.append_assoc]) failed
        (smooth_append.mpr ⟨smooth, calm⟩)
  | itself own calm => exact .itself own (smooth_append.mpr ⟨smooth, calm⟩)

/-- What a script of a step meets: no answer that is an error if it ends well, and else one at most, with
which it is over. -/
def Meets (E : StepError → Prop) (log : List Turn) : Except StepError α → Prop
  | .ok _ => Smooth log
  | .error e => EndsWith E e log

theorem Meets.after {before : List Turn} (smooth : Smooth before) {r : Except StepError α}
    (h : Meets E log r) : Meets E (before ++ log) r := by
  cases r with
  | ok a => exact smooth_append.mpr ⟨smooth, h⟩
  | error e => exact EndsWith.after smooth h

/-- A single answer, which is an error exactly if the script fails with it. -/
theorem meets_single {u : Turn} {r : Except StepError α} (h : u.failure? = failureOf r) :
    Meets E [u] r := by
  cases r with
  | ok a =>
      intro v hv
      obtain rfl : v = u := List.mem_singleton.mp hv
      exact h
  | error e => exact .answer [] u rfl h smooth_nil

/-- **Scripts of steps fail with the last answer or of themselves.** -/
theorem MadeOf.meets (hm : MadeOf P E m) {r : Except StepError α} (h : Plays m.run s log r t) :
    Meets E log r := by
  -- each request is either the last, or it was answered well and the script went on
  induction hm generalizing s log t with
  | pure a =>
      obtain ⟨rfl, rfl, rfl⟩ := plays_done h
      exact smooth_nil
  | throw e other own =>
      obtain ⟨rfl, rfl, rfl⟩ := plays_done h
      exact .itself own smooth_nil
  | ask q plain may =>
      obtain ⟨ws, x, rest, -, -, rfl, hd⟩ := plays_ask h
      obtain ⟨rfl, rfl, rfl⟩ := plays_done hd
      refine meets_single ?_
      cases q with
      | settle ms | draw range | clock | read name | write name v | log notice => rfl
      | _ => cases plain
  | device call may =>
      rw [run_device] at h
      obtain ⟨ws, x, rest, -, -, rfl, hd⟩ := plays_ask h
      obtain ⟨rfl, rfl, rfl⟩ := plays_done hd
      exact meets_single rfl
  | search template confidence area may =>
      rw [run_search] at h
      obtain ⟨ws, x, rest, -, -, rfl, hd⟩ := plays_ask h
      obtain ⟨rfl, rfl, rfl⟩ := plays_done hd
      exact meets_single rfl
  | sleep ms =>
      rw [run_sleep] at h
      obtain ⟨ws, x, rest, -, -, rfl, hd⟩ := plays_ask h
      obtain ⟨rfl, rfl, rfl⟩ := plays_done hd
      refine meets_single ?_
      cases x <;> rfl
  | boundary =>
      rw [run_boundary] at h
      obtain ⟨ws, y, rest, -, -, rfl, hr⟩ := plays_ask h
      obtain ⟨ws', x, rest', -, -, rfl, hd⟩ := plays_ask hr
      obtain ⟨rfl, rfl, rfl⟩ := plays_done hd
      have first : Smooth [⟨.awaitResume, ws, y⟩] := by
        intro v hv
        rw [List.mem_singleton.mp hv]
        rfl
      refine Meets.after first (meets_single ?_)
      cases x <;> rfl
  | bind _ _ ihm ihf =>
      obtain ⟨log₁, log₂, a, u, rfl, first, second⟩ | ⟨e, rfl, first⟩ := plays_andThen h
      · exact Meets.after (ihm first) (ihf a second)
      · exact ihm first

end Failures

/-! ## 2. Logs that are made of parts -/

/-- **A log made of parts**: plays of scripts from `Q`, one after the other, that ended well; if there is an
error, the last part failed with it. -/
inductive InParts (Q : (α : Type) → Script α → Prop) :
    Scene → List Turn → Option StepError → Scene → Prop where
  | nil (s : Scene) : InParts Q s [] none s
  | well {α : Type} {m : Script α} {x : α} {s u t : Scene} {log rest : List Turn}
      {o : Option StepError} (part : Q α m) (plays : Plays m.run s log (.ok x) u)
      (more : InParts Q u rest o t) : InParts Q s (log ++ rest) o t
  | failed {α : Type} {m : Script α} {e : StepError} {s t : Scene} {log : List Turn} (part : Q α m)
      (plays : Plays m.run s log (.error e) t) : InParts Q s log (some e) t

/-- **A script whose every play is made of parts**, with the error of the script. -/
def Splits (Q : (α : Type) → Script α → Prop) {α : Type} (m : Script α) : Prop :=
  ∀ s log r t, Plays m.run s log r t → InParts Q s log (failureOf r) t

section Splits

variable {Q : (α : Type) → Script α → Prop} {α β : Type} {m : Script α} {s t u : Scene}
  {log log' : List Turn} {o : Option StepError} {e : StepError}

theorem InParts.append (h : InParts Q s log none u) (h' : InParts Q u log' o t) :
    InParts Q s (log ++ log') o t := by
  -- the first log has no part that failed, so it can be gone on with
  generalize hn : (none : Option StepError) = n at h
  induction h with
  | nil s => exact h'
  | well part plays _ ih =>
      rw [List.append_assoc]
      exact .well part plays (ih h' hn)
  | failed part plays => cases hn

/-- **The first part that fails is the last**, and all before it ended well. -/
theorem InParts.failing (h : InParts Q s log (some e) t) :
    ∃ before last u, ∃ (α : Type) (m : Script α), log = before ++ last ∧ InParts Q s before none u ∧
      Q α m ∧ Plays m.run u last (.error e) t := by
  generalize ho : some e = o at h
  induction h with
  | nil s => cases ho
  | @well α m x s u t log rest o part plays _ ih =>
      obtain ⟨before, last, v, β, m', rfl, smooth, part', fails⟩ := ih ho
      exact ⟨log ++ before, last, v, β, m', (List.append_assoc ..).symm, .well part plays smooth, part',
        fails⟩
  | @failed α m e s t log part plays =>
      cases ho
      exact ⟨[], log, s, α, m, rfl, .nil s, part, plays⟩

theorem splits_part (part : Q α m) : Splits Q m := by
  intro s log r t h
  cases r with
  | ok a => exact List.append_nil log ▸ .well part h (.nil t)
  | error e => exact .failed part h

theorem splits_pure (a : α) : Splits Q (pure a : Script α) := by
  intro s log r t h
  obtain ⟨rfl, rfl, rfl⟩ := plays_done h
  exact .nil _

theorem Splits.bind {f : α → Script β} (hm : Splits Q m) (hf : ∀ a, Splits Q (f a)) :
    Splits Q (m >>= f) := by
  intro s log r t h
  obtain ⟨log₁, log₂, a, u, rfl, first, second⟩ | ⟨e, rfl, first⟩ := plays_andThen h
  · exact (hm _ _ _ _ first).append (hf a _ _ _ _ second)
  · exact hm _ _ _ _ first

theorem splits_ite {c : Prop} [Decidable c] {m' : Script α} (h : Splits Q m) (h' : Splits Q m') :
    Splits Q (if c then m else m') := by
  split
  · exact h
  · exact h'

end Splits

/-! ## 3. The parts of a step -/

/-- **The scripts that a step has of itself**: its deed, its test, or what its rule does before a round;
a loop that ends at its limit says so. -/
inductive Action.Own (st : Settings) : Action → (α : Type) → Script α → Prop where
  | deed (h : Header) (d : Deed) : Own st (.simple h d) Unit (d.execute st)
  | test (h : Header) (test : Test) (thenBranch elseBranch : List Action) :
      Own st (.condition h test thenBranch elseBranch) Bool (test.holds st h.id)
  | boundary (h : Header) (r : LoopRule) (body : List Action) : Own st (.loop h r body) Unit boundary
  | proceeds (h : Header) (r : LoopRule) (body : List Action) (done : Nat) :
      Own st (.loop h r body) Bool (r.proceeds st h.id done)
  | limit (h : Header) (r : LoopRule) (body : List Action) :
      Own st (.loop h r body) Unit (Script.ask (.log (.loopLimit h.id r.limit)))

/-- **The parts of a step**: what it and its inner steps have of themselves, and the delays of these. -/
inductive Part (st : Settings) (a : Action) : (α : Type) → Script α → Prop where
  | own {b : Action} {α : Type} {m : Script α} (inside : b ∈ a.walk) (own : b.Own st α m) :
      Part st a α m
  | delay {b : Action} {ms : UInt64} (inside : b ∈ a.walk.tail)
      (given : b.header.delayBefore = some ms ∨ b.header.delayAfter = some ms) :
      Part st a Unit (Script.sleep ms.toNat)

section Steps

variable {st : Settings} {root : Action}

/-- What a step has of itself asks and fails as the step may. -/
theorem own_made {a : Action} {α : Type} {m : Script α} (h : a.Own st α m) :
    MadeOf (a.May st) a.Fails m := by
  cases h with
  | deed h d => exact deed_made st d
  | test h test thenBranch elseBranch => exact holds_made st test
  | boundary h r body => exact .boundary
  | proceeds h r body done => exact proceeds_made st r done
  | limit h r body => exact .ask _ rfl (.inl rfl)

/-- A part asks and fails as one of the steps may. -/
theorem part_made {α : Type} {m : Script α} (h : Part st root α m) :
    MadeOf (fun q => ∃ b ∈ root.walk, b.May st q) (fun e => ∃ b ∈ root.walk, b.Fails e) m := by
  cases h with
  | @own b α m inside own =>
      exact (own_made own).mono (fun q may => ⟨b, inside, may⟩) fun e fails => ⟨b, inside, fails⟩
  | delay inside given => exact .sleep _

theorem delay_splits {b : Action} (inside : b ∈ root.walk.tail) {delay : Option UInt64}
    (given : delay = b.header.delayBefore ∨ delay = b.header.delayAfter) :
    Splits (Part st root) (pauseFor delay) := by
  cases delay with
  | none => exact splits_pure ()
  | some ms => exact splits_part (.delay inside (given.imp Eq.symm Eq.symm))

theorem iterate_splits {h : Header} {r : LoopRule} {body : List Action}
    (inside : .loop h r body ∈ root.walk) {round : Script Unit} (hr : Splits (Part st root) round)
    (left done : Nat) : Splits (Part st root) (r.iterate st h.id round left done) := by
  have look : Splits (Part st root) boundary := splits_part (.own inside (.boundary h r body))
  induction left generalizing done with
  | zero =>
      refine look.bind fun _ => splits_ite ?_ (splits_pure ())
      exact splits_part (.own inside (.limit h r body))
  | succ left ih =>
      refine look.bind fun _ => Splits.bind ?_ fun more => splits_ite ?_ (splits_pure ())
      · exact splits_part (.own inside (.proceeds h r body done))
      · exact hr.bind fun _ => ih (done + 1)

theorem mem_walk (a : Action) : a ∈ a.walk := by
  cases a <;> exact List.mem_cons_self

mutual

/-- **Whatever a step does, its log is made of its parts.** -/
theorem execute_splits : (a : Action) → a ∈ root.walk → a.walk.tail ⊆ root.walk.tail →
    Splits (Part st root) (a.execute st)
  | .simple h deed, inside, _ => splits_part (.own inside (.deed h deed))
  | .condition h test thenBranch elseBranch, inside, inner => by
      have holds : Splits (Part st root) (test.holds st h.id) :=
        splits_part (.own inside (.test h test thenBranch elseBranch))
      refine holds.bind fun x => splits_ite ?_ ?_
      · exact executeAll_splits thenBranch fun b hb => inner (List.mem_append_left _ hb)
      · exact executeAll_splits elseBranch fun b hb => inner (List.mem_append_right _ hb)
  | .loop h rule body, inside, inner =>
      iterate_splits inside (executeAll_splits body inner) rule.limit 0

/-- So is the log of inner steps. -/
theorem executeAll_splits : (as : List Action) → Action.walkAll as ⊆ root.walk.tail →
    Splits (Part st root) (executeAll st as)
  | [], _ => splits_pure ()
  | a :: rest, inner => by
      have here : a.walk ⊆ root.walk.tail := fun b hb => inner (List.mem_append_left _ hb)
      have inside : a ∈ root.walk.tail := here (mem_walk a)
      refine (delay_splits inside (.inl rfl)).bind fun _ => Splits.bind ?_ fun _ =>
        (delay_splits inside (.inr rfl)).bind fun _ =>
          executeAll_splits rest fun b hb => inner (List.mem_append_right _ hb)
      exact execute_splits a (List.mem_of_mem_tail inside) fun b hb => here (List.mem_of_mem_tail hb)

end

/-- The log of a step, from its own play. -/
theorem execute_inParts {a : Action} {s t : Scene} {log : List Turn} {r : Except StepError Unit}
    (h : Plays (a.execute st).run s log r t) : InParts (Part st a) s log (failureOf r) t :=
  execute_splits a (mem_walk a) (List.Subset.refl _) _ _ _ _ h

/-- Parts that ended well met no answer that is an error. -/
theorem InParts.smooth {s t : Scene} {log : List Turn} (h : InParts (Part st root) s log none t) :
    Smooth log := by
  generalize ho : (none : Option StepError) = o at h
  induction h with
  | nil s => exact smooth_nil
  | well part plays _ ih =>
      have ended_well : Smooth _ := MadeOf.meets (part_made part) plays
      exact smooth_append.mpr ⟨ended_well, ih ho⟩
  | failed part plays => cases ho

end Steps

end TaskReplay
