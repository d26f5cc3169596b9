import TaskReplay.Proofs.Run.Cue

/-!
# How a run heeds a stop

A run learns of a stop from an answer: a sleep that did not last, or a look at the wish for a stop.
What it does with such answers is said here, whatever all answers are:

* `Heed` -- where a run stands towards a stop, and which steps have begun since it last saw that
  none was wished;
* `heed` -- what is in order there: a run that has seen a stop only notes things down, one that is
  about to look does nothing else, and steps of the walk and rounds of loops begin straight after a
  look that found no stop; no step begins twice between two looks;
* `made_heeds`, `heeds_loop`, `heeds_action`, `heeds_all` -- scripts, loops, steps and sequences keep
  to that, and fail with `interrupted` only if they have seen a stop;
* `run_heeds` -- **a run keeps to that**.
-/

namespace TaskReplay

open Script

/-! ## 1. Standing towards a stop -/

/-- Where a run stands towards a stop. -/
inductive Stance where
  /-- It is about its work. -/
  | busy
  /-- It has just seen that no stop is wished. -/
  | clear
  /-- It is about to look whether a stop is wished. -/
  | looking
  /-- It has seen that a stop is wished. -/
  | leaving
  deriving DecidableEq

/-- Whether a run may do anything but begin a step of the walk or a round. -/
def Stance.works : Stance → Bool
  | busy | clear => true
  | looking | leaving => false

theorem Stance.looking_ne_leaving : looking ≠ leaving := by decide

/-- Where a run stands after it has noted something down. -/
def Stance.noted : Stance → Stance
  | clear => busy
  | s => s

@[simp] theorem Stance.works_noted (s : Stance) : s.noted.works = s.works := by cases s <;> rfl

/-- Where a run stands, and the places of the steps that have begun since it last saw that no stop
was wished. -/
structure Heed where
  stance : Stance
  begun : List Place

/-- Whether a request tells observers that a step of the walk begins. -/
def Request.begins : Request → Bool
  | .tell (.step _ _ _ .started) => true
  | _ => false

/-- **What is in order where a run stands towards a stop.** -/
def heed : Protocol Cue Cue.Answer Heed where
  may φ
    | .enter place => φ.stance.works = true ∧ place ∉ φ.begun
    | .round _ => φ.stance = .clear
    | .request (.mark _) => True
    | .request .stopped => φ.stance ≠ .leaving
    | .request q => φ.stance.works = true ∧ (q.begins = true → φ.stance = .clear)
  step φ
    | .enter place, _ => ⟨.busy, place :: φ.begun⟩
    | .round _, _ => ⟨.busy, φ.begun⟩
    | .request (.mark _), _ => ⟨φ.stance.noted, φ.begun⟩
    -- the steps are counted anew from a look that finds no stop
    | .request .stopped, stop => if stop then ⟨.leaving, φ.begun⟩ else ⟨.clear, []⟩
    | .request (.sleep _), full => ⟨if full then .busy else .leaving, φ.begun⟩
    | .request .pausePending, pending => ⟨if pending then .busy else .looking, φ.begun⟩
    | .request .awaitResume, _ => ⟨.looking, φ.begun⟩
    | .request _, _ => ⟨.busy, φ.begun⟩

/-- Where a script of a step may end, if this can be said of the steps that have begun. -/
def Ends {α : Type} (Begun : List Place → Prop) : Except StepError α → Heed → Prop
  | .ok _, φ => φ.stance.works = true ∧ Begun φ.begun
  | .error .interrupted, φ => φ.stance = .leaving
  | .error _, φ => φ.stance.works = true

/-- A script of a step keeps to the order. -/
def Heeds {α : Type} (Begun : List Place → Prop) (m : CueScript α) (φ : Heed) : Prop :=
  m.run.Follows heed (Ends Begun) φ

/-! ## 2. Scripts -/

section Scripts

variable {α β : Type} {Begun Begun' : List Place → Prop} {φ : Heed}

theorem ends_error {e : StepError} (other : e ≠ .interrupted) (h : φ.stance.works = true) :
    Ends Begun (.error e : Except StepError α) φ := by
  cases e <;> first | exact h | exact absurd rfl other

theorem ends_answered (x : Except Failure α) :
    Ends (· ⊆ φ.begun) (x.mapError StepError.dispatch) ⟨.busy, φ.begun⟩ := by
  cases x with
  | ok a => exact ⟨rfl, List.Subset.refl _⟩
  | error e => exact rfl

theorem Heeds.mono (h : ∀ l, Begun l → Begun' l) {m : CueScript α} (hm : Heeds Begun m φ) :
    Heeds Begun' m φ := by
  refine Prog.Follows.mono (fun r ψ hr => ?_) hm
  cases r with
  | ok a => exact ⟨hr.1, h _ hr.2⟩
  | error e => cases e <;> exact hr

theorem Heeds.bind {m : CueScript α} {f : α → CueScript β} (hm : Heeds Begun m φ)
    (hf : ∀ a ψ, ψ.stance.works = true → Begun ψ.begun → Heeds Begun' (f a) ψ) :
    Heeds Begun' (m >>= f) φ := by
  unfold Heeds
  rw [run_bind]
  refine Prog.Follows.bind hm fun r ψ hr => ?_
  cases r with
  | ok a => exact hf a ψ hr.1 hr.2
  | error e => cases e <;> exact hr

/-- Where a run works, any request is in order but word that a step of the walk begins. -/
theorem in_order {q : Request} (h : φ.stance.works = true) (aside : q.begins = false) :
    heed.may φ (.request q) := by
  have no_word {P : Prop} (begins : q.begins = true) : P := by
    rw [aside] at begins
    cases begins
  cases q with
  | mark m => trivial
  | stopped =>
      intro leaving
      rw [leaving] at h
      cases h
  | _ => exact ⟨h, no_word⟩

/-- A request that heeds no wish leaves a run at its work. -/
theorem calm_in_order {q : Request} (calm : q.calm = true) (h : φ.stance.works = true) :
    heed.may φ (.request q) ∧ ∀ x, heed.step φ (.request q) x = ⟨.busy, φ.begun⟩ := by
  cases q <;> first
    | exact ⟨in_order h rfl, fun _ => rfl⟩
    | cases calm

/-- **Scripts keep to the order**, and no step begins in them. -/
theorem made_heeds {m : Script α} (hm : Made m) (h : φ.stance.works = true) :
    Heeds (· ⊆ φ.begun) m.quiet φ := by
  induction hm generalizing φ with
  | pure a => exact ⟨h, List.Subset.refl _⟩
  | throw e other own =>
      show Ends (· ⊆ φ.begun) (.error e : Except StepError _) φ
      exact ends_error other h
  | ask q plain may =>
      obtain ⟨may, leads⟩ := calm_in_order (Request.calm_of_plain plain) h
      refine ⟨may, fun x => ?_⟩
      rw [leads x]
      exact ⟨rfl, List.Subset.refl _⟩
  | device call may =>
      unfold Heeds Script.quiet
      rw [run_device]
      exact ⟨in_order h rfl, ends_answered⟩
  | search template confidence area may =>
      unfold Heeds Script.quiet
      rw [run_search]
      exact ⟨in_order h rfl, ends_answered⟩
  | sleep ms =>
      unfold Heeds Script.quiet
      rw [run_sleep]
      refine ⟨in_order h rfl, fun full => ?_⟩
      cases full with
      | true => exact ⟨rfl, List.Subset.refl _⟩
      | false => exact rfl
  | boundary =>
      refine ⟨in_order h rfl, fun _ => ⟨Stance.looking_ne_leaving, fun stop => ?_⟩⟩
      cases stop with
      | true => exact rfl
      | false => exact ⟨rfl, List.nil_subset _⟩
  | bind hm hf ihm ihf =>
      rw [script_quiet_bind]
      exact (ihm h).bind fun a ψ hψ sub => (ihf a hψ).mono fun l hl => List.Subset.trans hl sub

end Scripts

/-! ## 3. Steps -/

section Steps

variable {φ : Heed} (s : Settings)

/-- A step begins. -/
theorem heeds_enter {place : Place} {Begun : List Place → Prop} {f : Unit → CueScript Unit}
    (h : φ.stance.works = true) (fresh : place ∉ φ.begun)
    (hf : Heeds Begun (f ()) ⟨.busy, place :: φ.begun⟩) :
    Heeds Begun (CueScript.enter place >>= f) φ := ⟨⟨h, fresh⟩, fun _ => hf⟩

/-- A loop goes past its look at pause and stop: nothing has begun since. -/
theorem heeds_round {place : Place} {Begun : List Place → Prop} {f : Unit → CueScript Unit}
    (h : φ.stance.works = true) (hf : Heeds Begun (f ()) ⟨.busy, []⟩) :
    Heeds Begun (boundary.quiet >>= fun _ => CueScript.round place >>= f) φ := by
  refine ⟨in_order h rfl, fun _ => ⟨Stance.looking_ne_leaving, fun stop => ?_⟩⟩
  cases stop with
  | true => exact rfl
  | false => exact ⟨rfl, fun _ => hf⟩

/-- **A loop** looks before each round, so its rounds need not be told apart. -/
theorem heeds_loop (id : String) (r : LoopRule) (place : Place) {body : CueScript Unit}
    (hb : ∀ ψ : Heed, ψ.stance.works = true → ψ.begun = [] → Heeds (fun _ => True) body ψ)
    (left done : Nat) (h : φ.stance.works = true) :
    Heeds (· = []) (r.cued s id place body left done) φ := by
  induction left generalizing done φ with
  | zero =>
      have log : Made
          (if r.wantsMore done then Script.ask (.log (.loopLimit id r.limit)) else pure ()) :=
        made_ite (.ask _ rfl trivial) (.pure _)
      have ends := made_heeds (φ := ⟨.busy, []⟩) log rfl
      exact heeds_round h (ends.mono fun _ => List.subset_nil.mp)
  | succ left ih =>
      refine heeds_round h ((made_heeds (proceeds_made s r done).made rfl).bind
        fun more ψ hψ none_begun => ?_)
      have nothing := List.subset_nil.mp none_begun
      cases more with
      | false => exact ⟨hψ, nothing⟩
      | true => exact (hb ψ hψ nothing).bind fun _ χ hχ _ => ih (done + 1) hχ

/-! ## 4. Trees of steps -/

/-- Neither the step at a place has begun nor one within it. -/
def Fresh (place : Place) (begun : List Place) : Prop := ∀ π ∈ begun, ¬ place <:+ π

/-- What has begun had begun before, or is at a place or within it. -/
def Within (before : List Place) (place : Place) (begun : List Place) : Prop :=
  ∀ π ∈ begun, π ∈ before ∨ place <:+ π

section Places

variable {before mid begun : List Place} {place : Place} {k : Nat}

theorem Fresh.notMem (h : Fresh place begun) : place ∉ begun :=
  fun mem => h place mem (List.suffix_refl _)

theorem Fresh.mono (h : Fresh place begun) (sub : before ⊆ begun) : Fresh place before :=
  fun π hπ => h π (sub hπ)

/-- What has begun once more is the step itself. -/
theorem Within.of_subset_cons (sub : begun ⊆ place :: before) : Within before place begun := by
  intro π hπ
  rcases List.mem_cons.mp (sub hπ) with rfl | mem
  · exact .inr (List.suffix_refl _)
  · exact .inl mem

theorem Within.trans (h : Within before place mid) (h' : Within mid place begun) :
    Within before place begun :=
  fun π hπ => (h' π hπ).elim (h π) .inr

theorem Within.outer (h : Within before (k :: place) begun) : Within before place begun :=
  fun π hπ => (h π hπ).imp id (List.suffix_cons k place).trans

/-- Steps within a step are new when that one has just begun. -/
theorem fresh_within (h : Fresh place before) (sub : begun ⊆ place :: before) (j : Nat) :
    Fresh (j :: k :: place) begun := by
  have inner : place <:+ j :: k :: place := (List.suffix_cons k place).trans (List.suffix_cons j _)
  intro π hπ deep
  rcases List.mem_cons.mp (sub hπ) with rfl | mem
  · have longer := deep.length_le
    simp only [List.length_cons] at longer
    omega
  · exact h π mem (inner.trans deep)

/-- Later steps of a sequence stay new while an earlier one goes on. -/
theorem fresh_later {j : Nat} (h : Fresh (j :: place) before) (h' : Within before (k :: place) begun)
    (later : k < j) : Fresh (j :: place) begun := by
  intro π hπ deep
  rcases h' π hπ with mem | shallow
  · exact h π mem deep
  · have same := (List.suffix_of_suffix_length_le shallow deep (by simp)).eq_of_length (by simp)
    have := (List.cons.inj same).1
    omega

end Places

mutual

/-- **A step** that is new: what begins in it is the step itself or within it. -/
theorem heeds_action (place : Place) : (a : Action) → {φ : Heed} → φ.stance.works = true →
    Fresh place φ.begun → Heeds (Within φ.begun place) (a.cued s place) φ
  | .simple _ deed, φ, h, fresh =>
      heeds_enter h fresh.notMem
        ((made_heeds (φ := ⟨.busy, place :: φ.begun⟩) (deed_made s deed).made rfl).mono fun _ =>
          .of_subset_cons)
  | .condition header test thenBranch elseBranch, φ, h, fresh => by
      refine heeds_enter h fresh.notMem
        ((made_heeds (holds_made s test).made rfl).bind fun x ψ hψ sub => ?_)
      have branch (k : Nat) (as : List Action)
          (inner : Heeds (Within ψ.begun (k :: place)) (cuedAll s (k :: place) 0 as) ψ) :
          Heeds (Within φ.begun place) (cuedAll s (k :: place) 0 as) ψ :=
        inner.mono fun _ ends => (Within.of_subset_cons sub).trans ends.outer
      cases x with
      | true => exact branch 0 _ (heeds_all _ 0 thenBranch hψ fun j _ => fresh_within fresh sub j)
      | false => exact branch 1 _ (heeds_all _ 0 elseBranch hψ fun j _ => fresh_within fresh sub j)
  | .loop header rule body, φ, h, fresh => by
      -- each round starts from a look, so nothing of the body has begun before it
      refine heeds_enter h fresh.notMem
        ((heeds_loop s header.id rule place (fun ψ hψ nothing => ?_) rule.limit 0 rfl).mono ?_)
      · refine (heeds_all (0 :: place) 0 body hψ fun j _ π hπ => ?_).mono fun _ _ => trivial
        rw [nothing] at hπ
        cases hπ
      · rintro l rfl π ⟨⟩

/-- **A sequence** that is new from `index` on. -/
theorem heeds_all (sequence : Place) (index : Nat) : (as : List Action) → {φ : Heed} →
    φ.stance.works = true → (∀ j ≥ index, Fresh (j :: sequence) φ.begun) →
    Heeds (Within φ.begun sequence) (cuedAll s sequence index as) φ
  | [], φ, h, _ => ⟨h, fun _ => .inl⟩
  | a :: rest, φ, h, fresh => by
      refine (made_heeds (pauseFor_made _) h).bind fun _ ψ hψ sub => ?_
      refine (heeds_action (index :: sequence) a hψ ((fresh index (Nat.le_refl _)).mono sub)).bind
        fun _ χ hχ done => ?_
      refine (made_heeds (pauseFor_made _) hχ).bind fun _ ω hω sub' => ?_
      have earlier : Within φ.begun (index :: sequence) ω.begun := fun π hπ =>
        (done π (sub' hπ)).imp (sub ·) id
      have later : ∀ j ≥ index + 1, Fresh (j :: sequence) ω.begun := fun j hj =>
        fresh_later (fresh j (by omega)) earlier hj
      exact (heeds_all sequence (index + 1) rest hω later).mono fun _ ends =>
        earlier.outer.trans ends

end

/-! ## 5. Runs -/

/-- Where a run may stand after the look at a stop that it answers. -/
def Seen (stop : Bool) (φ : Heed) : Prop := if stop then φ.stance = .leaving else φ = ⟨.clear, []⟩

theorem gate_heeds (i : Nat) (h : φ.stance.works = true) : (gate i).quiet.Follows heed Seen φ := by
  have look {ψ : Heed} (hψ : ψ.stance ≠ .leaving) :
      (RunProg.quiet (.ask .stopped .done)).Follows heed Seen ψ := by
    refine ⟨hψ, fun stop => ?_⟩
    cases stop <;> exact rfl
  have works : φ.stance.noted.works = true := by rw [Stance.works_noted, h]
  refine ⟨trivial, fun _ => ⟨in_order works rfl, fun pending => ?_⟩⟩
  cases pending with
  | false => exact look Stance.looking_ne_leaving
  | true =>
      exact ⟨trivial, fun _ => ⟨in_order rfl rfl, fun _ => ⟨in_order rfl rfl, fun _ =>
        ⟨trivial, fun _ => look Stance.looking_ne_leaving⟩⟩⟩⟩

/-- A run that ends with a step need not work on. -/
theorem over_with {r : RunResult} (goes_on : some r = none) : φ.stance.works = true :=
  (Option.some_ne_none r goes_on).elim

/-- What follows a step that was performed. -/
theorem closeStep_heeds (total i : Nat) (a : Action) {x : Except StepError Unit}
    (h : Ends (fun _ => True) x φ) :
    (closeStep s total i a x).quiet.Follows heed (fun o ψ => o = none → ψ.stance.works = true) φ := by
  cases x with
  | ok u =>
      simp only [closeStep, Prog.bind_eq, Request.ask, Prog.request_bind]
      refine ⟨in_order h.1 rfl, fun _ => ?_⟩
      dsimp only
      rw [quiet_bind]
      refine Prog.Follows.bind (made_heeds (recover_any s a) rfl) fun r ψ ends => ?_
      cases r with
      | ok u => exact fun _ => ends.1
      | error e => exact ⟨trivial, fun _ => over_with⟩
  | error e =>
      by_cases he : e = .interrupted
      · subst he
        exact ⟨trivial, fun _ => over_with⟩
      · have works : φ.stance.works = true := by cases e <;> first | exact h | exact absurd rfl he
        rw [closeStep.eq_3 s total i a e he]
        split
        · exact ⟨in_order works rfl, fun _ => ⟨in_order rfl rfl, fun _ _ => rfl⟩⟩
        · exact ⟨in_order works rfl, fun _ => ⟨trivial, fun _ => over_with⟩⟩

/-- A step of the walk keeps to the order, and works on unless the run ends there. -/
theorem step_heeds (total index : Nat) (a : Action) (h : φ.stance.works = true) :
    (cuedStep s total index a).Follows heed (fun o ψ => o = none → ψ.stance.works = true) φ := by
  refine (gate_heeds index h).bind fun stop ψ seen => ?_
  cases stop with
  | true => exact ⟨trivial, fun _ => over_with⟩
  | false =>
      obtain rfl : ψ = ⟨.clear, []⟩ := seen
      refine ⟨⟨rfl, fun _ => rfl⟩, fun _ => ?_⟩
      have ends : Heeds (fun _ => True) (a.cuedPerform s [index]) ⟨.busy, []⟩ :=
        (made_heeds (pauseFor_made _) rfl).bind fun _ χ hχ nothing =>
          (heeds_action s [index] a hχ fun π hπ => absurd (nothing hπ) List.not_mem_nil).mono
            fun _ _ => trivial
      exact Prog.Follows.bind (p := (a.cuedPerform s [index]).run) ends fun x χ hx =>
        closeStep_heeds s total index a hx

theorem from_heeds (total index : Nat) (as : List Action) (h : φ.stance.works = true) :
    (cuedFrom s total index as).Follows heed (fun _ _ => True) φ := by
  induction as generalizing index φ with
  | nil => exact ⟨trivial, fun _ => trivial⟩
  | cons a as ih =>
      refine (step_heeds s total index a h).bind fun o ψ goes_on => ?_
      cases o with
      | some r => trivial
      | none => exact ih (index + 1) (goes_on rfl)

/-- **A run keeps to the order.** -/
theorem run_heeds (t : Task) : (t.cued s).Follows heed (fun _ _ => True) ⟨.busy, []⟩ :=
  ⟨trivial, fun _ => from_heeds s _ 0 _ rfl⟩

end Steps
end TaskReplay
