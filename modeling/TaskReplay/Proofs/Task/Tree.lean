import Mathlib.Data.List.Nodup
import TaskReplay.Task.Basic

/-!
# The tree of a script

Where the steps of a script stand, and that the walk through it meets each of them once:

* `stepAt?` -- the step at a place, read inwards: its number in the sequence, or the number of the
  step it is part of, which inner sequence of that one, and its place there;
* `InOrder f as` -- `as` is what a map from places to steps holds, in the order of the places, a
  step before its inner steps;
* `walkAll_cons` -- a walk goes from a step to its inner sequences and then to the next step;
* `walk_inOrder` -- **a walk lists every step of the tree, each once and depth first**.
-/

namespace TaskReplay

/-! ## 1. Places -/

/-- The step at a place. -/
def stepAt? (as : List Action) : List Nat → Option Action
  | [] => none
  | [i] => as[i]?
  | i :: c :: path => do stepAt? (← (← as[i]?).children[c]?) path

/-- The step at a place within sequences, after the number of the sequence. -/
def stepIn? (seqs : List (List Action)) : List Nat → Option Action
  | [] => none
  | c :: path => do stepAt? (← seqs[c]?) path

/-- The place with one more step or sequence before it. -/
def oneOn : List Nat → List Nat
  | [] => []
  | i :: path => (i + 1) :: path

/-- **The steps that a map from places holds, in the order of their places.** -/
def InOrder (f : List Nat → Option Action) (as : List Action) : Prop :=
  ∃ places : List (List Nat × Action), places.map (·.2) = as ∧
    places.Pairwise (fun p q => p.1 < q.1) ∧ ∀ π a, (π, a) ∈ places ↔ f π = some a

section Order

variable {f g h : List Nat → Option Action} {as bs : List Action} {a : Action}

theorem inOrder_none : InOrder (fun _ => none) [] := ⟨[], rfl, .nil, by simp⟩

/-- Where nothing stands at the root, every place has a first number. -/
theorem exists_cons_of_some (none_here : f [] = none) {π : List Nat} (hπ : f π = some a) :
    ∃ i ρ, π = i :: ρ := by
  cases π with
  | nil => rw [none_here] at hπ; cases hπ
  | cons i ρ => exact ⟨i, ρ, rfl⟩

theorem lt_oneOn {i j : Nat} {π ρ : List Nat} (lt : i :: π < j :: ρ) :
    oneOn (i :: π) < oneOn (j :: ρ) := by
  rcases List.cons_lt_cons_iff.mp lt with less | ⟨rfl, less⟩
  · exact List.cons_lt_cons_iff.mpr (.inl (Nat.succ_lt_succ less))
  · exact List.cons_lt_cons_iff.mpr (.inr ⟨rfl, less⟩)

/-- A step before all others. -/
theorem InOrder.root (root : f [] = some a) (same : ∀ i π, f (i :: π) = g (i :: π))
    (none_here : g [] = none) (hg : InOrder g as) : InOrder f (a :: as) := by
  obtain ⟨places, listed, ordered, all⟩ := hg
  refine ⟨([], a) :: places, by simp [listed], ?_, fun π b => ?_⟩
  · refine List.pairwise_cons.mpr ⟨fun p hp => ?_, ordered⟩
    obtain ⟨i, ρ, hρ⟩ := exists_cons_of_some none_here ((all p.1 p.2).mp hp)
    rw [hρ]
    exact List.nil_lt_cons i ρ
  · cases π with
    | nil => simp [root, all, none_here, eq_comm]
    | cons i ρ => simp [all, same]

/-- What stands at places that begin with zero, and then the rest. -/
theorem InOrder.append (none_here : f [] = none) (first : ∀ π, f (0 :: π) = g π)
    (later : ∀ i π, f ((i + 1) :: π) = h (i :: π)) (none_later : h [] = none)
    (hg : InOrder g as) (hh : InOrder h bs) : InOrder f (as ++ bs) := by
  obtain ⟨firsts, listed, ordered, all⟩ := hg
  obtain ⟨rests, listed', ordered', all'⟩ := hh
  have below : ∀ p ∈ rests, ∃ i ρ, p.1 = i :: ρ := fun p hp =>
    exists_cons_of_some none_later ((all' p.1 p.2).mp hp)
  refine ⟨firsts.map (fun p => (0 :: p.1, p.2)) ++ rests.map (fun p => (oneOn p.1, p.2)),
    ?_, List.pairwise_append.mpr ⟨?_, ?_, ?_⟩, fun π b => ?_⟩
  · simp [← listed, ← listed', Function.comp_def]
  · exact List.pairwise_map.mpr (ordered.imp fun lt => List.cons_lt_cons_iff.mpr (.inr ⟨rfl, lt⟩))
  · refine List.pairwise_map.mpr (ordered'.imp_of_mem fun {p q} hp hq lt => ?_)
    obtain ⟨i, π, hπ⟩ := below p hp
    obtain ⟨j, ρ, hρ⟩ := below q hq
    rw [hπ, hρ] at lt ⊢
    exact lt_oneOn lt
  · intro p hp q hq
    obtain ⟨p, -, rfl⟩ := List.mem_map.mp hp
    obtain ⟨q, hr, rfl⟩ := List.mem_map.mp hq
    obtain ⟨j, ρ, hρ⟩ := below q hr
    rw [hρ]
    exact List.cons_lt_cons_iff.mpr (.inl (Nat.succ_pos j))
  · rw [List.mem_append, List.mem_map, List.mem_map]
    constructor
    · rintro (⟨⟨ρ, c⟩, hρ, e⟩ | ⟨⟨ρ, c⟩, hρ, e⟩)
      · cases e
        exact (first ρ).trans ((all ρ c).mp hρ)
      · obtain ⟨i, ρ, rfl⟩ := below _ hρ
        cases e
        exact (later i ρ).trans ((all' _ c).mp hρ)
    · intro hb
      obtain ⟨i, ρ, rfl⟩ := exists_cons_of_some none_here hb
      cases i with
      | zero => exact .inl ⟨(ρ, b), (all ρ b).mpr ((first ρ).symm.trans hb), rfl⟩
      | succ i => exact .inr ⟨(i :: ρ, b), (all' _ b).mpr ((later i ρ).symm.trans hb), rfl⟩

/-- What stands somewhere is listed, and nothing else is. -/
theorem InOrder.mem_iff (hf : InOrder f as) (a : Action) : a ∈ as ↔ ∃ π, f π = some a := by
  obtain ⟨places, rfl, -, all⟩ := hf
  simp [all]

/-- Names that differ at different places are names that differ in the list. -/
theorem InOrder.nodup_iff (hf : InOrder f as) (name : Action → String) : (as.map name).Nodup ↔
    ∀ π ρ a b, f π = some a → f ρ = some b → name a = name b → π = ρ := by
  obtain ⟨places, rfl, ordered, all⟩ := hf
  have once : places.Nodup := by
    refine ordered.imp ?_
    rintro p _ lt rfl
    exact List.lt_irrefl p.1 lt
  rw [List.map_map, List.nodup_map_iff_inj_on once]
  constructor
  · intro inj π ρ a b ha hb same
    exact congrArg Prod.fst (inj (π, a) ((all π a).mpr ha) (ρ, b) ((all ρ b).mpr hb) same)
  · rintro inj ⟨π, a⟩ ha ⟨ρ, b⟩ hb same
    have ha := (all π a).mp ha
    have hb := (all ρ b).mp hb
    obtain rfl : π = ρ := inj π ρ a b ha hb same
    rw [ha] at hb
    cases hb
    rfl

end Order

/-! ## 2. The walk -/

/-- A walk goes from a step to its inner sequences and then to the next step. -/
theorem walkAll_cons (a : Action) (rest : List Action) :
    Action.walkAll (a :: rest) =
      (a :: a.children.flatMap Action.walkAll) ++ Action.walkAll rest := by
  cases a <;> simp [Action.walkAll, Action.walk, Action.children]

/-- At the places of a sequence stand its first step, the inner steps of that, and the rest. -/
theorem inOrder_cons {a : Action} {rest inner later : List Action}
    (hi : InOrder (stepIn? a.children) inner) (hl : InOrder (stepAt? rest) later) :
    InOrder (stepAt? (a :: rest)) ((a :: inner) ++ later) := by
  have first : InOrder (fun π => stepAt? (a :: rest) (0 :: π)) (a :: inner) :=
    hi.root (g := stepIn? a.children) rfl (fun _ _ => rfl) rfl
  refine first.append (h := stepAt? rest) rfl (fun _ => rfl) (fun i π => ?_) rfl hl
  cases π <;> simp [stepAt?]

/-- At the places of sequences stand the steps of the first and then those of the others. -/
theorem inOrder_seqs {seq first later : List Action} {seqs : List (List Action)}
    (hf : InOrder (stepAt? seq) first) (hl : InOrder (stepIn? seqs) later) :
    InOrder (stepIn? (seq :: seqs)) (first ++ later) :=
  hf.append rfl (fun _ => rfl) (fun _ _ => by simp [stepIn?]) rfl hl

theorem inOrder_no_seqs : InOrder (stepIn? []) [] := by
  have nothing : stepIn? [] = fun _ => none := by
    funext π
    cases π <;> rfl
  exact nothing ▸ inOrder_none

theorem inOrder_nil : InOrder (stepAt? []) [] := by
  have nothing : stepAt? [] = fun _ => none := by
    funext π
    match π with
    | [] | [_] | _ :: _ :: _ => rfl
  exact nothing ▸ inOrder_none

mutual

theorem children_inOrder : (a : Action) →
    InOrder (stepIn? a.children) (a.children.flatMap Action.walkAll)
  | .simple _ _ => inOrder_no_seqs
  | .condition _ _ x y =>
      inOrder_seqs (walkAll_inOrder x) (inOrder_seqs (walkAll_inOrder y) inOrder_no_seqs)
  | .loop _ _ b => inOrder_seqs (walkAll_inOrder b) inOrder_no_seqs

/-- A walk through a sequence lists its steps and their inner steps in order. -/
theorem walkAll_inOrder : (as : List Action) → InOrder (stepAt? as) (Action.walkAll as)
  | [] => inOrder_nil
  | a :: rest => walkAll_cons a rest ▸ inOrder_cons (children_inOrder a) (walkAll_inOrder rest)

end

/-- **A walk lists every step of the tree**, each once and depth first. -/
theorem walk_inOrder (t : Task) : InOrder (stepAt? t.actions) t.walk := walkAll_inOrder t.actions

mutual

/-- Inner steps of an inner step are inner steps. -/
theorem walk_subset {a : Action} : (b : Action) → a ∈ b.walk → a.walk ⊆ b.walk
  | .simple h d, mem => by
      obtain rfl := List.mem_singleton.mp mem
      exact List.Subset.refl _
  | .condition h t x y, mem => by
      rcases List.mem_cons.mp mem with rfl | mem
      · exact List.Subset.refl _
      · refine List.Subset.trans ?_ (List.subset_cons_self _ _)
        rcases List.mem_append.mp mem with mem | mem
        · exact List.subset_append_of_subset_left _ (walkAll_subset x mem)
        · exact List.subset_append_of_subset_right _ (walkAll_subset y mem)
  | .loop h r body, mem => by
      rcases List.mem_cons.mp mem with rfl | mem
      · exact List.Subset.refl _
      · exact List.subset_cons_of_subset _ (walkAll_subset body mem)

theorem walkAll_subset {a : Action} : (as : List Action) → a ∈ Action.walkAll as →
    a.walk ⊆ Action.walkAll as
  | [], mem => nomatch mem
  | b :: rest, mem => by
      rcases List.mem_append.mp mem with mem | mem
      · exact List.subset_append_of_subset_left _ (walk_subset b mem)
      · exact List.subset_append_of_subset_right _ (walkAll_subset rest mem)

end

end TaskReplay
