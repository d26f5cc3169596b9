import TaskReplay.Time.Delay

/-!
# Delays with a random part

A delay of 64 bits is moved by a draw, stops at the ends of its range and never goes below a floor. For all
words and all draws:

* `Jitter` -- the numbers on the way fit their words, and the delay is as near to what it should be as its
  draw says; `jitter_law` -- **so it is for any delay**;
* `PostStep`, `postStep_law` -- **the pause after a step**: none at all, or at least the least pause.
-/

namespace TaskReplay.Delay

/-- **No number of a delay leaves its word**, on the way from its parts to the delay itself. -/
structure Fits (base variation floor : UInt64) (jitter : Draw (drawRange variation)) : Prop where
  range : Width.minInt64 ≤ -(drawRange variation : Int) ∧ drawRange variation ≤ Width.maxInt64
  drawn : Width.minInt64 ≤ jitter.val ∧ jitter.val ≤ Width.maxInt64
  sum : let sum := Width.clampInt64 (min (base.toNat : Int) Width.maxInt64 + jitter)
    Width.minInt64 ≤ sum ∧ sum ≤ Width.maxInt64
  delay : jittered base.toNat jitter floor.toNat ≤ Width.maxUInt64

/-- **A delay with a random part**: no number leaves its word, it does not fall below its floor, and it is no
further from its base than its variation, if all of that is in the range of a draw. -/
structure Jitter (base variation floor : UInt64) (jitter : Draw (drawRange variation)) : Prop where
  fits : Fits base variation floor jitter
  least : floor.toNat ≤ jittered base.toNat jitter floor.toNat
  between : base.toNat + variation.toNat ≤ Width.maxInt64 →
    max (floor.toNat : Int) (base.toNat - variation.toNat) ≤ jittered base.toNat jitter floor.toNat ∧
    jittered base.toNat jitter floor.toNat ≤ max (floor.toNat : Int) (base.toNat + variation.toNat)

theorem drawRange_bounds (variation : UInt64) :
    drawRange variation ≤ variation.toNat ∧ (drawRange variation : Int) ≤ Width.maxInt64 := by
  simp only [drawRange, Width.maxInt64]
  omega

theorem clampInt64_bounds (n : Int) :
    Width.minInt64 ≤ Width.clampInt64 n ∧ Width.clampInt64 n ≤ Width.maxInt64 := by
  simp only [Width.clampInt64, Width.minInt64, Width.maxInt64]
  omega

theorem fits (base variation floor : UInt64) (jitter : Draw (drawRange variation)) :
    Fits base variation floor jitter := by
  obtain ⟨-, range⟩ := drawRange_bounds variation
  obtain ⟨low, high⟩ := jitter.property
  obtain ⟨sum_low, sum_high⟩ := clampInt64_bounds (min (base.toNat : Int) Width.maxInt64 + jitter)
  have floor_lt : floor.toNat < 2 ^ 64 := floor.toNat_lt
  refine ⟨?_, ?_, ⟨sum_low, sum_high⟩, ?_⟩
  · simp only [Width.minInt64, Width.maxInt64] at range ⊢
    omega
  · simp only [Width.minInt64, Width.maxInt64] at range ⊢
    omega
  · simp only [jittered, Width.maxUInt64, Width.maxInt64] at sum_high ⊢
    omega

/-- Where base and variation are small enough, nothing stops at the ends of the range. -/
theorem jittered_eq {base variation : UInt64} (jitter : Draw (drawRange variation)) (floor : Nat)
    (small : base.toNat + variation.toNat ≤ Width.maxInt64) :
    (jittered base.toNat jitter floor : Int) = max (floor : Int) (max 0 (base.toNat + jitter)) := by
  obtain ⟨range, -⟩ := drawRange_bounds variation
  obtain ⟨low, high⟩ := jitter.property
  have inside : Width.minInt64 ≤ (base.toNat : Int) + jitter ∧
      (base.toNat : Int) + jitter ≤ Width.maxInt64 := by
    simp only [Width.minInt64, Width.maxInt64] at small ⊢
    omega
  have whole : min (base.toNat : Int) Width.maxInt64 = base.toNat := by
    simp only [Width.maxInt64] at small ⊢
    omega
  rw [jittered, whole, Width.clampInt64_eq_self inside]
  omega

/-- **Any delay with a random part.** -/
theorem jitter_law (base variation floor : UInt64) (jitter : Draw (drawRange variation)) :
    Jitter base variation floor jitter := by
  refine ⟨fits base variation floor jitter, floor_le_jittered _ _ _, fun small => ?_⟩
  obtain ⟨range, -⟩ := drawRange_bounds variation
  obtain ⟨low, high⟩ := jitter.property
  rw [jittered_eq jitter floor.toNat small]
  omega

/-- **The pause after a step**: none exactly if its base is zero; otherwise at least 10 ms, and no further
from its base than its variation, but for that, if all of that is in the range of a draw. -/
structure PostStep (base variation : UInt64) (jitter : Draw (drawRange variation)) : Prop where
  none : postStep base.toNat jitter = 0 ↔ base = 0
  least : base ≠ 0 → 10 ≤ postStep base.toNat jitter
  between : base ≠ 0 → base.toNat + variation.toNat ≤ Width.maxInt64 →
    max (10 : Int) (base.toNat - variation.toNat) ≤ postStep base.toNat jitter ∧
    postStep base.toNat jitter ≤ max (10 : Int) (base.toNat + variation.toNat)
  fits : postStep base.toNat jitter ≤ Width.maxUInt64

theorem postStep_law (base variation : UInt64) (jitter : Draw (drawRange variation)) :
    PostStep base variation jitter := by
  obtain ⟨fit, least, between⟩ := jitter_law base variation 10 jitter
  by_cases zero : base = 0
  · subst zero
    exact ⟨⟨fun _ => rfl, fun _ => rfl⟩, (absurd rfl ·), (absurd rfl ·), Nat.zero_le _⟩
  · have some_base : base.toNat ≠ 0 := fun h => zero (UInt64.toNat_inj.mp h)
    have same : postStep base.toNat jitter = jittered base.toNat jitter (10 : UInt64).toNat :=
      if_neg some_base
    rw [← same] at least between
    have ten : 10 ≤ postStep base.toNat jitter := least
    exact ⟨⟨fun h => by omega, fun h => absurd h zero⟩, fun _ => ten, fun _ => between, same ▸ fit.delay⟩

end TaskReplay.Delay
