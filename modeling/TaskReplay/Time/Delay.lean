import TaskReplay.Width

/-!
Delays in milliseconds and their random part.

What this file fixes:
* `Draw r` is what chance may give: a whole number from `-r` to `r`;
* `jittered` adds a draw to a delay within 64-bit bounds and never goes below a floor;
* `postStep` is the pause after a step: none for a base of zero, else at least `minStepDelay`.
-/

namespace TaskReplay.Delay

/-! ## 1. Draws -/

/-- A random whole number from `-range` to `range`. -/
abbrev Draw (range : Nat) := { n : Int // -(range : Int) ≤ n ∧ n ≤ range }

/-- The draw that changes nothing. -/
def Draw.zero (range : Nat) : Draw range := ⟨0, by omega, by omega⟩

/-- The draw nearest to `n`. -/
def Draw.nearest (range : Nat) (n : Int) : Draw range :=
  ⟨max (-(range : Int)) (min range n), by omega, by omega⟩

instance (range : Nat) : Inhabited (Draw range) := ⟨Draw.zero range⟩

/-- The range that a draw for `range` really has. -/
def drawRange (range : UInt64) : Nat := min range.toNat Width.maxInt64.toNat

/-! ## 2. Delays -/

/-- A delay with a random part, not below `floor`. -/
def jittered (base : Nat) (jitter : Int) (floor : Nat) : Nat :=
  max (Width.clampInt64 (min (base : Int) Width.maxInt64 + jitter)).toNat floor

@[simp] theorem floor_le_jittered (base : Nat) (jitter : Int) (floor : Nat) :
    floor ≤ jittered base jitter floor := Nat.le_max_right _ _

/-- The least pause after a step that has one. -/
def minStepDelay : Nat := 10

/-- The pause after a step. -/
def postStep (base : Nat) (jitter : Int) : Nat :=
  if base = 0 then 0 else jittered base jitter minStepDelay

@[simp] theorem postStep_zero (jitter : Int) : postStep 0 jitter = 0 := rfl

end TaskReplay.Delay
