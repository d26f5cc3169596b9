/-!
The bounds of machine integers, as numbers.
-/

namespace TaskReplay.Width

/-- The least integer of 32 bits with sign. -/
abbrev minInt32 : Int := -2147483648

/-- The largest integer of 32 bits with sign. -/
abbrev maxInt32 : Int := 2147483647

/-- The largest integer of 32 bits without sign. -/
abbrev maxUInt32 : Nat := 4294967295

/-- The least integer of 64 bits with sign. -/
abbrev minInt64 : Int := -9223372036854775808

/-- The largest integer of 64 bits with sign. -/
abbrev maxInt64 : Int := 9223372036854775807

/-- The largest integer of 64 bits without sign. -/
abbrev maxUInt64 : Nat := 18446744073709551615

example : minInt32 = Int32.minValue.toInt ∧ maxInt32 = Int32.maxValue.toInt := by decide
example : minInt64 = Int64.minValue.toInt ∧ maxInt64 = Int64.maxValue.toInt := by decide
example : maxUInt32 + 1 = UInt32.size ∧ maxUInt64 + 1 = UInt64.size := by decide

/-- The nearest integer of 32 bits with sign. -/
def clampInt32 (n : Int) : Int := max minInt32 (min maxInt32 n)

/-- The nearest integer of 64 bits with sign. -/
def clampInt64 (n : Int) : Int := max minInt64 (min maxInt64 n)

theorem clampInt64_eq_self {n : Int} (h : minInt64 ≤ n ∧ n ≤ maxInt64) : clampInt64 n = n := by
  unfold clampInt64
  omega

end TaskReplay.Width
