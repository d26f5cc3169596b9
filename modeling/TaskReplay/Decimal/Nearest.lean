import TaskReplay.Decimal.Shortest

/-!
The double nearest to a decimal number.

What this file fixes:
* `nearest` rounds once, whatever the number of digits; beyond the largest double it is infinite.
-/

namespace TaskReplay.Decimal

/-- Powers of ten beyond which every number is infinite or zero as a double. -/
def extreme : Int := 400

/-- The double nearest to `significand · 10 ^ exponent`. -/
def nearest (significand : Nat) (exponent : Int) : Float :=
  let top := width significand + exponent
  if significand = 0 ∨ top < -extreme then 0
  else if extreme < top then 1.0 / 0.0
  else Float.ofScientific significand (exponent < 0) exponent.natAbs

end TaskReplay.Decimal
