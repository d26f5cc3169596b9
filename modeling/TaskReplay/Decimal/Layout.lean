import TaskReplay.Decimal.Shortest

/-!
Plain decimal text of binary numbers.

What this file fixes:
* `plain` never writes an exponent and writes whole numbers without a point;
* ties go up, `NaN`, `inf` and `-inf` are words, and zero keeps its sign;
* `ofFloat` and `ofFloat32` are the two widths the library uses.
-/

namespace TaskReplay.Decimal

/-! ## 1. Digits as text -/

/-- The characters of a digit list. -/
def digitText (ds : List Nat) : String := String.join (ds.map toString)

/-- Digits in positional notation: zeros are added on either side of the point as needed. -/
def Digits.plain (d : Digits) : String :=
  let count := d.digits.length
  if d.point ≤ 0 then
    "0." ++ digitText (List.replicate (-d.point).toNat 0 ++ d.digits)
  else if count ≤ d.point.toNat then
    digitText (d.digits ++ List.replicate (d.point.toNat - count) 0)
  else
    digitText (d.digits.take d.point.toNat) ++ "." ++ digitText (d.digits.drop d.point.toNat)

/-! ## 2. IEEE numbers as text -/

/-- The plain text of a bit pattern. -/
def plain (exponentBits fractionBits bits : Nat) : String :=
  let sign := if isNegative exponentBits fractionBits bits then "-" else ""
  match Magnitude.ofBits exponentBits fractionBits bits with
  | .nan => "NaN"
  | .infinite => sign ++ "inf"
  | .zero => sign ++ "0"
  | .finite b => sign ++ (shortest b .up).plain

/-- Plain text of a number of double width. -/
def ofFloat (x : Float) : String := plain 11 52 x.toBits.toNat

/-- Plain text of a number of single width. -/
def ofFloat32 (x : Float32) : String := plain 8 23 x.toBits.toNat

end TaskReplay.Decimal
