import TaskReplay.Decimal.Shortest
import TaskReplay.Json.Basic
import TaskReplay.Width

/-!
Which number a numeral is, and which numeral a number gets.

What this file fixes:
* a numeral without fraction and exponent is a 64-bit whole number while it fits one; every other
  numeral is a double, and `-0` is the double;
* a double is computed from the leading digits that fit 64 bits and a power of ten, one rounding
  each, so it is not always the nearest double;
* a numeral too large for a double is no number at all (`none`), one too small is zero;
* doubles are written with their shortest digits, always with a point or an exponent: an exponent
  from `1e16` up and below `1e-5`.
-/

namespace TaskReplay

/-! ## 1. Reading -/

/-- A number, by the width that holds it. -/
inductive Number where
  | natural (value : UInt64)
  | negative (value : Int64)
  | real (value : Float)

namespace Numeral

/-- Takes digits while the result fits 64 bits; gives the result and the count of digits taken. -/
def leading (significand : Nat) : List Nat → Nat × Nat
  | [] => (significand, 0)
  | d :: ds =>
    if significand * 10 + d ≤ Width.maxUInt64 then
      let (s, taken) := leading (significand * 10 + d) ds
      (s, taken + 1)
    else (significand, 0)

/-- The decimal digits of a natural number, first digit first. -/
def digitsOf (n : Nat) : List Nat := (Nat.toDigits 10 n).map fun c => c.toNat - '0'.toNat

/-- The double of a power of ten. -/
def powerOfTen (n : Nat) : Float := OfScientific.ofScientific 1 false n

/-- `f / 10 ^ n`, by steps of `10 ^ 308` until `f` is zero or `n` is small. -/
def shrink (f : Float) (n : Nat) : Float :=
  if n ≤ 308 then f / powerOfTen n
  else if f == 0 then f
  else shrink (f / powerOfTen 308) (n - 308)
termination_by n

/-- `significand · 10 ^ exponent`, `none` beyond the largest double. -/
def scale? (significand : Nat) (exponent : Int) : Option Float :=
  let f := significand.toUInt64.toFloat
  if exponent < 0 then some (shrink f (-exponent).toNat)
  else if exponent ≤ 308 then
    let r := f * powerOfTen exponent.toNat
    if r.isInf then none else some r
  else if significand = 0 then some f
  else none

/-- The double that a numeral stands for. -/
def real? (n : Numeral) : Option Float := do
  let whole := digitsOf n.whole
  let (kept, taken) := leading 0 whole
  let (significand, places) := leading kept n.fraction
  let start : Int := (whole.length - taken : Nat) - (places : Int)
  let f ← match n.exponent with
    | none => scale? significand start
    | some e =>
      if e.natAbs ≤ Width.maxInt32 then scale? significand (Width.clampInt32 (start + e))
      else if significand ≠ 0 ∧ 0 < e then none
      else some 0
  return if n.negative then -f else f

/-- The number that a numeral stands for. -/
def number? (n : Numeral) : Option Number :=
  if n.fraction.isEmpty && n.exponent.isNone && n.whole ≤ Width.maxUInt64 then
    if !n.negative then some (.natural n.whole.toUInt64)
    else if n.whole = 0 ∨ -n.whole < Width.minInt64 then some (.real (-n.whole.toUInt64.toFloat))
    else some (.negative (Int64.ofInt (-n.whole)))
  else n.real?.map .real

end Numeral

namespace Number

/-- The double nearest to a number. -/
def toFloat : Number → Float
  | natural n => n.toFloat
  | negative n => n.toFloat
  | real x => x

/-- The single nearest to a double. -/
def single (x : Float) : Float32 :=
  let rounded := match Float.Model.UnpackedFloat.unpack .binary64 x.toBits.toBitVec with
    | .finite sign mantissa exponent _ =>
      Float.Model.UnpackedFloat.round .binary32 sign mantissa exponent
    | other => other
  Float32.ofBits (.ofBitVec (Float.Model.UnpackedFloat.pack .binary32 rounded))

/-- The single nearest to a number; a double is rounded once more. -/
def toFloat32 : Number → Float32
  | natural n => n.toFloat32
  | negative n => n.toFloat32
  | real x => single x

/-- The whole number, unless the number is a double. -/
def toInt? : Number → Option Int
  | natural n => some n.toNat
  | negative n => some n.toInt
  | real _ => none

end Number

/-! ## 2. Writing -/

namespace Numeral

/-- Digits with their point, or with an exponent beyond the positional range. -/
def ofDigits (negative : Bool) (d : Decimal.Digits) : Numeral :=
  let value (ds : List Nat) : Nat := ds.foldl (fun n x => n * 10 + x) 0
  let exponent := d.point - 1
  if -5 ≤ exponent ∧ exponent < 16 then
    if d.point ≤ 0 then ⟨negative, 0, List.replicate (-d.point).toNat 0 ++ d.digits, none⟩
    else
      let count := d.point.toNat
      let rest := d.digits.drop count
      ⟨negative, value (d.digits.take count) * Nat.pow 10 (count - d.digits.length),
        if rest.isEmpty then [0] else rest, none⟩
  else ⟨negative, value (d.digits.take 1), d.digits.drop 1, some exponent⟩

/-- The numeral of a bit pattern; NaN and the infinities have none. -/
def ofBits? (exponentBits fractionBits bits : Nat) : Option Numeral :=
  let negative := Decimal.isNegative exponentBits fractionBits bits
  match Decimal.Magnitude.ofBits exponentBits fractionBits bits with
  | .nan | .infinite => none
  | .zero => some ⟨negative, 0, [0], none⟩
  | .finite b => some (ofDigits negative (Decimal.shortest b .toEven))

end Numeral

namespace Json

/-- A double; NaN and the infinities are `null`. -/
def ofFloat (x : Float) : Json :=
  match Numeral.ofBits? 11 52 x.toBits.toNat with
  | some n => .number n
  | none => .null

/-- A single; NaN and the infinities are `null`. -/
def ofFloat32 (x : Float32) : Json :=
  match Numeral.ofBits? 8 23 x.toBits.toNat with
  | some n => .number n
  | none => .null

/-- A number in its written form. -/
def ofNumber : Number → Json
  | .natural n => ofNat n.toNat
  | .negative n => ofInt n.toInt
  | .real x => ofFloat x

end Json
end TaskReplay
