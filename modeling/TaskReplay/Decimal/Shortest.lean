/-!
The fewest decimal digits that read back as a given binary number.

What this file fixes:
* `Binary` is a positive number `mantissa · 2 ^ exponent` together with the width of the gap below
  it, so that the reals rounding to it form a known interval (ends included iff the mantissa is
  even);
* `shortest` tries grids of 1, 2, … 17 digits and takes the first with a point in that interval, of
  two such points the nearer; an exact tie is left to the caller's `Tie`;
* `Magnitude.ofBits` splits the bits of an IEEE number into its cases.

All arithmetic is on natural numbers, so nothing here rounds.
-/

namespace TaskReplay.Decimal

/-! ## 1. Binary numbers -/

/-- A positive number `mantissa · 2 ^ exponent`. `narrow` tells that the gap to the next smaller
number is half of the gap above. -/
structure Binary where
  mantissa : Nat
  exponent : Int
  narrow : Bool
  deriving DecidableEq, Repr

/-- What an IEEE bit pattern stands for. -/
inductive Magnitude where
  | nan
  | infinite
  | zero
  | finite (value : Binary)
  deriving DecidableEq, Repr

/-- The sign bit of a pattern with the given field widths. -/
def isNegative (exponentBits fractionBits : Nat) (bits : Nat) : Bool :=
  bits / Nat.pow 2 (exponentBits + fractionBits) % 2 == 1

/-- The value of a bit pattern, sign left aside. -/
def Magnitude.ofBits (exponentBits fractionBits : Nat) (bits : Nat) : Magnitude :=
  let fraction := bits % Nat.pow 2 fractionBits
  let biased := bits / Nat.pow 2 fractionBits % Nat.pow 2 exponentBits
  let bias : Int := Nat.pow 2 (exponentBits - 1) - 1
  if biased = Nat.pow 2 exponentBits - 1 then
    if fraction = 0 then .infinite else .nan
  else if biased = 0 then
    if fraction = 0 then .zero else .finite ⟨fraction, 1 - bias - fractionBits, false⟩
  else
    .finite ⟨fraction + Nat.pow 2 fractionBits, biased - bias - fractionBits,
      fraction == 0 && biased != 1⟩

/-! ## 2. Grids of decimal points -/

/-- Which neighbour an exact tie goes to. -/
inductive Tie where
  | toEven
  | up
  deriving DecidableEq, Repr

/-- The number `0.d₁d₂… · 10 ^ point`. -/
structure Digits where
  digits : List Nat
  point : Int
  deriving DecidableEq, Repr

/-- The number of decimal digits of `n`. -/
def width (n : Nat) : Nat := (Nat.toDigits 10 n).length

/-- A value and the interval around it, as fractions over one denominator. -/
structure Interval where
  low : Nat
  value : Nat
  high : Nat
  denominator : Nat
  closed : Bool

/-- The reals that round to `b`. -/
def Binary.interval (b : Binary) : Interval :=
  let quarter := b.exponent - 2
  let scale := Nat.pow 2 quarter.toNat
  { low := (4 * b.mantissa - if b.narrow then 1 else 2) * scale
    value := 4 * b.mantissa * scale
    high := (4 * b.mantissa + 2) * scale
    denominator := Nat.pow 2 (-quarter).toNat
    closed := b.mantissa % 2 == 0 }

/-- The same interval measured in units of `10 ^ unit`. -/
def Interval.inUnits (i : Interval) (unit : Int) : Interval :=
  let up := Nat.pow 10 (-unit).toNat
  { i with
    low := i.low * up
    value := i.value * up
    high := i.high * up
    denominator := i.denominator * Nat.pow 10 unit.toNat }

/-- Whether the whole number `n` lies in the interval. -/
def Interval.contains (i : Interval) (n : Nat) : Bool :=
  let here := n * i.denominator
  if i.closed then i.low ≤ here && here ≤ i.high else i.low < here && here < i.high

/-- The least `k` with `value < 10 ^ k`. -/
def Interval.magnitude (i : Interval) : Int :=
  let guess : Int := width i.value - width i.denominator
  if i.denominator * Nat.pow 10 guess.toNat ≤ i.value * Nat.pow 10 (-guess).toNat then guess + 1
  else guess

/-- The grid point to write, if one of the value's two neighbours lies in the interval. -/
def Interval.pick? (i : Interval) (tie : Tie) : Option Nat :=
  let below := i.value / i.denominator
  let twice := 2 * i.value
  let middle := (2 * below + 1) * i.denominator
  let nearer :=
    if twice < middle then below
    else if middle < twice then below + 1
    else match tie with
      | .up => below + 1
      | .toEven => if below % 2 = 0 then below else below + 1
  match i.contains below, i.contains (below + 1) with
  | true, true => some nearer
  | true, false => some below
  | false, true => some (below + 1)
  | false, false => none

/-! ## 3. The search -/

/-- The digits of `n`, with the zeros at its end dropped. -/
def significant (n : Nat) : List Nat :=
  (((Nat.toDigits 10 n).map fun c => c.toNat - '0'.toNat).reverse.dropWhile (· == 0)).reverse

/-- The point `n` of the grid with `count` digits below `10 ^ magnitude`. -/
def Digits.ofGrid (n count : Nat) (magnitude : Int) : Digits :=
  ⟨significant n, magnitude + (width n - count : Int)⟩

/-- Tries grids of `count`, `count + 1`, … digits, `left` of them, and then gives the last floor. -/
def search (i : Interval) (tie : Tie) (magnitude : Int) : (left count : Nat) → Digits
  | 0, count => Digits.ofGrid ((i.inUnits (magnitude - count)).value /
      (i.inUnits (magnitude - count)).denominator) count magnitude
  | left + 1, count =>
    match (i.inUnits (magnitude - count)).pick? tie with
    | some n => Digits.ofGrid n count magnitude
    | none => search i tie magnitude left (count + 1)

/-- The shortest digits that read back as `b`. -/
def shortest (b : Binary) (tie : Tie) : Digits :=
  search b.interval tie b.interval.magnitude 17 1

end TaskReplay.Decimal
