import TaskReplay.Decimal.Nearest
import TaskReplay.Text.Digits

/-!
What the columns of a table hold.

What this file fixes:
* a text column holds text, so a number put there becomes its decimal digits;
* an integer column holds a 64-bit integer, or a text that writes no such integer;
* a text writes an integer if it is a decimal literal, blanks around it allowed, whose value is
  whole; a literal with a point or an exponent has the value of its nearest double.
-/

namespace TaskReplay.Store

/-! ## 1. Cells -/

/-- A value on its way into a column. -/
inductive Raw where
  | null
  | integer (value : Int64)
  | text (value : String)
  deriving DecidableEq, Repr

/-- What an integer column holds. -/
inductive Whole where
  | integer (value : Int64)
  | text (value : String)
  deriving DecidableEq, Repr

/-- The integer, if the cell holds one. -/
def Whole.value? : Whole → Option Int64
  | integer n => some n
  | text _ => none

@[simp] theorem Whole.value?_integer (n : Int64) : (integer n).value? = some n := rfl
@[simp] theorem Whole.value?_text (s : String) : (text s).value? = none := rfl

/-! ## 2. Literals -/

/-- A blank that may stand around a literal. -/
def isGap (c : Char) : Bool := c == ' ' || ('\t' ≤ c && c ≤ '\r')

/-- The text without blanks at its ends. -/
def trimmed (s : String) : List Char :=
  ((s.toList.dropWhile isGap).reverse.dropWhile isGap).reverse

/-- A sign and what follows it. -/
def signed : List Char → Bool × List Char
  | '-' :: rest => (true, rest)
  | '+' :: rest => (false, rest)
  | cs => (false, cs)

/-- A decimal literal: `± whole . fraction e exponent`. -/
structure Literal where
  negative : Bool
  whole : List Char
  /-- The digits after the point, if there is one. -/
  fraction : Option (List Char)
  exponent : Option Int

/-- The exponent at the end of a literal. -/
def exponent? : List Char → Option (Option Int)
  | [] => some none
  | e :: rest =>
    let (negative, ds) := signed rest
    if (e = 'e' ∨ e = 'E') ∧ ds ≠ [] ∧ ds.all Char.isDigit then
      some (some (if negative then -Text.valueOf ds else Text.valueOf ds))
    else none

/-- The digits after a point, and what follows them. -/
def afterPoint : List Char → Option (List Char) × List Char
  | '.' :: rest => (some (rest.takeWhile Char.isDigit), rest.dropWhile Char.isDigit)
  | cs => (none, cs)

/-- The literal that a text is. -/
def Literal.ofText? (s : String) : Option Literal := do
  let (negative, cs) := signed (trimmed s)
  let whole := cs.takeWhile Char.isDigit
  let (fraction, cs) := afterPoint (cs.dropWhile Char.isDigit)
  let exponent ← exponent? cs
  if whole.isEmpty && (fraction.getD []).isEmpty then none
  else some ⟨negative, whole, fraction, exponent⟩

/-- The whole number that a double is, strictly between the ends of the 64-bit range. -/
def whole? (r : Float) : Option Int64 :=
  let n := r.toInt64
  if n.toFloat == r ∧ Int64.minValue < n ∧ n < Int64.maxValue then some n else none

/-- The 64-bit integer that a literal writes. -/
def Literal.value? (l : Literal) : Option Int64 :=
  match l.fraction, l.exponent with
  | none, none =>
    let n : Int := if l.negative then -Text.valueOf l.whole else Text.valueOf l.whole
    if Int64.minValue.toInt ≤ n ∧ n ≤ Int64.maxValue.toInt then some (Int64.ofInt n) else none
  | fraction, exponent =>
    let digits := l.whole ++ fraction.getD []
    let r := Decimal.nearest (Text.valueOf digits)
      (exponent.getD 0 - ((fraction.getD []).length : Int))
    whole? (if l.negative then -r else r)

/-! ## 3. Columns -/

/-- What a text column keeps of a value. -/
def Raw.asText? : Raw → Option String
  | null => none
  | integer n => some (toString n.toInt)
  | text s => some s

/-- What an integer column keeps of a value. -/
def Raw.asWhole? : Raw → Option Whole
  | null => none
  | integer n => some (.integer n)
  | text s =>
    match (Literal.ofText? s).bind Literal.value? with
    | some n => some (.integer n)
    | none => some (.text s)

end TaskReplay.Store
