import TaskReplay.Decimal.Nearest
import TaskReplay.Text.Digits
import TaskReplay.Time.Timestamp
import TaskReplay.Toml.Basic

/-!
Words that stand for a value: numbers, dates, times and truth values.

What this file fixes:
* an underscore may stand between two digits of a number and nowhere else;
* integers have 64 bits, are decimal without zeros in front, or hexadecimal, octal or binary without
  a sign;
* a float has a fraction or an exponent; one above the largest double is no value, while one below
  the smallest counts as minus infinity;
* dates and times must exist, with second 60 allowed.
-/

namespace TaskReplay.Toml.Scalar

/-! ## 1. Digits -/

/-- Digits without the underscores between them. -/
def ungrouped? (isDigit : Char → Bool) : List Char → Option (List Char)
  | [] => none
  | [c] => if isDigit c then some [c] else none
  | c :: '_' :: rest => if isDigit c then (ungrouped? isDigit rest).map (c :: ·) else none
  | c :: rest => if isDigit c then (ungrouped? isDigit rest).map (c :: ·) else none

/-- The digits of a decimal number without zeros in front. -/
def decimal? (cs : List Char) : Option (List Char) := do
  let ds ← ungrouped? Char.isDigit cs
  if ds.head? = some '0' ∧ ds.length ≠ 1 then none else some ds

/-- A sign and what follows it. -/
def signed : List Char → Bool × List Char
  | '-' :: rest => (true, rest)
  | '+' :: rest => (false, rest)
  | cs => (false, cs)

/-! ## 2. Numbers -/

/-- A 64-bit integer. -/
def int64? (n : Int) : Option Int64 :=
  if Int64.minValue.toInt ≤ n ∧ n ≤ Int64.maxValue.toInt then some (Int64.ofInt n) else none

/-- An integer in a base with a mark in front. -/
def based? (base : Nat) (cs : List Char) : Option Int64 := do
  let ds ← ungrouped? (fun c => (Text.digit? base c).isSome) cs
  int64? (← Text.value? base ds)

/-- An integer. -/
def integer? : List Char → Option Int64
  | '0' :: 'x' :: rest => based? 16 rest
  | '0' :: 'o' :: rest => based? 8 rest
  | '0' :: 'b' :: rest => based? 2 rest
  | cs => do
    let (negative, cs) := signed cs
    let n := Text.valueOf (← decimal? cs)
    int64? (if negative then -n else n)

/-- The characters of a group of digits. -/
def isGrouped (c : Char) : Bool := c.isDigit || c == '_'

/-- The digits after a point, if there is one, and what follows them. -/
def fraction? : List Char → Option (List Char × List Char)
  | '.' :: rest => (ungrouped? Char.isDigit (rest.takeWhile isGrouped)).map fun ds =>
    (ds, rest.dropWhile isGrouped)
  | cs => some ([], cs)

/-- The exponent at the end, if there is one. -/
def exponent? : List Char → Option Int
  | [] => some 0
  | e :: rest => do
    let (negative, cs) := signed rest
    let n := Text.valueOf (← ungrouped? Char.isDigit cs)
    if e = 'e' ∨ e = 'E' then some (if negative then -n else n) else none

/-- The size of a float in digits. -/
def magnitude? (cs : List Char) : Option Float := do
  let whole ← decimal? (cs.takeWhile isGrouped)
  let rest := cs.dropWhile isGrouped
  let (fraction, rest') ← fraction? rest
  let exponent ← exponent? rest'
  if rest.isEmpty then none
  else some (Decimal.nearest (Text.valueOf (whole ++ fraction)) (exponent - fraction.length))

/-- A float. -/
def float? (cs : List Char) : Option Float :=
  let (negative, cs) := signed cs
  let toward (x : Float) : Float := if negative then -x else x
  if cs = ['i', 'n', 'f'] then some (toward (1.0 / 0.0))
  else if cs = ['n', 'a', 'n'] then some (toward (0.0 / 0.0))
  else do
    let x ← magnitude? cs
    if x.isInf ∧ !negative then none else some (toward x)

/-! ## 3. Dates and times -/

/-- A number of two digits up to a bound. -/
def isPair (low high : Nat) : List Char → Bool
  | [a, b] => a.isDigit && b.isDigit && low ≤ Text.valueOf [a, b] && Text.valueOf [a, b] ≤ high
  | _ => false

/-- A date. -/
def isDate (cs : List Char) : Bool :=
  match cs with
  | [a, b, c, d, '-', e, f, '-', g, h] =>
    [a, b, c, d].all Char.isDigit && isPair 1 12 [e, f] &&
      isPair 1 (Date.daysIn (Text.valueOf [a, b, c, d]) (Text.valueOf [e, f])) [g, h]
  | _ => false

/-- What follows a time of day, which has a fraction or not. -/
def afterTime? : List Char → Option (List Char)
  | a :: b :: ':' :: c :: d :: ':' :: e :: f :: rest =>
    if isPair 0 23 [a, b] && isPair 0 59 [c, d] && isPair 0 60 [e, f] then
      match rest with
      | '.' :: more =>
        if (more.takeWhile Char.isDigit).isEmpty then none else some (more.dropWhile Char.isDigit)
      | _ => some rest
    else none
  | _ => none

/-- The distance from UTC. -/
def isOffset : List Char → Bool
  | ['Z'] | ['z'] => true
  | [sign, a, b, ':', c, d] =>
    (sign == '+' || sign == '-') && isPair 0 23 [a, b] && isPair 0 59 [c, d]
  | _ => false

/-- A time of day with or without its distance from UTC. -/
def isZonedTime (cs : List Char) : Bool :=
  match afterTime? cs with
  | some rest => rest.isEmpty || isOffset rest
  | none => false

/-- A date, a time of day, or both. -/
def isMoment (cs : List Char) : Bool :=
  isDate cs || afterTime? cs == some [] ||
    match cs.drop 10 with
    | mark :: rest =>
      isDate (cs.take 10) && (mark == 'T' || mark == 't' || mark == ' ') && isZonedTime rest
    | [] => false

/-! ## 4. Words -/

/-- The value that a word stands for. -/
def ofWord? (cs : List Char) : Option Toml :=
  if cs = ['t', 'r', 'u', 'e'] then some (.bool true)
  else if cs = ['f', 'a', 'l', 's', 'e'] then some (.bool false)
  else if isMoment cs then some .moment
  else match integer? cs with
    | some n => some (.integer n)
    | none => (float? cs).map .float

/-- The word at the front of a text and what follows it; a date goes on over one blank to its
time. -/
def word (cs : List Char) : List Char × List Char :=
  let w := cs.takeWhile isWord
  match cs.dropWhile isWord with
  | ' ' :: rest =>
    let time := rest.takeWhile isWord
    if isDate w && isZonedTime time then (w ++ ' ' :: time, rest.dropWhile isWord)
    else (w, ' ' :: rest)
  | rest => (w, rest)

/-- The value at the front of a text and what follows it. -/
def value? (cs : List Char) : Option (Toml × List Char) :=
  let (w, rest) := word cs
  (ofWord? w).map fun v => (v, rest)

end TaskReplay.Toml.Scalar
