import TaskReplay.Json.Decode
import TaskReplay.Text.Blank
import TaskReplay.Text.Digits
import TaskReplay.Time.Timestamp

/-!
Reading instants from RFC 3339 text.

What this file fixes:
* `strict?` wants every field at its full width;
* `relaxed?` is what documents may hold: short fields, blanks between the parts, years of any length
  with a sign, and `UTC` for the zone;
* both give the instant in UTC, so two texts of one instant read the same.
-/

namespace TaskReplay.Timestamp

/-! ## 1. Parts -/

/-- The rest of a text after blanks. -/
def skipBlanks (cs : List Char) : List Char := cs.dropWhile Text.isBlank

/-- The digits at the front, at most `most` of them, as a number; at least one is needed. -/
def digitsUpTo? (most : Nat) (cs : List Char) : Option (Nat × List Char) :=
  let ds := (cs.take most).takeWhile Char.isDigit
  if ds.isEmpty then none else some (Text.valueOf ds, cs.drop ds.length)

/-- Exactly `count` digits as a number. -/
def digitsOf? (count : Nat) (cs : List Char) : Option (Nat × List Char) :=
  let ds := (cs.take count).takeWhile Char.isDigit
  if ds.length = count then some (Text.valueOf ds, cs.drop count) else none

/-- The rest after one character. -/
def expect? (c : Char) : List Char → Option (List Char)
  | d :: rest => if d = c then some rest else none
  | [] => none

/-- The rest after one character that may have blanks before it. -/
def expectSpaced? (c : Char) (cs : List Char) : Option (List Char) := expect? c (skipBlanks cs)

/-- The rest after the mark between date and time. -/
def mark? : List Char → Option (List Char)
  | 'T' :: rest | 't' :: rest | ' ' :: rest => some rest
  | _ => none

/-- A fraction of a second in nanoseconds, if there is one: digits after the ninth are dropped. -/
def fraction? : List Char → Option (Nat × List Char)
  | '.' :: rest =>
    let ds := (rest.take 9).takeWhile Char.isDigit
    if ds.isEmpty then none
    else
      some (Text.valueOf ds * Nat.pow 10 (9 - ds.length),
        (rest.drop ds.length).dropWhile Char.isDigit)
  | cs => some (0, cs)

/-- The offset of a time zone in seconds; `separated?` passes over what stands between hours and
minutes. -/
def offset? (separated? : List Char → Option (List Char)) : List Char → Option (Int × List Char)
  | 'Z' :: rest | 'z' :: rest => some (0, rest)
  | sign :: rest => do
    let negative ← if sign = '+' then some false
      else if sign = '-' ∨ sign = '−' then some true
      else none
    let (hours, rest) ← digitsOf? 2 rest
    let rest ← separated? rest
    let (minutes, rest) ← digitsOf? 2 rest
    if minutes < 60 then
      let seconds : Int := hours * 3600 + minutes * 60
      some (if negative then -seconds else seconds, rest)
    else none
  | [] => none

/-- The instant of a local date and time under an offset. -/
def ofLocal? (date : Date) (hour minute second nanos : Nat) (offset : Int) : Option Timestamp :=
  if date.valid && hour < 24 && minute < 60 && second ≤ 60 && offset.natAbs < 86400 then
    let leap := second = 60
    let (date, secondOfDay) :=
      earlier date (hour * 3600 + minute * 60 + (if leap then 59 else second)) offset
    make? date secondOfDay (nanos + if leap then 1000000000 else 0)
  else none

/-! ## 2. The two grammars -/

/-- Full-width fields only. -/
def strict? (text : String) : Option Timestamp := do
  let (year, cs) ← digitsOf? 4 text.toList
  let (month, cs) ← digitsOf? 2 (← expect? '-' cs)
  let (day, cs) ← digitsOf? 2 (← expect? '-' cs)
  let (hour, cs) ← digitsOf? 2 (← mark? cs)
  let (minute, cs) ← digitsOf? 2 (← expect? ':' cs)
  let (second, cs) ← digitsOf? 2 (← expect? ':' cs)
  let (nanos, cs) ← fraction? cs
  let (offset, cs) ← offset? (expect? ':') cs
  if cs.isEmpty then ofLocal? ⟨year, month, day⟩ hour minute second nanos offset else none

/-- A year: up to four digits, or a sign and a number of 64 bits. -/
def year? (cs : List Char) : Option (Int × List Char) :=
  let signed (negative : Bool) (rest : List Char) : Option (Int × List Char) := do
    let (n, rest) ← digitsUpTo? rest.length rest
    if n ≤ Width.maxInt64 then some (if negative then -n else n, rest) else none
  match skipBlanks cs with
  | '-' :: rest => signed true rest
  | '+' :: rest => signed false rest
  | cs => (digitsUpTo? 4 cs).map fun (n, rest) => (n, rest)

/-- A field of one or two digits that may have blanks before it. -/
def field? (cs : List Char) : Option (Nat × List Char) := digitsUpTo? 2 (skipBlanks cs)

/-- The zone of a relaxed text. -/
def zone? (cs : List Char) : Option (Int × List Char) :=
  match skipBlanks cs with
  | [a, b, c] => if isUtc a b c then some (0, []) else offset? gap [a, b, c]
  | a :: b :: c :: rest => if isUtc a b c then some (0, rest) else offset? gap (a :: b :: c :: rest)
  | cs => offset? gap cs
where
  isUtc (a b c : Char) : Bool := a.toUpper == 'U' && b.toUpper == 'T' && c.toUpper == 'C'
  gap (cs : List Char) : Option (List Char) :=
    some (cs.dropWhile fun c => c == ':' || Text.isBlank c)

/-- Short fields and blanks allowed. -/
def relaxed? (text : String) : Option Timestamp := do
  let (year, cs) ← year? text.toList
  let (month, cs) ← field? (← expectSpaced? '-' cs)
  let (day, cs) ← field? (← expectSpaced? '-' cs)
  let (hour, cs) ← field? (← mark? cs)
  let (minute, cs) ← field? (← expectSpaced? ':' cs)
  let (second, cs) ← field? (← expectSpaced? ':' cs)
  let (nanos, cs) ← fraction? cs
  let (offset, cs) ← zone? cs
  if (skipBlanks cs).isEmpty then ofLocal? ⟨year, month, day⟩ hour minute second nanos offset
  else none

/-! ## 3. Documents -/

/-- An instant in a document. -/
def ofJson? (v : Json) : Option Timestamp := v.text?.bind relaxed?

/-- An instant as it stands in documents. -/
def toJson (t : Timestamp) : Json := .string t.text

end TaskReplay.Timestamp
