/-!
Instants of the proleptic Gregorian calendar in UTC.

What this file fixes:
* a `Timestamp` is a calendar date, a second of the day and nanoseconds; a leap second is second 59
  with a thousand million nanoseconds more;
* `earlier` moves by a clock offset of less than a day, over month and year ends;
* `text` writes the fewest of 0, 3, 6 or 9 fraction digits that are exact.
-/

namespace TaskReplay

/-! ## 1. Dates -/

/-- A calendar date. -/
structure Date where
  year : Int
  month : Nat
  day : Nat
  deriving DecidableEq, Repr

namespace Date

/-- Every fourth year is a leap year, of full centuries every fourth. -/
def isLeapYear (year : Int) : Bool := year % 4 == 0 && (year % 100 != 0 || year % 400 == 0)

/-- The number of days in a month. -/
def daysIn (year : Int) (month : Nat) : Nat :=
  if month = 2 then (if isLeapYear year then 29 else 28)
  else if month = 4 ∨ month = 6 ∨ month = 9 ∨ month = 11 then 30
  else 31

/-- The years that instants may have. -/
def minYear : Int := -262143

/-- The years that instants may have. -/
def maxYear : Int := 262142

/-- A date that exists within the supported years. -/
def valid (d : Date) : Bool :=
  minYear ≤ d.year && d.year ≤ maxYear && 1 ≤ d.month && d.month ≤ 12 && 1 ≤ d.day &&
    d.day ≤ daysIn d.year d.month

/-- The day after. -/
def next (d : Date) : Date :=
  if d.day < daysIn d.year d.month then { d with day := d.day + 1 }
  else if d.month < 12 then ⟨d.year, d.month + 1, 1⟩
  else ⟨d.year + 1, 1, 1⟩

/-- The day before. -/
def previous (d : Date) : Date :=
  if 1 < d.day then { d with day := d.day - 1 }
  else if 1 < d.month then ⟨d.year, d.month - 1, daysIn d.year (d.month - 1)⟩
  else ⟨d.year - 1, 12, 31⟩

/-- The day that comes `days` after the first of January 1970. Years are counted from March, so that
the day that leap years add is the last; 400 years have 146097 days. -/
def ofDays (days : Nat) : Date :=
  let day := (days + 719468) % 146097
  let year := (day - day / 1460 + day / 36524 - day / 146096) / 365
  let dayOfYear := day - (365 * year + year / 4 - year / 100)
  let march := (5 * dayOfYear + 2) / 153
  let month := if march < 10 then march + 3 else march - 9
  let since := year + 400 * ((days + 719468) / 146097)
  ⟨if month ≤ 2 then since + 1 else since, month, dayOfYear - (153 * march + 2) / 5 + 1⟩

example : ofDays 0 = ⟨1970, 1, 1⟩ ∧ ofDays 11016 = ⟨2000, 2, 29⟩ ∧ ofDays 11017 = ⟨2000, 3, 1⟩ := by
  decide

end Date

/-! ## 2. Instants -/

/-- What makes a date, a second of the day and nanoseconds an instant: the date exists, and only the
last second of a minute may be a leap second. -/
def IsInstant (date : Date) (second nanos : Nat) : Prop :=
  date.valid = true ∧ second < 86400 ∧
    (nanos < 1000000000 ∨ second % 60 = 59 ∧ nanos < 2000000000)

instance (date : Date) (second nanos : Nat) : Decidable (IsInstant date second nanos) :=
  inferInstanceAs (Decidable (_ ∧ _))

/-- An instant in UTC. -/
structure Timestamp where
  date : Date
  second : Nat
  nanos : Nat
  isInstant : IsInstant date second nanos := by decide
  deriving DecidableEq, Repr

namespace Timestamp

/-- The instant of a date, a second of the day and nanoseconds, if there is one. -/
def make? (date : Date) (second nanos : Nat) : Option Timestamp :=
  if h : IsInstant date second nanos then some ⟨date, second, nanos, h⟩ else none

theorem make?_self (t : Timestamp) : make? t.date t.second t.nanos = some t := by
  simp [make?, t.isInstant]

/-- The date and the second of the day `seconds` earlier, for less than a day in either
direction. -/
def earlier (date : Date) (second : Nat) (seconds : Int) : Date × Nat :=
  let s : Int := second - seconds
  if s < 0 then (date.previous, (s + 86400).toNat)
  else if s < 86400 then (date, s.toNat)
  else (date.next, (s - 86400).toNat)

/-- The beginning of 1970. -/
def epoch : Timestamp := ⟨⟨1970, 1, 1⟩, 0, 0, by decide⟩

instance : Inhabited Timestamp := ⟨epoch⟩

/-- The instant so many seconds and nanoseconds after the beginning of 1970; that beginning itself
if the nanoseconds are no fraction of a second or the year is out of range. -/
def ofUnix (seconds nanos : Nat) : Timestamp :=
  (make? (.ofDays (seconds / 86400)) (seconds % 86400) nanos).getD epoch

/-! ## 3. Text -/

/-- A number with zeros in front up to a width. -/
def padded (width n : Nat) : String :=
  let digits := toString n
  String.join (List.replicate (width - digits.length) "0") ++ digits

/-- Years outside four digits have a sign. -/
def yearText (year : Int) : String :=
  if 0 ≤ year ∧ year ≤ 9999 then padded 4 year.toNat
  else (if year < 0 then "-" else "+") ++ padded 4 year.natAbs

/-- The fraction of a second. -/
def fractionText (nanos : Nat) : String :=
  if nanos = 0 then ""
  else if nanos % 1000000 = 0 then "." ++ padded 3 (nanos / 1000000)
  else if nanos % 1000 = 0 then "." ++ padded 6 (nanos / 1000)
  else "." ++ padded 9 nanos

/-- Date and time of day, with `zone` as the name of the time zone. -/
def textIn (zone : String) (t : Timestamp) : String :=
  let leap := 1000000000 ≤ t.nanos
  let second := t.second % 60 + if leap then 1 else 0
  let nanos := if leap then t.nanos - 1000000000 else t.nanos
  yearText t.date.year ++ "-" ++ padded 2 t.date.month ++ "-" ++ padded 2 t.date.day ++ "T" ++
    padded 2 (t.second / 3600) ++ ":" ++ padded 2 (t.second / 60 % 60) ++ ":" ++
    padded 2 second ++ fractionText nanos ++ zone

/-- The text in documents. -/
def text (t : Timestamp) : String := t.textIn "Z"

end Timestamp
end TaskReplay
