import Mathlib.Algebra.Group.Nat.Defs
import TaskReplay.Time.Rfc3339

/-!
# Instants written and read back

An instant is written with as many digits as its year and its fraction need, and read with every field
at its full width:

* `Written` -- so many digits that write a number; `written_padded` -- a number with zeros in front
  is written so;
* `fraction?_fractionText` -- a fraction of 0, 3, 6 or 9 digits is the number it was written for;
* `FourDigit` -- the instants whose year has four digits; `strict?_textIn`, `strict?_textIn_far` --
  **such an instant is read back, and any other is not read at all**.
-/

namespace TaskReplay.Timestamp

/-! ## 1. Digits -/

/-- So many digits that write a number. -/
structure Written (width n : Nat) (ds : List Char) : Prop where
  length : ds.length = width
  digits : ∀ c ∈ ds, c.isDigit = true
  value : Text.valueOf ds = n

variable {width n : Nat} {ds : List Char}

theorem valueOf_eq_ofDigitChars (ds : List Char) : Text.valueOf ds = Nat.ofDigitChars 10 ds 0 := by
  simp only [Text.valueOf, Nat.ofDigitChars_eq_foldl, Nat.mul_comm]

theorem toList_zeros (k : Nat) :
    (String.join (List.replicate k "0")).toList = List.replicate k '0' := by
  induction k with
  | zero => rfl
  | succ k ih => simp [List.replicate_succ, String.join_cons, ih]

theorem toList_padded (width n : Nat) : (padded width n).toList =
    List.replicate (width - (Nat.toDigits 10 n).length) '0' ++ Nat.toDigits 10 n := by
  simp only [padded, String.toList_append, toList_zeros, Nat.toString_eq_ofList_toDigits,
    String.length_ofList, String.toList_ofList]

theorem written_padded (positive : 0 < width) (small : n < 10 ^ width) :
    Written width n (padded width n).toList := by
  have short : (Nat.toDigits 10 n).length ≤ width :=
    (Nat.length_toDigits_le_iff (by decide) positive).mpr small
  rw [toList_padded]
  refine ⟨by simp; omega, fun c hc => ?_, ?_⟩
  · rcases List.mem_append.mp hc with zero | digit
    · rw [List.eq_of_mem_replicate zero]
      decide
    · exact Nat.isDigit_of_mem_toDigits (by decide) (by decide) digit
  · simp [valueOf_eq_ofDigitChars, Nat.ofDigitChars_append]

theorem takeWhile_digits (digits : ∀ c ∈ ds, c.isDigit = true) (rest : List Char) :
    (ds ++ rest).takeWhile Char.isDigit = ds ++ rest.takeWhile Char.isDigit := by
  rw [List.takeWhile_append_of_pos digits]

theorem digitsOf?_written (h : Written width n ds) (rest : List Char) :
    digitsOf? width (ds ++ rest) = some (n, rest) := by
  have front : (ds ++ rest).take width = ds := by rw [← h.length, List.take_left]
  have back : (ds ++ rest).drop width = rest := by rw [← h.length, List.drop_left]
  have all : ds.takeWhile Char.isDigit = ds := by simpa using takeWhile_digits h.digits []
  simp [digitsOf?, front, back, all, h.length, h.value]

/-! ## 2. Fractions -/

/-- The digits of a fraction end where no further digit stands. -/
theorem fraction?_written (h : Written width n ds) (positive : 0 < width) (most : width ≤ 9)
    {c : Char} (stop : c.isDigit = false) (rest : List Char) :
    fraction? ('.' :: (ds ++ c :: rest)) = some (n * 10 ^ (9 - width), c :: rest) := by
  have front : ((ds ++ c :: rest).take 9).takeWhile Char.isDigit = ds := by
    have within : ds.length ≤ 9 := h.length ▸ most
    rw [List.take_append, List.take_of_length_le within, takeWhile_digits h.digits]
    cases 9 - ds.length <;> simp [stop]
  have some : ds ≠ [] := List.length_pos_iff.mp (h.length ▸ positive)
  simp [fraction?, front, some, h.value, h.length, stop]

/-- What stands behind an instant: no offset. -/
def zone : List Char := "+00:00".toList

theorem fraction?_padded (positive : 0 < width) (most : width ≤ 9) (small : n < 10 ^ width) :
    fraction? (("." ++ padded width n).toList ++ zone) = some (n * 10 ^ (9 - width), zone) := by
  rw [String.toList_append]
  exact fraction?_written (written_padded positive small) positive most rfl _

theorem fraction?_fractionText (small : n < 1000000000) :
    fraction? ((fractionText n).toList ++ zone) = some (n, zone) := by
  unfold fractionText
  split
  · next none => rw [none]; rfl
  split
  · next thousands =>
    rw [fraction?_padded (by decide) (by decide) (by omega)]
    congr 2
    omega
  split
  · next thousands =>
    rw [fraction?_padded (by decide) (by decide) (by omega)]
    congr 2
    omega
  · rw [fraction?_padded (by decide) (by decide) small]
    simp

/-! ## 3. Instants -/

/-- The instant lies in a year of four digits. -/
def FourDigit (t : Timestamp) : Prop := 0 ≤ t.date.year ∧ t.date.year ≤ 9999

instance (t : Timestamp) : Decidable t.FourDigit := inferInstanceAs (Decidable (_ ∧ _))

theorem daysIn_le (year : Int) (month : Nat) : Date.daysIn year month ≤ 31 := by
  unfold Date.daysIn
  split
  · split <;> decide
  · split <;> decide

theorem two_digits_of_valid {d : Date} (h : d.valid = true) : d.month < 100 ∧ d.day < 100 := by
  have most := daysIn_le d.year d.month
  simp only [Date.valid, Bool.and_eq_true, decide_eq_true_eq] at h
  omega

theorem earlier_zero (date : Date) {second : Nat} (h : second < 86400) :
    earlier date second 0 = (date, second) := by
  have day : ¬ (second : Int) < 0 := Int.not_lt.mpr (Int.natCast_nonneg _)
  have early : (second : Int) < 86400 := by omega
  rw [earlier, Int.sub_zero, if_neg day, if_pos early, Int.toNat_natCast]

/-- A local date and time that exist are an instant if the same date and time in UTC are one. -/
theorem ofLocal?_eq {date : Date} {hour minute second nanos : Nat} {offset : Int}
    {u : Date × Nat} (valid : date.valid = true) (h : hour < 24) (m : minute < 60)
    (s : second ≤ 60) (o : offset.natAbs < 86400)
    (moved : earlier date (hour * 3600 + minute * 60 + if second = 60 then 59 else second) offset =
      u) :
    ofLocal? date hour minute second nanos offset =
      make? u.1 u.2 (nanos + if second = 60 then 1000000000 else 0) := by
  have real : (date.valid && hour < 24 && minute < 60 && second ≤ 60 && offset.natAbs < 86400) =
      true := by simp [valid, h, m, s, o]
  rw [ofLocal?, if_pos real]
  extract_lets leap
  rw [moved]

/-- The local date and time of an instant, without an offset, is that instant. -/
theorem ofLocal?_self (t : Timestamp) :
    ofLocal? t.date (t.second / 3600) (t.second / 60 % 60)
      (t.second % 60 + if 1000000000 ≤ t.nanos then 1 else 0)
      (if 1000000000 ≤ t.nanos then t.nanos - 1000000000 else t.nanos) 0 = some t := by
  obtain ⟨valid, day, fraction⟩ := t.isInstant
  have hour : t.second / 3600 < 24 := by omega
  have minute : t.second / 60 % 60 < 60 := Nat.mod_lt _ (by decide)
  have parts : t.second / 3600 * 3600 + t.second / 60 % 60 * 60 + t.second % 60 = t.second := by
    omega
  by_cases late : 1000000000 ≤ t.nanos
  · have last : t.second % 60 = 59 := by omega
    rw [last] at parts
    rw [if_pos late, if_pos late, last, ofLocal?_eq (u := (t.date, t.second)) valid hour minute
      (by decide) (by decide) (by rw [if_pos rfl, parts, earlier_zero t.date day]),
      if_pos rfl, Nat.sub_add_cancel late, make?_self]
  · have usual : t.second % 60 ≠ 60 := by omega
    rw [if_neg late, if_neg late, Nat.add_zero, ofLocal?_eq (u := (t.date, t.second)) valid hour
      minute (by omega) (by decide) (by rw [if_neg usual, parts, earlier_zero t.date day]),
      if_neg usual, Nat.add_zero, make?_self]

/-- Fields of full width with their marks between them read as a local date and time. -/
theorem strict?_written {text : String} {year month day hour minute second nanos : Nat}
    {ys ms ds hs ns ss fs : List Char} (hy : Written 4 year ys) (hm : Written 2 month ms)
    (hd : Written 2 day ds) (hh : Written 2 hour hs) (hn : Written 2 minute ns)
    (hs' : Written 2 second ss) (hf : fraction? (fs ++ zone) = some (nanos, zone))
    (parts : text.toList = ys ++ '-' :: (ms ++ '-' :: (ds ++ 'T' :: (hs ++ ':' :: (ns ++ ':' ::
      (ss ++ (fs ++ zone))))))) :
    strict? text = ofLocal? ⟨year, month, day⟩ hour minute second nanos 0 := by
  have offset : offset? (expect? ':') zone = some (0, []) := by decide
  simp [strict?, parts, digitsOf?_written hy, digitsOf?_written hm, digitsOf?_written hd,
    digitsOf?_written hh, digitsOf?_written hn, digitsOf?_written hs', hf, offset, expect?, mark?]

/-- **An instant of a year of four digits is read back.** -/
theorem strict?_textIn {t : Timestamp} (year : t.FourDigit) :
    strict? (t.textIn "+00:00") = some t := by
  obtain ⟨valid, late, fraction⟩ := t.isInstant
  obtain ⟨month, day⟩ := two_digits_of_valid valid
  have second : (t.second % 60 + if 1000000000 ≤ t.nanos then 1 else 0) < 10 ^ 2 := by
    split <;> omega
  have nanos : (if 1000000000 ≤ t.nanos then t.nanos - 1000000000 else t.nanos) < 1000000000 := by
    split <;> omega
  have four : t.date.year.toNat < 10 ^ 4 := by unfold FourDigit at year; omega
  have date : (⟨t.date.year.toNat, t.date.month, t.date.day⟩ : Date) = t.date := by
    rw [Int.toNat_of_nonneg year.1]
  rw [strict?_written (written_padded (by decide) four) (written_padded (by decide) month)
    (written_padded (by decide) day)
    (written_padded (n := t.second / 3600) (by decide) (by omega))
    (written_padded (n := t.second / 60 % 60) (by decide) (by omega))
    (written_padded (by decide) second) (fraction?_fractionText nanos), date, ofLocal?_self]
  have years : yearText t.date.year = padded 4 t.date.year.toNat := if_pos year
  simp [textIn, years, zone]

/-- **An instant of any other year is not read**: its year has a sign. -/
theorem strict?_textIn_far {t : Timestamp} (year : ¬ t.FourDigit) (zone : String) :
    strict? (t.textIn zone) = none := by
  have years : yearText t.date.year =
      (if t.date.year < 0 then "-" else "+") ++ padded 4 t.date.year.natAbs := if_neg year
  obtain ⟨sign, rest, noDigit, front⟩ : ∃ sign rest, sign.isDigit = false ∧
      (t.textIn zone).toList = sign :: rest := by
    simp only [textIn, years, String.toList_append, List.append_assoc]
    split
    · exact ⟨'-', _, rfl, rfl⟩
    · exact ⟨'+', _, rfl, rfl⟩
  simp [strict?, front, digitsOf?, noDigit]

end TaskReplay.Timestamp
