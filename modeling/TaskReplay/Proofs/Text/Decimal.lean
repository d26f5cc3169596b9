import Mathlib.Data.List.Basic
import Mathlib.Data.List.Induction
import TaskReplay.Proofs.Time.RoundTrip

/-!
# Plain decimal text

* `Writes` -- digits that write a number, without a zero in front that could be left out;
  `writes_iff` -- each number is written by one text, that of its digits;
* `exists_writes` -- any digits are zeros in front of those that write their number;
* `Plain` -- the same for whole numbers with a sign; `plain_iff` -- what `toString` gives is plain, and
  nothing else is; `Plain.unique` -- a text is plain for one number only.
-/

namespace TaskReplay.Text

/-! ## 1. Numbers without sign -/

/-- **Digits that write a number**: one at least, and no zero before another. -/
structure Writes (n : Nat) (ds : List Char) : Prop where
  some : ds ≠ []
  digits : ∀ c ∈ ds, c.isDigit = true
  lead : ds.head? = Option.some '0' → ds = ['0']
  value : valueOf ds = n

section Writes

variable {n m : Nat} {ds : List Char} {c : Char}

@[simp] theorem valueOf_singleton (c : Char) : valueOf [c] = c.toNat - '0'.toNat := by
  simp [valueOf]

theorem valueOf_concat (ds : List Char) (c : Char) :
    valueOf (ds ++ [c]) = 10 * valueOf ds + (c.toNat - '0'.toNat) := by
  rw [valueOf, List.foldl_append, ← valueOf, Nat.mul_comm 10]
  rfl

@[simp] theorem valueOf_zeros (k : Nat) (ds : List Char) :
    valueOf (List.replicate k '0' ++ ds) = valueOf ds := by
  rw [Timestamp.valueOf_eq_ofDigitChars, Nat.ofDigitChars_append, Nat.ofDigitChars_replicate_zero,
    Nat.mul_zero, ← Timestamp.valueOf_eq_ofDigitChars]

/-- A digit is the digit of its value. -/
theorem digitChar_value (digit : c.isDigit = true) : Nat.digitChar (c.toNat - '0'.toNat) = c := by
  obtain ⟨low, high⟩ := Char.isDigit_iff_toNat.mp digit
  have bounds : '0'.toNat = 48 ∧ '9'.toNat = 57 := ⟨rfl, rfl⟩
  rw [← Char.toNat_inj, Nat.toNat_digitChar_of_lt_ten (by omega)]
  omega

theorem toDigits_value (digit : c.isDigit = true) :
    Nat.toDigits 10 (c.toNat - '0'.toNat) = [c] := by
  have high : c.toNat ≤ '9'.toNat := (Char.isDigit_iff_toNat.mp digit).2
  have bounds : '0'.toNat = 48 ∧ '9'.toNat = 57 := ⟨rfl, rfl⟩
  rw [Nat.toDigits_of_lt_base (by omega), digitChar_value digit]

/-- The digits of a number begin with zero only if it is zero. -/
theorem eq_zero_of_head (h : (Nat.toDigits 10 n).head? = some '0') : n = 0 := by
  induction n using Nat.strongRecOn with
  | _ n ih =>
    by_cases small : n < 10
    · have each : ∀ m < 10, (Nat.toDigits 10 m).head? = some '0' → m = 0 := by decide
      exact each n small h
    · rw [Nat.toDigits_of_base_le (by decide) (Nat.le_of_not_lt small),
        List.head?_append_of_ne_nil _ Nat.toDigits_ne_nil] at h
      have := ih (n / 10) (by omega) h
      omega

theorem writes_toDigits (n : Nat) : Writes n (Nat.toDigits 10 n) where
  some := Nat.toDigits_ne_nil
  digits _ := Nat.isDigit_of_mem_toDigits (by decide) (by decide)
  lead head := by rw [eq_zero_of_head head, Nat.toDigits_zero]
  value := by rw [Timestamp.valueOf_eq_ofDigitChars, Nat.ofDigitChars_ten_toDigits]

/-- The digits before the last write a number of their own. -/
theorem Writes.init (h : Writes n (ds ++ [c])) (more : ds ≠ []) : Writes (valueOf ds) ds where
  some := more
  digits d hd := h.digits d (List.mem_append_left _ hd)
  lead head := by
    have whole := h.lead (by rw [List.head?_append_of_ne_nil _ more, head])
    have short := congrArg List.length whole
    rw [List.length_append] at short
    exact absurd (List.length_eq_zero_iff.mp (Nat.succ.inj short)) more
  value := rfl

theorem Writes.eq_toDigits (h : Writes n ds) : ds = Nat.toDigits 10 n := by
  -- from the last digit to the first: those before it write a tenth of the number
  induction ds using List.reverseRecOn generalizing n with
  | nil => exact absurd rfl h.some
  | append_singleton ds c ih =>
      have digit : c.isDigit = true := h.digits c (by simp)
      by_cases first : ds = []
      · subst first
        rw [← h.value, List.nil_append, valueOf_singleton, toDigits_value digit]
      · have earlier := ih (h.init first)
        have positive : 0 < valueOf ds := by
          refine Nat.pos_of_ne_zero fun zero => ?_
          rw [zero, Nat.toDigits_zero] at earlier
          have whole := h.lead (by rw [earlier]; rfl)
          rw [earlier] at whole
          cases whole
        have small : c.toNat - '0'.toNat < 10 := by
          have high : c.toNat ≤ '9'.toNat := (Char.isDigit_iff_toNat.mp digit).2
          have bounds : '0'.toNat = 48 ∧ '9'.toNat = 57 := ⟨rfl, rfl⟩
          omega
        calc
          ds ++ [c] = Nat.toDigits 10 (valueOf ds) ++ Nat.toDigits 10 (c.toNat - '0'.toNat) := by
            rw [← earlier, toDigits_value digit]
          _ = Nat.toDigits 10 (10 * valueOf ds + (c.toNat - '0'.toNat)) :=
            Nat.toDigits_append_toDigits (by decide) positive small
          _ = Nat.toDigits 10 n := by rw [← valueOf_concat, h.value]

/-- **Each number is written by one text.** -/
theorem writes_iff : Writes n ds ↔ ds = Nat.toDigits 10 n :=
  ⟨Writes.eq_toDigits, fun h => h ▸ writes_toDigits n⟩

/-- **Any digits** are zeros in front of those that write their number. -/
theorem exists_writes (some : ds ≠ []) (digits : ∀ c ∈ ds, c.isDigit = true) :
    ∃ zeros es, ds = List.replicate zeros '0' ++ es ∧ Writes (valueOf ds) es := by
  induction ds with
  | nil => exact absurd rfl some
  | cons c ds ih =>
      by_cases zero : c = '0' ∧ ds ≠ []
      · obtain ⟨rfl, more⟩ := zero
        obtain ⟨zeros, es, split, writes⟩ := ih more fun d hd => digits d (List.mem_cons_of_mem _ hd)
        refine ⟨zeros + 1, es, by rw [split]; rfl, ?_⟩
        rwa [← valueOf_zeros 1 ds] at writes
      · refine ⟨0, c :: ds, rfl, some, digits, fun head => ?_, rfl⟩
        obtain rfl : c = '0' := by simpa using head
        have alone : ds = [] := Classical.not_not.mp fun more => zero ⟨rfl, more⟩
        rw [alone]

end Writes

/-! ## 2. Numbers with a sign -/

/-- **The plain text of a whole number**: its digits, after a minus sign if it is below zero. -/
inductive Plain : Int → List Char → Prop where
  | natural {n : Nat} {ds : List Char} (writes : Writes n ds) : Plain n ds
  | negative {n : Nat} {ds : List Char} (positive : 0 < n) (writes : Writes n ds) :
      Plain (-n) ('-' :: ds)

section Plain

variable {i j : Int} {cs : List Char}

theorem toList_toString_natural (n : Nat) : (toString (n : Int)).toList = Nat.toDigits 10 n :=
  Nat.toList_repr

theorem toList_toString_negSucc (n : Nat) :
    (toString (Int.negSucc n)).toList = '-' :: Nat.toDigits 10 (n + 1) := by
  show ("-" ++ Nat.repr (n + 1)).toList = _
  rw [String.toList_append, Nat.toList_repr]
  rfl

theorem plain_toString (i : Int) : Plain i (toString i).toList := by
  cases i with
  | ofNat n =>
      rw [Int.ofNat_eq_natCast, toList_toString_natural]
      exact .natural (writes_toDigits n)
  | negSucc n =>
      rw [toList_toString_negSucc]
      exact .negative n.succ_pos (writes_toDigits (n + 1))

theorem Plain.eq_toString (h : Plain i cs) : cs = (toString i).toList := by
  cases h with
  | natural writes => rw [toList_toString_natural, writes.eq_toDigits]
  | negative positive writes =>
      obtain ⟨m, rfl⟩ := Nat.exists_eq_succ_of_ne_zero (Nat.ne_of_gt positive)
      rw [writes.eq_toDigits]
      exact (toList_toString_negSucc m).symm

/-- **Each whole number has one plain text.** -/
theorem plain_iff : Plain i cs ↔ cs = (toString i).toList :=
  ⟨Plain.eq_toString, fun h => h ▸ plain_toString i⟩

/-- A plain text is made of digits and minus signs. -/
theorem Plain.characters (h : Plain i cs) : ∀ c ∈ cs, c.isDigit = true ∨ c = '-' := by
  cases h with
  | natural writes => exact fun c hc => .inl (writes.digits c hc)
  | negative positive writes =>
      exact List.forall_mem_cons.mpr ⟨.inr rfl, fun c hc => .inl (writes.digits c hc)⟩

/-- **A text is plain for one number only.** -/
theorem Plain.unique (h : Plain i cs) (h' : Plain j cs) : i = j := by
  cases h with
  | natural writes =>
      cases h' with
      | natural writes' => rw [← writes.value, ← writes'.value]
      | negative positive' writes' => exact absurd (writes.digits '-' List.mem_cons_self) (by decide)
  | negative positive writes =>
      cases h' with
      | natural writes' => exact absurd (writes'.digits '-' List.mem_cons_self) (by decide)
      | negative positive' writes' => rw [← writes.value, ← writes'.value]

end Plain
end TaskReplay.Text
