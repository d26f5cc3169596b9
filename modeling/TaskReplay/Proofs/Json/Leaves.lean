import TaskReplay.Proofs.Json.RoundTrip

/-!
# Numbers are read back as they were written

* `uint64?_ofNat`, `uint32?_ofNat`, `int32?_ofInt` -- **a machine integer comes back**, and its
  numeral is legible;
* `ExactSingle` -- printing and parsing a single loses nothing; whether that is so is a question of
  two roundings, which nothing here answers;
* `Legible.ofFloat32` -- the numeral of such a single is legible, since the digits of a written
  number are digits (`allDigits_ofBits?`).
-/

namespace TaskReplay.Json

/-! ## 1. Whole numbers -/

theorem number?_ofNat {n : Nat} (fits : n ≤ Width.maxUInt64) :
    number? (ofNat n) = some (.natural n.toUInt64) := by
  simp [number?, ofNat, Numeral.number?, fits]

theorem int?_ofNat {n : Nat} {high : Int} (fits : n ≤ Width.maxUInt64) (within : n ≤ high) :
    int? 0 high (ofNat n) = some (n : Int) := by
  have same : n.toUInt64.toNat = n := UInt64.toNat_ofNat_of_lt' (Nat.lt_succ_of_le fits)
  simp [int?, number?_ofNat fits, Number.toInt?, same, within]

/-- A whole number of 64 bits comes back. -/
theorem uint64?_ofNat (n : UInt64) : uint64? (ofNat n.toNat) = some n := by
  have fits : n.toNat ≤ Width.maxUInt64 := Nat.le_of_lt_succ n.toNat_lt
  rw [uint64?, int?_ofNat fits (Int.ofNat_le.2 fits)]
  simp

theorem uint32_le_maxUInt64 (n : UInt32) : n.toNat ≤ Width.maxUInt64 :=
  Nat.le_of_lt_succ (Nat.lt_of_lt_of_le n.toNat_lt (by decide))

/-- A whole number of 32 bits without sign comes back. -/
theorem uint32?_ofNat (n : UInt32) : uint32? (ofNat n.toNat) = some n := by
  have within : n.toNat ≤ Width.maxUInt32 := Nat.le_of_lt_succ n.toNat_lt
  rw [uint32?, int?_ofNat (uint32_le_maxUInt64 n) (Int.ofNat_le.2 within)]
  simp

theorem ofInt_ofNat (n : Nat) : ofInt n = ofNat n := by simp [ofInt, ofNat]

theorem number?_ofInt_neg {n : Int} (negative : n < 0) (fits : Width.minInt64 ≤ n) :
    number? (ofInt n) = some (.negative (Int64.ofInt n)) := by
  have low : Width.minInt64 = -9223372036854775808 := rfl
  have small : n.natAbs ≤ Width.maxUInt64 := by
    have top : Width.maxUInt64 = 18446744073709551615 := rfl
    omega
  have same : -(n.natAbs : Int) = n := by omega
  have inRange : ¬(n.natAbs = 0 ∨ n < Width.minInt64) := by omega
  simp only [number?, ofInt, Numeral.number?, List.isEmpty_nil, Option.isNone_none, Bool.and_self,
    small, negative, same, inRange, decide_true, Bool.not_true, Bool.false_eq_true,
    ↓reduceIte]

/-- A whole number of 32 bits with sign comes back. -/
theorem int32?_ofInt (n : Int32) : int32? (ofInt n.toInt) = some n := by
  have low : Width.minInt32 ≤ n.toInt := n.le_toInt
  have high : n.toInt ≤ Width.maxInt32 := Int.le_of_lt_add_one n.toInt_lt
  by_cases negative : n.toInt < 0
  · have fits : Width.minInt64 ≤ n.toInt := Int.le_trans (by decide) low
    simp [int32?, int?, number?_ofInt_neg negative fits, Number.toInt?, low, high]
  · obtain ⟨k, same⟩ := Int.eq_ofNat_of_zero_le (Int.not_lt.1 negative)
    rw [same] at low high
    have fits : k ≤ Width.maxUInt64 := Int.ofNat_le.1 (Int.le_trans high (by decide))
    have word : k.toUInt64.toNat = k := UInt64.toNat_ofNat_of_lt' (Nat.lt_succ_of_le fits)
    have back : Int32.ofInt (k : Int) = n := by rw [← same, Int32.ofInt_toInt]
    simp [int32?, int?, same, ofInt_ofNat, number?_ofNat fits, Number.toInt?, word, low, high, back]

namespace Legible

theorem ofNat {n : Nat} (fits : n ≤ Width.maxUInt64) : Legible (ofNat n) :=
  number (List.forall_mem_nil _) (Option.isSome_of_eq_some (number?_ofNat fits))

theorem ofInt (n : Int32) : Legible (ofInt n.toInt) := by
  have read := int32?_ofInt n
  have inRange : (number? (Json.ofInt n.toInt)).isSome = true := by
    cases found : number? (Json.ofInt n.toInt) with
    | some _ => rfl
    | none => simp [int32?, int?, found] at read
  exact number (List.forall_mem_nil _) inRange

end Legible

/-! ## 2. Singles -/

/-- All digits of a list are below ten. -/
def AllDigits (ds : List Nat) : Prop := ∀ d ∈ ds, d < 10

theorem allDigits_significant (n : Nat) : AllDigits (Decimal.significant n) := by
  intro d hd
  have kept := (List.dropWhile_sublist _).mem (List.mem_reverse.1 hd)
  obtain ⟨c, hc, rfl⟩ := List.mem_map.1 (List.mem_reverse.1 kept)
  have digit := Nat.isDigit_of_mem_toDigits (by decide) (by decide) hc
  have upper : c.toNat ≤ '9'.toNat := (Char.isDigit_iff_toNat.1 digit).2
  change c.toNat - 48 < 10
  change c.toNat ≤ 57 at upper
  omega

/-- However the search for the shortest digits ends, it ends with digits. -/
theorem allDigits_search (i : Decimal.Interval) (tie : Decimal.Tie) (magnitude : Int)
    (left count : Nat) : AllDigits (Decimal.search i tie magnitude left count).digits := by
  induction left generalizing count with
  | zero => exact allDigits_significant _
  | succ left ih =>
    rw [Decimal.search]
    split
    · exact allDigits_significant _
    · exact ih (count + 1)

/-- The fraction of a written number consists of digits. -/
theorem allDigits_ofDigits (negative : Bool) {d : Decimal.Digits} (proper : AllDigits d.digits) :
    AllDigits (Numeral.ofDigits negative d).fraction := by
  have dropped (n : Nat) : AllDigits (d.digits.drop n) :=
    fun x hx => proper x (List.mem_of_mem_drop hx)
  have zero : AllDigits [0] := List.forall_mem_singleton.2 (by decide)
  have zeros (n : Nat) : AllDigits (List.replicate n 0) := fun x hx => by
    rw [List.eq_of_mem_replicate hx]
    decide
  unfold Numeral.ofDigits
  simp only
  split
  · split
    · exact List.forall_mem_append.2 ⟨zeros _, proper⟩
    · simp only
      split
      · exact zero
      · exact dropped _
  · exact dropped _

theorem allDigits_ofBits? {e f bits : Nat} {n : Numeral}
    (written : Numeral.ofBits? e f bits = some n) : AllDigits n.fraction := by
  unfold Numeral.ofBits? at written
  simp only at written
  split at written
  · cases written
  · cases written
  · obtain rfl := Option.some.inj written
    exact List.forall_mem_singleton.2 (by decide)
  · obtain rfl := Option.some.inj written
    exact allDigits_ofDigits _ (allDigits_search _ _ _ _ _)

/-- A single is printed and parsed without loss. -/
def ExactSingle (c : Float32) : Prop := float32? (ofFloat32 c) = some c

/-- What comes back was legible. -/
theorem Legible.ofFloat32 {c : Float32} (exact : ExactSingle c) : Legible (ofFloat32 c) := by
  unfold ExactSingle at exact
  unfold Json.ofFloat32 at exact ⊢
  split at exact
  · next n written =>
    have inRange : n.number?.isSome = true := by
      cases found : n.number? with
      | some _ => rfl
      | none => simp [float32?, number?, found] at exact
    exact number (allDigits_ofBits? written) inRange
  · cases exact

end TaskReplay.Json
