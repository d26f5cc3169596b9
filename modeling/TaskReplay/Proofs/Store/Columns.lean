import Mathlib.Algebra.Group.Nat.Defs
import Mathlib.Tactic.ByContra
import TaskReplay.Store.Basic

/-!
# What a column gives back

A store keeps a task as texts and integers. What the columns for flags, counters and keys give back of
what was put there:

* `flag?_flag`, `counter?_counter` -- a flag comes back, a counter up to the largest value of its
  column (`capped`); `capped_of_counter?` -- one that came out of a column is not above it;
* `Uuid.ofText?_text` -- **the text of an identifier is read as that identifier**;
* `standing?_save`, `standing_of_find` -- a store shows what a saved task says, and **a task that was
  found has the identifier it was looked up by**.
-/

namespace TaskReplay

/-! ## 1. Identifiers -/

namespace Uuid

theorem digit?_hexChar (n : Nat) : Text.digit? 16 (hexChar n) = some (n % 16) := by
  have each : ∀ m < 16, Text.digit? 16 (Nat.digitChar m) = some m := by decide
  exact each _ (Nat.mod_lt n (by decide))

theorem length_hexDigits (count n : Nat) : (hexDigits count n).length = count := by
  induction count generalizing n with
  | zero => rfl
  | succ count ih => simp [hexDigits, ih]

/-- Hexadecimal digits write the number they are of, up to their count. -/
theorem value?_hexDigits (count n : Nat) :
    Text.value? 16 (hexDigits count n) = some (n % 16 ^ count) := by
  induction count generalizing n with
  | zero => simp [hexDigits, Text.value?, Nat.mod_one]
  | succ count ih =>
      have earlier := ih (n / 16)
      unfold Text.value? at earlier ⊢
      have split : n % 16 ^ (count + 1) = n / 16 % 16 ^ count * 16 + n % 16 := by
        rw [Nat.pow_succ', Nat.mod_mul]
        omega
      rw [hexDigits, List.foldlM_append, earlier, split]
      simp [digit?_hexChar]

theorem ofDigits?_hexDigits (id : Uuid) : ofDigits? (hexDigits 32 id.value.toNat) = some id := by
  have small : id.value.toNat < 16 ^ 32 := id.value.isLt
  rw [ofDigits?, value?_hexDigits, Nat.mod_eq_of_lt small]
  simp

/-- The hyphens of a text stand between its groups. -/
theorem hyphenated?_groups {a b c d e : List Char} (ha : a.length = 8) (hb : b.length = 4)
    (hc : c.length = 4) (hd : d.length = 4) (he : e.length = 12) :
    hyphenated? (a ++ '-' :: b ++ '-' :: c ++ '-' :: d ++ '-' :: e) =
      ofDigits? (a ++ b ++ c ++ d ++ e) := by
  simp [hyphenated?, List.drop_append, List.drop_of_length_le, List.replicate, ha, hb, hc, hd, he]

/-- What follows the first eight digits is no `urn:uuid:`. -/
theorem take_groups_ne_urn {a rest : List Char} (ha : a.length = 8) :
    ((a ++ '-' :: rest).take 9).map Char.toLower ≠ urn := by
  intro same
  have colon : urn[8]? = some ':' := by decide
  rw [← same] at colon
  simp [List.take_append, ha] at colon

/-- **The text of an identifier is read as that identifier.** -/
theorem ofText?_text (id : Uuid) : ofText? id.text = some id := by
  have digits := ofDigits?_hexDigits id
  have length := length_hexDigits 32 id.value.toNat
  simp only [text, ofText?, String.toList_ofList]
  generalize hexDigits 32 id.value.toNat = ds at digits length ⊢
  have ha : (ds.take 8).length = 8 := by simp [length]
  have hb : ((ds.drop 8).take 4).length = 4 := by simp [length]
  have hc : ((ds.drop 12).take 4).length = 4 := by simp [length]
  have hd : ((ds.drop 16).take 4).length = 4 := by simp [length]
  have he : (ds.drop 20).length = 12 := by simp [length]
  have whole : ds.take 8 ++ (ds.drop 8).take 4 ++ (ds.drop 12).take 4 ++ (ds.drop 16).take 4 ++
      ds.drop 20 = ds := by
    have first : ds.take 12 = ds.take 8 ++ (ds.drop 8).take 4 := by rw [← List.take_add]
    have second : ds.take 16 = ds.take 12 ++ (ds.drop 12).take 4 := by rw [← List.take_add]
    have third : ds.take 20 = ds.take 16 ++ (ds.drop 16).take 4 := by rw [← List.take_add]
    rw [← first, ← second, ← third, List.take_append_drop]
  have noUrn {rest : List Char} : ((ds.take 8 ++ '-' :: rest).take 9).map Char.toLower ≠ urn :=
    take_groups_ne_urn ha
  have plain := hyphenated?_groups ha hb hc hd he
  simp only [List.append_assoc, List.cons_append] at plain noUrn ⊢
  rw [if_neg (by simp [length]), if_neg (by simp [length]), if_neg noUrn, plain]
  simp only [List.append_assoc] at whole
  rw [whole, digits]

theorem text_injective {id id' : Uuid} (h : id.text = id'.text) : id = id' := by
  have read := ofText?_text id
  rw [h, ofText?_text] at read
  exact (Option.some.inj read).symm

end Uuid

namespace Store

/-! ## 2. Flags and counters -/

/-- The largest value of the column for a counter. -/
def countLimit : UInt64 := 9223372036854775807

/-- A counter as its column keeps it. -/
def capped (n : UInt64) : UInt64 := if n ≤ countLimit then n else countLimit

theorem flag?_flag (b : Bool) : Row.flag? (Row.flag b) = some b := by cases b <;> decide

theorem optional_flag?_flag (o : Option Bool) : Row.optional Row.flag? (o.map Row.flag) = some o := by
  cases o with
  | none => rfl
  | some b => simp [Row.optional, flag?_flag]

theorem counter?_counter (n : UInt64) : Row.counter? (Row.counter n) = some (capped n) := by
  have top : Width.maxInt64 = 9223372036854775807 := rfl
  have nonneg : (0 : Int) ≤ n.toNat := Int.natCast_nonneg _
  have fits : (Int64.ofInt (min n.toNat Width.maxInt64)).toInt = min (n.toNat : Int) Width.maxInt64 :=
    Int64.toInt_ofInt_of_le (by omega) (by omega)
  simp only [Row.counter?, Row.counter, Whole.value?_integer, Option.map_some, fits, capped,
    UInt64.le_iff_toNat_le]
  have limit : countLimit.toNat = 9223372036854775807 := by decide
  congr 1
  split
  · next small =>
    have same : (min (n.toNat : Int) Width.maxInt64).toNat = n.toNat := by omega
    rw [same]
    exact UInt64.ofNat_toNat
  · next large =>
    have same : (min (n.toNat : Int) Width.maxInt64).toNat = 9223372036854775807 := by omega
    rw [same]
    rfl

/-- A counter that came out of a column fits into it. -/
theorem capped_of_counter? {w : Whole} {n : UInt64} (h : Row.counter? w = some n) : capped n = n := by
  simp only [Row.counter?, Option.map_eq_some_iff] at h
  obtain ⟨k, -, rfl⟩ := h
  have bound : k.toInt < 2 ^ 63 := k.toInt_lt
  refine if_pos (UInt64.le_iff_toNat_le.mpr ?_)
  have limit : countLimit.toNat = 9223372036854775807 := by decide
  have value : k.toInt.toNat.toUInt64.toNat = k.toInt.toNat % 2 ^ 64 := UInt64.toNat_ofNat'
  omega

theorem capped_capped (n : UInt64) : capped (capped n) = capped n :=
  capped_of_counter? (counter?_counter n)

/-- One more still fits exactly below the largest value. -/
theorem capped_succ_iff {n : UInt64} (fits : capped n = n) :
    capped (n + 1) = n + 1 ↔ n < countLimit := by
  have limit : countLimit.toNat = 9223372036854775807 := by decide
  have small : n ≤ countLimit := by
    by_contra large
    rw [capped, if_neg large] at fits
    exact large (by rw [← fits]; exact UInt64.le_refl _)
  rw [UInt64.le_iff_toNat_le] at small
  have next : (n + 1).toNat = n.toNat + 1 := by
    rw [UInt64.toNat_add, UInt64.toNat_one]
    omega
  have below : n < countLimit ↔ n + 1 ≤ countLimit := by
    rw [UInt64.lt_iff_toNat_lt, UInt64.le_iff_toNat_le, next]
    omega
  rw [below]
  constructor
  · intro same
    by_contra large
    rw [capped, if_neg large] at same
    exact large (by rw [← same]; exact UInt64.le_refl _)
  · exact fun h => if_pos h

/-! ## 3. Standings -/

/-- What a store shows of a task besides its text: whether it is switched on, and its runs. -/
structure Standing where
  enabled : Bool
  runs : UInt64
  success : Option Bool
  deriving DecidableEq, Repr

/-- What a row shows. -/
def Row.standing? (r : Row) : Option Standing := do
  return ⟨← flag? r.enabled, ← counter? r.runCount, ← optional flag? r.lastRunSuccess⟩

/-- What a store shows of a task. -/
def standing? (s : Store) (id : TaskId) : Option Standing :=
  (s.rows.get? id.text).bind Row.standing?

end Store

/-- What a task shows. -/
def Task.standing (t : Task) : Store.Standing := ⟨t.enabled, t.runCount, t.lastRunSuccess⟩

namespace Store

variable {s : Store} {id : TaskId} {t : Task}

theorem Row.standing?_ofTask (t : Task) :
    (Row.ofTask t).standing? = some { t.standing with runs := capped t.runCount } := by
  simp [standing?, ofTask, Task.standing, flag?_flag, optional_flag?_flag, counter?_counter]

theorem Row.standing?_over (r : Row) (old : Option Row) : (r.over old).standing? = r.standing? := by
  cases old <;> rfl

/-- A saved task shows what it says, with its counter as the column keeps it. -/
theorem standing?_save (h : t.id = id) :
    (s.save t).standing? id = some { t.standing with runs := capped t.runCount } := by
  subst h
  rw [standing?, get?_save, if_pos (beq_self_eq_true _), Option.bind_some, Row.standing?_over,
    Row.standing?_ofTask]

/-- **A task that was found** has the identifier it was looked up by, and shows what the store shows. -/
theorem standing_of_find (h : s.find id = .ok (some t)) :
    t.id = id ∧ s.standing? id = some t.standing ∧ capped t.runCount = t.runCount := by
  unfold find at h
  split at h
  · next row hr =>
    unfold decode at h
    split at h
    · next t' ht =>
      obtain rfl : t' = t := by simpa [Except.map] using h
      simp only [Row.toTask?, Uuid.ofText?_text, Option.bind_eq_bind, Option.bind_eq_some_iff,
        Option.pure_def, Option.some.injEq] at ht
      obtain ⟨_, rfl, enabled, he, _, -, _, -, _, -, count, hc, _, -, success, hs, rfl⟩ := ht
      have shown : row.standing? = some ⟨enabled, count, success⟩ := by
        simp [Row.standing?, he, hc, hs]
      exact ⟨rfl, by rw [standing?, hr]; exact shown, capped_of_counter? hc⟩
    · simp [Except.map] at h
  · simp at h

theorem get?_of_find_none (h : s.find id = .ok none) : s.rows.get? id.text = none := by
  unfold find at h
  split at h
  · next row hr =>
    cases hd : decode id.text row <;> simp [hd, Except.map] at h
  · next hr => exact hr

end Store
end TaskReplay
