import Mathlib.Data.Char
import Mathlib.Data.List.Lex
import TaskReplay.Text.Blank

/-!
# Texts in the order of their bytes

Texts are compared by code points, tables compare them byte by byte. Both orders are one:

* `bytes` -- the bytes of a text in UTF-8;
* `encode_lt` -- the bytes of a lower code point are lower, whatever follows: the first byte tells how
  many there are, and more of them for higher code points;
* `bytes_le_iff` -- **the order by bytes is the order by code points**.
-/

namespace TaskReplay.Text

/-- The bytes of a text. -/
def bytes (s : String) : List UInt8 := s.toByteArray.data.toList

theorem bytes_eq_flatMap (s : String) : bytes s = s.toList.flatMap String.utf8EncodeChar := by
  rw [bytes, ← String.utf8Encode_toList, List.utf8Encode, List.toList_data_toByteArray]

theorem ofNat_lt {a b : Nat} (small : b < 256) (h : a < b) : UInt8.ofNat a < UInt8.ofNat b := by
  rw [UInt8.lt_iff_toNat_lt, UInt8.toNat_ofNat_of_lt' small, UInt8.toNat_ofNat_of_lt' (h.trans small)]
  exact h

/-- Bytes are compared one after the other. -/
theorem cons_lt_cons {a b : Nat} {u v : List UInt8} (small : b < 256) (h : a ≤ b)
    (later : a = b → u < v) : UInt8.ofNat a :: u < UInt8.ofNat b :: v := by
  rw [List.cons_lt_cons_iff]
  rcases Nat.lt_or_eq_of_le h with lower | rfl
  · exact .inl (ofNat_lt small lower)
  · exact .inr ⟨rfl, later rfl⟩

theorem head_lt {a b : Nat} {u v : List UInt8} (small : b < 256) (h : a < b) :
    UInt8.ofNat a :: u < UInt8.ofNat b :: v :=
  cons_lt_cons small h.le fun same => absurd same h.ne

/-- The bytes of a lower code point are lower, whatever follows. -/
theorem encode_lt {c d : Char} (h : c < d) (u v : List UInt8) :
    String.utf8EncodeChar c ++ u < String.utf8EncodeChar d ++ v := by
  have below : c.val.toNat < d.val.toNat := h
  have top : d.val.toNat < 0x110000 := by
    rcases d.valid with low | high <;> omega
  unfold String.utf8EncodeChar
  generalize c.val.toNat = a at below
  generalize d.val.toNat = b at below top
  simp only []
  -- by the number of bytes of the lower one; the higher one has as many or more
  by_cases one : a ≤ 0x7f
  · rw [if_pos one]
    split
    · exact head_lt (by omega) (by omega)
    split
    · exact head_lt (by omega) (by omega)
    split
    · exact head_lt (by omega) (by omega)
    · exact head_lt (by omega) (by omega)
  rw [if_neg one, if_neg (show ¬ b ≤ 0x7f by omega)]
  by_cases two : a ≤ 0x7ff
  · rw [if_pos two]
    split
    · exact cons_lt_cons (by omega) (by omega) fun same => head_lt (by omega) (by omega)
    split
    · exact head_lt (by omega) (by omega)
    · exact head_lt (by omega) (by omega)
  rw [if_neg two, if_neg (show ¬ b ≤ 0x7ff by omega)]
  by_cases three : a ≤ 0xffff
  · rw [if_pos three]
    split
    · exact cons_lt_cons (by omega) (by omega) fun first => cons_lt_cons (by omega) (by omega)
        fun second => head_lt (by omega) (by omega)
    · exact head_lt (by omega) (by omega)
  rw [if_neg three, if_neg (show ¬ b ≤ 0xffff by omega)]
  exact cons_lt_cons (by omega) (by omega) fun first => cons_lt_cons (by omega) (by omega)
    fun second => cons_lt_cons (by omega) (by omega) fun third => head_lt (by omega) (by omega)

theorem flatMap_encode_lt {cs ds : List Char} (h : cs < ds) :
    cs.flatMap String.utf8EncodeChar < ds.flatMap String.utf8EncodeChar := by
  induction cs generalizing ds with
  | nil =>
      cases ds with
      | nil => exact absurd h (List.lt_irrefl _)
      | cons d ds =>
          obtain ⟨byte, rest, first⟩ := List.exists_cons_of_ne_nil (String.utf8EncodeChar_ne_nil (c := d))
          rw [List.flatMap_cons, first]
          exact List.nil_lt_cons _ _
  | cons c cs ih =>
      cases ds with
      | nil => exact absurd h (List.not_lt_nil _)
      | cons d ds =>
          rw [List.flatMap_cons, List.flatMap_cons]
          rcases List.cons_lt_cons_iff.mp h with lower | ⟨rfl, later⟩
          · exact encode_lt lower _ _
          · exact List.append_left_lt (ih later)

theorem bytes_lt_iff (s t : String) : bytes s < bytes t ↔ s < t := by
  rw [bytes_eq_flatMap, bytes_eq_flatMap]
  refine ⟨fun h => ?_, flatMap_encode_lt⟩
  rcases lt_trichotomy s.toList t.toList with lower | same | higher
  · exact lower
  · rw [same] at h
    exact absurd h (List.lt_irrefl _)
  · exact absurd (flatMap_encode_lt higher) (List.lt_asymm h)

/-- **The order by bytes is the order by code points.** -/
theorem bytes_le_iff (s t : String) : bytes s ≤ bytes t ↔ s ≤ t := not_congr (bytes_lt_iff t s)

end TaskReplay.Text
