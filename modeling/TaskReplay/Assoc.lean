/-!
Finite maps that remember the order of first writing.

What this file fixes:
* `set` puts a value in the place of an earlier one under the same key, or at the end;
* `get?_set` and `get?_erase` are all that a user of the map has to know.
-/

namespace TaskReplay

/-- A finite map as a list of pairs. -/
structure Assoc (κ ν : Type) where
  entries : List (κ × ν)
  deriving DecidableEq, Repr

namespace Assoc

variable {κ ν : Type} [BEq κ]

/-! ## 1. Operations -/

/-- The map without keys. -/
def empty : Assoc κ ν := ⟨[]⟩

instance : Inhabited (Assoc κ ν) := ⟨empty⟩

/-- The value under a key. -/
def get? (m : Assoc κ ν) (k : κ) : Option ν := m.entries.lookup k

/-- Puts a value under a key. -/
def put (k : κ) (v : ν) : List (κ × ν) → List (κ × ν)
  | [] => [(k, v)]
  | e :: rest => if k == e.1 then (k, v) :: rest else e :: put k v rest

/-- The map with a value under a key. -/
def set (m : Assoc κ ν) (k : κ) (v : ν) : Assoc κ ν := ⟨put k v m.entries⟩

/-- The map without a key. -/
def erase (m : Assoc κ ν) (k : κ) : Assoc κ ν := ⟨m.entries.filter fun e => !(k == e.1)⟩

/-- The number of keys. -/
def size (m : Assoc κ ν) : Nat := m.entries.length

/-! ## 2. Laws -/

@[simp] theorem get?_empty (k : κ) : (empty : Assoc κ ν).get? k = none := rfl

variable [LawfulBEq κ]

theorem lookup_put (k other : κ) (v : ν) (es : List (κ × ν)) :
    (put k v es).lookup other = if other == k then some v else es.lookup other := by
  induction es with
  | nil => simp only [put, List.lookup_cons, List.lookup_nil]; cases other == k <;> rfl
  | cons e rest ih =>
    obtain ⟨n, w⟩ := e
    by_cases h : k = n
    · subst h
      simp only [put, beq_self_eq_true, if_true, List.lookup_cons]
      cases other == k <;> rfl
    · have hk : (k == n) = false := by simpa using h
      by_cases ho : other = n
      · subst ho
        have : (other == k) = false := by simpa using fun e => h e.symm
        simp [put, hk, this]
      · have : (other == n) = false := by simpa using ho
        simp [put, hk, this, List.lookup_cons, ih]

/-- A key reads as last written. -/
@[simp] theorem get?_set (m : Assoc κ ν) (k other : κ) (v : ν) :
    (m.set k v).get? other = if other == k then some v else m.get? other := by
  simp [get?, set, lookup_put]

/-- An erased key is gone and the others stay. -/
@[simp] theorem get?_erase (m : Assoc κ ν) (k other : κ) :
    (m.erase k).get? other = if other == k then none else m.get? other := by
  obtain ⟨es⟩ := m
  simp only [get?, erase]
  induction es with
  | nil => simp
  | cons e rest ih =>
    obtain ⟨n, w⟩ := e
    by_cases hk : k = n
    · subst hk
      simp only [List.filter, beq_self_eq_true, Bool.not_true, ih]
      by_cases ho : other = k
      · simp [ho]
      · have : (other == k) = false := by simpa using ho
        simp [this, List.lookup_cons]
    · have hk' : (k == n) = false := by simpa using hk
      simp only [List.filter, hk', Bool.not_false, List.lookup_cons]
      by_cases ho : other = n
      · subst ho
        have : (other == k) = false := by simpa using fun e => hk e.symm
        simp [this]
      · have : (other == n) = false := by simpa using ho
        simp [this, ih]

end Assoc
end TaskReplay
