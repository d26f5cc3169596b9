import TaskReplay.Key
import TaskReplay.Proofs.Text.Decimal

/-!
# The names of keys

A name is trimmed and lowered, and then it is a word, a function key or a single character:

* `words` -- the words for a key; `mem_table_iff` -- the table holds just these;
* `Named` -- **the names that keys have**: their words, `f1` to `f12` in plain decimal, and characters;
* `Loose` -- names of function keys whose number has a plus sign or zeros in front;
* `functionKey?_iff`, `characterKey?_iff`, `lookup_iff` -- what each of the three stages accepts; no name
  is accepted by two of them, so `ofName?_iff` -- a name is accepted exactly if it is named or loose;
* `LowerCase` -- full lower case of texts; `LowerCase.iff_of_ascii` -- only what stays in ASCII counts;
* `accepted_names` -- **which names are accepted**, and that the displayed name of a key leads back to it.
-/

namespace TaskReplay.Key

/-! ## 1. Names -/

/-- The characters that are keys: small letters, digits and symbols. -/
def Typed (c : Char) : Prop :=
  c.isLower = true ∨ c.isDigit = true ∨ c ∈ ['-', '=', ',', '.', '/', '\\']

instance (c : Char) : Decidable (Typed c) := inferInstanceAs (Decidable (_ ∨ _))

/-- The words for a key. -/
def words : Key → List String
  | .control => ["ctrl", "control"]
  | .alt => ["alt", "option"]
  | .shift => ["shift"]
  | .metaKey => ["win", "windows", "meta", "cmd", "command", "super"]
  | .up => ["up"]
  | .down => ["down"]
  | .left => ["left"]
  | .right => ["right"]
  | .home => ["home"]
  | .endKey => ["end"]
  | .pageUp => ["pageup", "pgup"]
  | .pageDown => ["pagedown", "pgdn"]
  | .enter => ["enter", "return"]
  | .tab => ["tab"]
  | .space => ["space"]
  | .backspace => ["backspace"]
  | .delete => ["delete", "del"]
  | .insert => ["insert"]
  | .escape => ["escape", "esc"]
  | .capsLock => ["capslock"]
  | .char '-' => ["minus"]
  | .char '=' => ["equal"]
  | .char ',' => ["comma"]
  | .char '.' => ["period"]
  | .char '/' => ["slash"]
  | .char '\\' => ["backslash"]
  | .char _ | .function _ => []

/-- **The names of keys**, trimmed and in lower case: their words, and those of function keys and
characters. -/
inductive Named : List Char → Key → Prop where
  | word {w : String} {k : Key} (listed : w ∈ k.words) : Named w.toList k
  | function {number : UInt8} {ds : List Char} (first : 1 ≤ number) (last : number ≤ 12)
      (writes : Text.Writes number.toNat ds) : Named ('f' :: ds) (.function number)
  | character {c : Char} (typed : Typed c) : Named [c] (.char c)

/-- **Names of function keys with more before the number**: a plus sign, zeros, or both. -/
inductive Loose : List Char → Key → Prop where
  | mk {number : UInt8} {ds : List Char} (sign : List Char) (zeros : Nat)
      (signed : sign = [] ∨ sign = ['+']) (more : sign ≠ [] ∨ 0 < zeros) (first : 1 ≤ number)
      (last : number ≤ 12) (writes : Text.Writes number.toNat ds) :
      Loose ('f' :: (sign ++ (List.replicate zeros '0' ++ ds))) (.function number)

section Stages

variable {cs ds sign : List Char} {n : Nat} {k k' : Key} {c : Char}

/-! ## 2. The three stages -/

theorem number?_digits (signed : sign = [] ∨ sign = ['+']) (some : ds ≠ [])
    (digits : ∀ c ∈ ds, c.isDigit = true) : number? (sign ++ ds) = Option.some (Text.valueOf ds) := by
  have all : ds.all Char.isDigit = true := List.all_eq_true.mpr digits
  have given : ds.isEmpty = false := List.isEmpty_eq_false_iff.mpr some
  obtain rfl | rfl := signed
  · obtain ⟨c, rest, rfl⟩ := List.exists_cons_of_ne_nil some
    have digit : c.isDigit = true := digits c List.mem_cons_self
    have no_plus : c ≠ '+' := by
      rintro rfl
      cases digit
    simp [number?, all, no_plus, Text.valueOf]
  · simp [number?, all, given, Text.valueOf]

theorem number?_inv (h : number? cs = some n) :
    ∃ sign ds, (sign = [] ∨ sign = ['+']) ∧ cs = sign ++ ds ∧ ds ≠ [] ∧
      (∀ c ∈ ds, c.isDigit = true) ∧ Text.valueOf ds = n := by
  have read {ds : List Char} (h : (if ds.isEmpty || !ds.all Char.isDigit then none
      else some (Text.valueOf ds)) = some n) :
      ds ≠ [] ∧ (∀ c ∈ ds, c.isDigit = true) ∧ Text.valueOf ds = n := by
    simpa [and_assoc] using h
  unfold number? at h
  split at h
  · exact ⟨['+'], _, .inr rfl, rfl, read h⟩
  · exact ⟨[], _, .inl rfl, rfl, read h⟩

/-- **A number may have a plus sign and zeros in front.** -/
theorem number?_iff : number? cs = some n ↔
    ∃ sign zeros ds, (sign = [] ∨ sign = ['+']) ∧ cs = sign ++ (List.replicate zeros '0' ++ ds) ∧
      Text.Writes n ds := by
  constructor
  · intro h
    obtain ⟨sign, ds, signed, rfl, some, digits, rfl⟩ := number?_inv h
    obtain ⟨zeros, es, rfl, writes⟩ := Text.exists_writes some digits
    exact ⟨sign, zeros, es, signed, rfl, writes⟩
  · rintro ⟨sign, zeros, ds, signed, rfl, writes⟩
    have digits : ∀ c ∈ List.replicate zeros '0' ++ ds, c.isDigit = true := by
      intro c hc
      obtain zero | digit := List.mem_append.mp hc
      · rw [List.eq_of_mem_replicate zero]
        rfl
      · exact writes.digits c digit
    rw [number?_digits signed (List.append_ne_nil_of_right_ne_nil _ writes.some) digits,
      Text.valueOf_zeros, writes.value]

theorem functionKey?_some (h : functionKey? cs = some k) :
    ∃ rest number, cs = 'f' :: rest ∧ 1 ≤ number ∧ number ≤ (12 : UInt8) ∧
      number? rest = some number.toNat ∧ k = .function number := by
  unfold functionKey? at h
  split at h
  · next rest =>
    split at h
    · next n number =>
      split at h
      · next range =>
        obtain ⟨first, last⟩ := range
        have same : n.toUInt8.toNat = n := UInt8.toNat_ofNat_of_lt' (Nat.lt_of_le_of_lt last (by decide))
        refine ⟨rest, n.toUInt8, rfl, ?_, ?_, by rw [same, number], (Option.some.inj h).symm⟩
        · rw [UInt8.le_iff_toNat_le, same]
          exact first
        · rw [UInt8.le_iff_toNat_le, same]
          exact last
      · cases h
    · cases h
  · cases h

theorem functionKey?_of {rest : List Char} {number : UInt8} (first : 1 ≤ number) (last : number ≤ 12)
    (h : number? rest = some number.toNat) : functionKey? ('f' :: rest) = some (.function number) := by
  have range : 1 ≤ number.toNat ∧ number.toNat ≤ 12 :=
    ⟨UInt8.le_iff_toNat_le.mp first, UInt8.le_iff_toNat_le.mp last⟩
  have same : number.toNat.toUInt8 = number := UInt8.ofNat_toNat
  simp only [functionKey?, h, if_pos range, same]

/-- **The second stage.** -/
theorem functionKey?_iff : functionKey? cs = some k ↔
    (∃ number ds, cs = 'f' :: ds ∧ 1 ≤ number ∧ number ≤ (12 : UInt8) ∧
      Text.Writes number.toNat ds ∧ k = .function number) ∨ Loose cs k := by
  constructor
  · intro h
    obtain ⟨rest, number, rfl, first, last, read, rfl⟩ := functionKey?_some h
    obtain ⟨sign, zeros, ds, signed, rfl, writes⟩ := number?_iff.mp read
    by_cases more : sign ≠ [] ∨ 0 < zeros
    · exact .inr (.mk sign zeros signed more first last writes)
    · obtain ⟨plain, none⟩ := not_or.mp more
      obtain rfl : sign = [] := Classical.not_not.mp plain
      obtain rfl : zeros = 0 := Nat.eq_zero_of_not_pos none
      exact .inl ⟨number, ds, rfl, first, last, writes, rfl⟩
  · rintro (⟨number, ds, rfl, first, last, writes, rfl⟩ | ⟨sign, zeros, signed, more, first, last, writes⟩)
    · exact functionKey?_of first last (number?_iff.mpr ⟨[], 0, _, .inl rfl, rfl, writes⟩)
    · exact functionKey?_of first last (number?_iff.mpr ⟨sign, zeros, _, signed, rfl, writes⟩)

/-- **The third stage**, on texts without capitals. -/
theorem characterKey?_iff (small : ∀ c ∈ cs, c.isUpper = false) :
    characterKey? cs = some k ↔ ∃ c, cs = [c] ∧ Typed c ∧ k = .char c := by
  cases cs with
  | nil => simp [characterKey?]
  | cons c rest =>
      cases rest with
      | nil =>
          have lower : c.isUpper = false := small c List.mem_cons_self
          have alphanum : c.isAlphanum = (c.isUpper || c.isLower || c.isDigit) := rfl
          have typed : (c.isAlphanum || symbols.contains c) = true ↔ Typed c := by
            simp [Typed, symbols, alphanum, lower, or_assoc]
          have key : characterKey? [c] = if (c.isAlphanum || symbols.contains c) = true then some (.char c)
              else none := rfl
          rw [key, Option.ite_none_right_eq_some, typed]
          constructor
          · rintro ⟨may, same⟩
            exact ⟨c, rfl, may, (Option.some.inj same).symm⟩
          · rintro ⟨_, ⟨⟩, may, rfl⟩
            exact ⟨may, rfl⟩
      | cons d rest => simp [characterKey?]

/-- The table holds the words of each key and nothing else. -/
theorem mem_table_iff {w : String} : (w, k) ∈ table ↔ w ∈ k.words := by
  constructor
  · intro listed
    have each : ∀ e ∈ table, e.1 ∈ e.2.words := by decide
    exact each (w, k) listed
  · intro word
    unfold words at word
    split at word
    -- the last two cases are keys without words
    case h_27 | h_28 => cases word
    all_goals
      revert w
      decide

/-- **The first stage.** -/
theorem lookup_iff : table.lookup (String.ofList cs) = some k ↔ ∃ w ∈ k.words, w.toList = cs := by
  constructor
  · intro h
    obtain ⟨before, later, split, -⟩ := List.lookup_eq_some_iff.mp h
    refine ⟨String.ofList cs, mem_table_iff.mp ?_, String.toList_ofList⟩
    rw [split]
    exact List.mem_append_right _ List.mem_cons_self
  · rintro ⟨w, word, rfl⟩
    have each : ∀ e ∈ table, table.lookup e.1 = some e.2 := by decide
    rw [String.ofList_toList]
    exact each (w, k) (mem_table_iff.mpr word)

/-! ## 3. Names in lower case -/

/-- A word is accepted by the first stage only. -/
theorem word_alone {w : String} (listed : w ∈ k.words) :
    functionKey? w.toList = none ∧ characterKey? w.toList = none := by
  have each : ∀ e ∈ table, functionKey? e.1.toList = none ∧ characterKey? e.1.toList = none := by
    decide
  exact each (w, k) (mem_table_iff.mpr listed)

/-- Of stages none of which accepts what an earlier one does, each has its say. -/
theorem or_iff {α : Type} {a b c : Option α} {x : α} (ab : ∀ y, a = some y → b = none)
    (ac : ∀ y, a = some y → c = none) (bc : ∀ y, b = some y → c = none) :
    (a.or b).or c = some x ↔ a = some x ∨ b = some x ∨ c = some x := by
  cases a with
  | some y => simp [ab y rfl, ac y rfl]
  | none =>
      cases b with
      | some y => simp [bc y rfl]
      | none => simp

/-- **A text without capitals** is accepted exactly if it is a name or a loose one. -/
theorem stages_iff (small : ∀ c ∈ cs, c.isUpper = false) :
    ((table.lookup (String.ofList cs)).or (functionKey? cs)).or (characterKey? cs) = some k ↔
      Named cs k ∨ Loose cs k := by
  rw [or_iff]
  · rw [lookup_iff, functionKey?_iff, characterKey?_iff small]
    constructor
    · rintro (⟨w, listed, rfl⟩ | (⟨n, ds, rfl, first, last, writes, rfl⟩ | loose) | ⟨c, rfl, typed, rfl⟩)
      · exact .inl (.word listed)
      · exact .inl (.function first last writes)
      · exact .inr loose
      · exact .inl (.character typed)
    · rintro (named | loose)
      · cases named with
        | word listed => exact .inl ⟨_, listed, rfl⟩
        | function first last writes => exact .inr (.inl (.inl ⟨_, _, rfl, first, last, writes, rfl⟩))
        | character typed => exact .inr (.inr ⟨_, rfl, typed, rfl⟩)
      · exact .inr (.inl (.inr loose))
  · intro y found
    obtain ⟨w, listed, rfl⟩ := lookup_iff.mp found
    exact (word_alone listed).1
  · intro y found
    obtain ⟨w, listed, rfl⟩ := lookup_iff.mp found
    exact (word_alone listed).2
  · intro y found
    -- the name of a function key has two characters at least
    obtain ⟨rest, number, rfl, -, -, read, -⟩ := functionKey?_some found
    cases rest with
    | nil => cases read
    | cons c rest => rfl

/-- **No loose name is a name.** -/
theorem Loose.not_named (h : Loose cs k) : ¬ Named cs k' := by
  have found : functionKey? cs = some k := functionKey?_iff.mpr (.inr h)
  intro named
  cases named with
  | word listed =>
      rw [(word_alone listed).1] at found
      cases found
  | character typed =>
      obtain ⟨rest, number, same, -, -, read, -⟩ := functionKey?_some found
      cases same
      cases read
  | @function number ds first last writes =>
      generalize hw : 'f' :: ds = name at h
      obtain ⟨sign, zeros, signed, more, -, -, writes'⟩ := h
      obtain rfl := (List.cons.inj hw).2
      obtain rfl | rfl := signed
      · -- zeros in front are one digit too many
        have padded : 0 < zeros := more.resolve_left fun h => h rfl
        obtain ⟨zeros, rfl⟩ := Nat.exists_eq_succ_of_ne_zero (Nat.ne_of_gt padded)
        have alone := congrArg List.length (writes.lead rfl)
        have some := List.length_pos_of_ne_nil writes'.some
        simp at alone
        omega
      · cases writes.digits '+' List.mem_cons_self

end Stages

/-! ## 4. Lower case -/

theorem toNat_of_isUpper {c : Char} (capital : c.isUpper = true) : 65 ≤ c.toNat ∧ c.toNat ≤ 90 := by
  have bounds : 'A'.val ≤ c.val ∧ c.val ≤ 'Z'.val := of_decide_eq_true capital
  exact ⟨UInt32.le_iff_toNat_le.mp bounds.1, UInt32.le_iff_toNat_le.mp bounds.2⟩

theorem toLower_of_small {c : Char} (small : c.isUpper = false) : c.toLower = c :=
  dif_neg (of_decide_eq_false small)

theorem isUpper_toLower (c : Char) : c.toLower.isUpper = false := by
  cases capital : c.isUpper with
  | false => rw [toLower_of_small capital, capital]
  | true =>
      have each : ∀ n < 91, 65 ≤ n → (Char.ofNat n).toLower.isUpper = false := by decide
      obtain ⟨first, last⟩ := toNat_of_isUpper capital
      have lowered := each c.toNat (Nat.lt_succ_of_le last) first
      rwa [Char.ofNat_toNat] at lowered

theorem isUpper_lower (c : Char) : (lower c).isUpper = false := by
  rw [lower]
  split
  · rfl
  · exact isUpper_toLower c

/-- A name is accepted by its text in lower case. -/
theorem ofName?_iff {name : String} {k : Key} :
    ofName? name = some k ↔ Named (normalized name) k ∨ Loose (normalized name) k := by
  refine stages_iff fun c hc => ?_
  obtain ⟨d, -, rfl⟩ := List.mem_map.mp hc
  exact isUpper_lower d

/-- Characters whose lower case is a single one in ASCII. -/
def Simple (c : Char) : Prop := c.toNat < 128 ∨ c = '\u212a'

/-- **Full lower case of texts**, by whatever tables: a text of simple characters is lowered one by one,
and of any other character something beyond ASCII is left. -/
structure LowerCase (full : List Char → List Char) : Prop where
  within : ∀ cs, (∀ c ∈ cs, Simple c) → full cs = cs.map lower
  beyond : ∀ cs, (∃ c ∈ cs, ¬ Simple c) → ∃ d ∈ full cs, ¬ d.toNat < 128

section LowerCase

variable {cs : List Char} {k : Key}

theorem toNat_lt_of_isDigit {c : Char} (digit : c.isDigit = true) : c.toNat < 128 := by
  have high : c.toNat ≤ '9'.toNat := (Char.isDigit_iff_toNat.mp digit).2
  exact Nat.lt_of_le_of_lt high (by decide)

theorem Typed.ascii {c : Char} (h : Typed c) : c.toNat < 128 := by
  obtain small | digit | symbol := h
  · have high : c.val ≤ 'z'.val := of_decide_eq_true (Bool.and_eq_true_iff.mp small).2
    exact Nat.lt_of_le_of_lt (UInt32.le_iff_toNat_le.mp high) (by decide)
  · exact toNat_lt_of_isDigit digit
  · have each : symbols.all (·.toNat < 128) = true := by decide
    exact of_decide_eq_true (List.all_eq_true.mp each _ symbol)

/-- Names are in ASCII. -/
theorem Named.ascii (h : Named cs k) : ∀ c ∈ cs, c.toNat < 128 := by
  cases h with
  | word listed =>
      have each : ∀ e ∈ table, e.1.toList.all (·.toNat < 128) = true := by decide
      exact fun c hc => of_decide_eq_true (List.all_eq_true.mp (each _ (mem_table_iff.mpr listed)) c hc)
  | function first last writes =>
      exact List.forall_mem_cons.mpr ⟨by decide, fun c hc => toNat_lt_of_isDigit (writes.digits c hc)⟩
  | character typed => exact List.forall_mem_singleton.mpr typed.ascii

/-- So are loose names. -/
theorem Loose.ascii (h : Loose cs k) : ∀ c ∈ cs, c.toNat < 128 := by
  obtain ⟨sign, zeros, signed, -, -, -, writes⟩ := h
  refine List.forall_mem_cons.mpr ⟨by decide, fun c hc => ?_⟩
  obtain plus | digits := List.mem_append.mp hc
  · obtain rfl | rfl := signed
    · cases plus
    · rw [List.mem_singleton.mp plus]
      decide
  · obtain zero | digit := List.mem_append.mp digits
    · rw [List.eq_of_mem_replicate zero]
      decide
    · exact toNat_lt_of_isDigit (writes.digits c digit)

theorem lowerCase_lower : LowerCase (·.map lower) where
  within _ _ := rfl
  beyond cs other := by
    obtain ⟨c, hc, other⟩ := other
    obtain ⟨wide, no_kelvin⟩ := not_or.mp other
    have small : c.isUpper = false := Bool.eq_false_iff.mpr fun capital =>
      wide (Nat.lt_of_le_of_lt (toNat_of_isUpper capital).2 (by decide))
    have same : lower c = c := by rw [lower, if_neg no_kelvin, toLower_of_small small]
    exact ⟨c, List.mem_map.mpr ⟨c, hc, same⟩, wide⟩

/-- **Whatever is in ASCII** is lowered alike by all tables, or by none to it. -/
theorem LowerCase.iff_of_ascii {full : List Char → List Char} (lowers : LowerCase full)
    {P : List Char → Prop} (ascii : ∀ ds, P ds → ∀ d ∈ ds, d.toNat < 128) (cs : List Char) :
    P (full cs) ↔ P (cs.map lower) := by
  by_cases simple : ∀ c ∈ cs, Simple c
  · rw [lowers.within cs simple]
  · have other : ∃ c ∈ cs, ¬ Simple c := by simpa using simple
    have none {full : List Char → List Char} (lowers : LowerCase full) : ¬ P (full cs) := by
      intro h
      obtain ⟨d, hd, wide⟩ := lowers.beyond cs other
      exact wide (ascii _ h d hd)
    exact iff_of_false (none lowers) (none lowerCase_lower)

end LowerCase

/-! ## 5. Which names are accepted -/

section Accepted

variable {cs : List Char} {k : Key}

theorem ofName?_function {number : UInt8} (first : 1 ≤ number) (last : number ≤ 12) :
    ofName? (display (.function number)) = some (.function number) := by
  have each : ∀ n < 13, 1 ≤ n → ofName? (display (.function n.toUInt8)) = some (.function n.toUInt8) := by
    decide
  have same : number.toNat.toUInt8 = number := UInt8.ofNat_toNat
  have found := each number.toNat (Nat.lt_succ_of_le (UInt8.le_iff_toNat_le.mp last))
    (UInt8.le_iff_toNat_le.mp first)
  rwa [same] at found

theorem ofName?_character {c : Char} (typed : Typed c) :
    ofName? (display (.char c)) = some (.char c) := by
  have each : ∀ n < 128, Typed (Char.ofNat n) →
      Text.trimmed [Char.ofNat n] = [Char.ofNat n] ∧ lower (Char.ofNat n) = Char.ofNat n := by decide
  obtain ⟨trimmed, lowered⟩ := each c.toNat typed.ascii (by rwa [Char.ofNat_toNat])
  rw [Char.ofNat_toNat] at trimmed lowered
  have name : normalized (display (.char c)) = [c] := by
    rw [normalized, display, String.toList_singleton, trimmed, List.map_singleton, lowered]
  exact ofName?_iff.mpr (.inl (by rw [name]; exact .character typed))

/-- **The displayed name of a key leads back to it**, if any name does. -/
theorem ofName?_display (h : Named cs k ∨ Loose cs k) : ofName? k.display = some k := by
  obtain named | loose := h
  · cases named with
    | word listed =>
        have each : ∀ e ∈ table, ofName? e.2.display = some e.2 := by decide
        exact each (_, k) (mem_table_iff.mpr listed)
    | function first last writes => exact ofName?_function first last
    | character typed => exact ofName?_character typed
  · obtain ⟨sign, zeros, signed, more, first, last, writes⟩ := loose
    exact ofName?_function first last

/-- **Which names are accepted**: trimmed and in full lower case, the names of the table, each for its key,
and beyond these exactly the loose names of function keys. The displayed name of a key that some name has
leads back to it. -/
theorem accepted_names {full : List Char → List Char} (lowers : LowerCase full) (name : String) :
    let cs := full (Text.trimmed name.toList)
    (∀ k, ofName? name = some k ↔ Named cs k ∨ Loose cs k) ∧
      ((ofName? name ≠ none ∧ ¬ ∃ k, Named cs k) ↔ ∃ k, Loose cs k) ∧
      ∀ k, ofName? name = some k → ofName? k.display = some k := by
  intro cs
  have accepted (k : Key) : ofName? name = some k ↔ Named cs k ∨ Loose cs k := by
    rw [ofName?_iff, normalized, ← lowers.iff_of_ascii fun _ => Named.ascii,
      ← lowers.iff_of_ascii fun _ => Loose.ascii]
  refine ⟨accepted, ⟨?_, ?_⟩, fun k found => ofName?_display ((accepted k).mp found)⟩
  · rintro ⟨some, unnamed⟩
    obtain ⟨k, found⟩ := Option.ne_none_iff_exists'.mp some
    exact ⟨k, ((accepted k).mp found).resolve_left fun named => unnamed ⟨k, named⟩⟩
  · rintro ⟨k, loose⟩
    refine ⟨?_, fun ⟨k', named⟩ => loose.not_named named⟩
    rw [(accepted k).mpr (.inr loose)]
    nofun

/-- A name with capitals, a Kelvin sign for one of its letters, and blanks around it. -/
def fancyName : String := " Bac\u212aSpace\u00a0"

/-- It is a name all the same. -/
theorem accepted_names_kelvin :
    LowerCase (·.map lower) ∧ ofName? fancyName = some .backspace ∧
      ofName? (display .backspace) = some .backspace := by
  obtain ⟨accepted, -, shown⟩ := accepted_names lowerCase_lower fancyName
  have same : (Text.trimmed fancyName.toList).map lower = "backspace".toList := by decide
  have named : Named ((Text.trimmed fancyName.toList).map lower) .backspace := by
    rw [same]
    exact .word (by decide)
  have found := (accepted .backspace).mpr (.inl named)
  exact ⟨lowerCase_lower, found, shown _ found⟩

/-- **A number with a sign is accepted**, and so is one with a zero in front; neither is a name. -/
theorem signed_number_accepted :
    (ofName? "f+5" = some (.function 5) ∧ ¬ ∃ k, Named (normalized "f+5") k) ∧
      ofName? "F05" = some (.function 5) ∧ ¬ ∃ k, Named (normalized "F05") k := by
  have writes : Text.Writes (5 : UInt8).toNat ['5'] := Text.writes_toDigits 5
  have signed : Loose (normalized "f+5") (.function 5) :=
    .mk ['+'] 0 (.inr rfl) (.inl nofun) (by decide) (by decide) writes
  have padded : Loose (normalized "F05") (.function 5) :=
    .mk [] 1 (.inl rfl) (.inr Nat.one_pos) (by decide) (by decide) writes
  exact ⟨⟨by decide, fun ⟨k, named⟩ => signed.not_named named⟩, by decide,
    fun ⟨k, named⟩ => padded.not_named named⟩

end Accepted
end TaskReplay.Key
