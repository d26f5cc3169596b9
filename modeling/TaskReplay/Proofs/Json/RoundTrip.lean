import TaskReplay.Json.Decode
import TaskReplay.Proofs.Json.Scanning

/-!
# A printed value is read as that value

* `parse_print` -- **the text of a value is parsed as that value**, of whatever depth;
* `readable_whole_iff` -- a reader gets through a value iff it has room for its depth and every
  number and string in it means something;
* `readAs?_print` -- so a printed value reaches its reader unchanged, if it nests at most
  `maxDepth` arrays and objects.
-/

namespace TaskReplay.Json

/-! ## 1. Scanning the text of a value -/

/-- The text of a sequence of tokens. -/
def spelling (ts : List Token) : List Char := ts.flatMap Token.text

@[simp] theorem spelling_nil : spelling [] = [] := rfl

@[simp] theorem spelling_cons (t : Token) (ts : List Token) :
    spelling (t :: ts) = t.text ++ spelling ts := rfl

@[simp] theorem spelling_append (ts us : List Token) :
    spelling (ts ++ us) = spelling ts ++ spelling us := List.flatMap_append

/-- The tokens `ts` are scanned out of their text. -/
def Scans (ts : List Token) : Prop :=
  ∀ (rest : List Char), Scan.Barred rest → ∀ done : List Token,
    Scan.run .gap done (spelling ts ++ rest) = Scan.run .gap (ts.reverse ++ done) rest

namespace Scans

theorem nil : Scans [] := fun _ _ _ => rfl

/-- A token that is no number may stand before any others. -/
theorem cons {t : Token} (closed : Scan.isOpen t = false) {ts : List Token} (later : Scans ts) :
    Scans (t :: ts) := by
  intro rest barred done
  have proper : Scan.Proper t := by
    cases t with
    | number n => cases closed
    | _ => trivial
  rw [spelling_cons, List.append_assoc, Scan.run_text proper (by simp [closed]),
    later rest barred, List.reverse_cons, List.append_assoc, List.singleton_append]

theorem single {t : Token} (proper : Scan.Proper t) : Scans [t] := by
  intro rest barred done
  simpa [spelling] using Scan.run_text proper (fun _ => barred) done

/-- Tokens may stand before others whose text does not continue a number. -/
theorem append {ts us : List Token} (earlier : Scans ts) (later : Scans us)
    (barred : ∀ rest, Scan.Barred rest → Scan.Barred (spelling us ++ rest)) : Scans (ts ++ us) := by
  intro rest ends done
  rw [spelling_append, List.append_assoc, earlier _ (barred rest ends), later rest ends,
    List.reverse_append, List.append_assoc]

end Scans

theorem barred_itemTokens (vs : List Json) {rest : List Char} (barred : Scan.Barred rest) :
    Scan.Barred (spelling (itemTokens vs) ++ rest) := by
  cases vs with
  | nil => exact barred
  | cons v vs => exact Scan.barred_cons (.inl rfl) _

theorem barred_memberTokens (ms : List (String × Json)) {rest : List Char}
    (barred : Scan.Barred rest) : Scan.Barred (spelling (memberTokens ms) ++ rest) := by
  cases ms with
  | nil => exact barred
  | cons m ms => exact Scan.barred_cons (.inl rfl) _

/-- Items and the bracket that closes them. -/
theorem Scans.close {ts : List Token} (items : Scans ts) {close : Token}
    (bracket : close = .closeArray ∨ close = .closeObject) : Scans (ts ++ [close]) := by
  obtain rfl | rfl := bracket
  · exact items.append (.single trivial) fun _ _ => Scan.barred_cons (.inr (.inl rfl)) _
  · exact items.append (.single trivial) fun _ _ => Scan.barred_cons (.inr (.inr rfl)) _

mutual

/-- The tokens of a value are scanned out of their text. -/
theorem scans_tokens : ∀ v : Json, (∀ t ∈ tokens v, Scan.Proper t) → Scans (tokens v)
  | .null, _ => .single trivial
  | .bool _, _ => .single trivial
  | .number _, proper => .single (proper _ (.head _))
  | .string _, _ => .single trivial
  | .garbled, _ => .single trivial
  | .array [], _ => .cons rfl (.single trivial)
  | .array (v :: rest), proper => by
      simp only [tokens, List.mem_cons, List.mem_append] at proper
      refine .cons rfl (.append (scans_tokens v ?_)
        (.close (scans_itemTokens rest ?_) (.inl rfl)) ?_)
      · exact fun t ht => proper t (.inr (.inl ht))
      · exact fun t ht => proper t (.inr (.inr (.inl ht)))
      · intro more _
        rw [spelling_append, List.append_assoc]
        exact barred_itemTokens rest (Scan.barred_cons (.inr (.inl rfl)) _)
  | .object [], _ => .cons rfl (.single trivial)
  | .object ((name, v) :: rest), proper => by
      simp only [tokens, List.mem_cons, List.mem_append] at proper
      refine .cons rfl (.cons rfl (.cons rfl (.append (scans_tokens v ?_)
        (.close (scans_memberTokens rest ?_) (.inr rfl)) ?_)))
      · exact fun t ht => proper t (.inr (.inr (.inr (.inl ht))))
      · exact fun t ht => proper t (.inr (.inr (.inr (.inr (.inl ht)))))
      · intro more _
        rw [spelling_append, List.append_assoc]
        exact barred_memberTokens rest (Scan.barred_cons (.inr (.inr rfl)) _)

theorem scans_itemTokens :
    ∀ vs : List Json, (∀ t ∈ itemTokens vs, Scan.Proper t) → Scans (itemTokens vs)
  | [], _ => .nil
  | v :: rest, proper => by
      simp only [itemTokens, List.mem_cons, List.mem_append] at proper
      refine .cons rfl (.append (scans_tokens v ?_) (scans_itemTokens rest ?_) ?_)
      · exact fun t ht => proper t (.inr (.inl ht))
      · exact fun t ht => proper t (.inr (.inr ht))
      · exact fun _ => barred_itemTokens rest

theorem scans_memberTokens :
    ∀ ms : List (String × Json), (∀ t ∈ memberTokens ms, Scan.Proper t) → Scans (memberTokens ms)
  | [], _ => .nil
  | (name, v) :: rest, proper => by
      simp only [memberTokens, List.mem_cons, List.mem_append] at proper
      refine .cons rfl (.cons rfl (.cons rfl (.append (scans_tokens v ?_)
        (scans_memberTokens rest ?_) ?_)))
      · exact fun t ht => proper t (.inr (.inr (.inr (.inl ht))))
      · exact fun t ht => proper t (.inr (.inr (.inr (.inr ht))))
      · exact fun _ => barred_memberTokens rest

end

/-! ## 2. Parsing the tokens of a value -/

/-- A value never begins with the bracket that closes an array. -/
theorem tokens_eq_cons (v : Json) : ∃ t ts, tokens v = t :: ts ∧ t ≠ .closeArray := by
  cases v with
  | array items => cases items <;> exact ⟨_, _, rfl, nofun⟩
  | object members => cases members <;> exact ⟨_, _, rfl, nofun⟩
  | _ => exact ⟨_, _, rfl, nofun⟩

/-- Where an array has just been opened, its first item is due like any other. -/
theorem run_firstItem (v : Json) (outer : List Frame) (ts : List Token) :
    Parse.run (.firstItem outer) (tokens v ++ ts) =
      Parse.run (.dueValue (.array [] :: outer)) (tokens v ++ ts) := by
  obtain ⟨t, us, spelled, other⟩ := tokens_eq_cons v
  rw [spelled]
  cases t with
  | closeArray => exact absurd rfl other
  | _ => rfl

mutual

/-- The tokens of a value lead to that value, whatever is open around it. -/
theorem run_tokens : ∀ (v : Json) (outer : List Frame) (ts : List Token),
    Parse.run (.dueValue outer) (tokens v ++ ts) = Parse.run (.after v outer) ts
  | .null, _, _ | .bool _, _, _ | .number _, _, _ | .string _, _, _ | .garbled, _, _ => rfl
  | .array [], _, _ => rfl
  | .array (v :: rest), outer, ts => by
      change Parse.run (.firstItem outer)
        ((tokens v ++ (itemTokens rest ++ [.closeArray])) ++ ts) = _
      rw [List.append_assoc, run_firstItem, run_tokens v, List.append_assoc, List.singleton_append,
        run_itemTokens rest v []]
      rfl
  | .object [], _, _ => rfl
  | .object ((name, v) :: rest), outer, ts => by
      change Parse.run (.dueValue (.object [] name :: outer))
        ((tokens v ++ (memberTokens rest ++ [.closeObject])) ++ ts) = _
      rw [List.append_assoc, run_tokens v, List.append_assoc, List.singleton_append,
        run_memberTokens rest name v []]
      rfl

/-- The items after one that was read; `read` are those before it, latest first. -/
theorem run_itemTokens : ∀ (vs : List Json) (v : Json) (read : List Json) (outer : List Frame)
    (ts : List Token),
    Parse.run (.after v (.array read :: outer)) (itemTokens vs ++ .closeArray :: ts) =
      Parse.run (.after (.array (read.reverse ++ v :: vs)) outer) ts
  | [], v, read, outer, ts => by
      change Parse.run (.after (.array (v :: read).reverse) outer) ts = _
      rw [List.reverse_cons]
  | w :: rest, v, read, outer, ts => by
      change Parse.run (.dueValue (.array (v :: read) :: outer))
        ((tokens w ++ itemTokens rest) ++ .closeArray :: ts) = _
      rw [List.append_assoc, run_tokens w, run_itemTokens rest w (v :: read), List.reverse_cons,
        List.append_assoc, List.singleton_append]

/-- The members after one that was read. -/
theorem run_memberTokens : ∀ (ms : List (String × Json)) (name : String) (v : Json)
    (read : List (String × Json)) (outer : List Frame) (ts : List Token),
    Parse.run (.after v (.object read name :: outer)) (memberTokens ms ++ .closeObject :: ts) =
      Parse.run (.after (.object (read.reverse ++ (name, v) :: ms)) outer) ts
  | [], name, v, read, outer, ts => by
      change Parse.run (.after (.object ((name, v) :: read).reverse) outer) ts = _
      rw [List.reverse_cons]
  | (next, w) :: rest, name, v, read, outer, ts => by
      change Parse.run (.dueValue (.object ((name, v) :: read) next :: outer))
        ((tokens w ++ memberTokens rest) ++ .closeObject :: ts) = _
      rw [List.append_assoc, run_tokens w, run_memberTokens rest next w ((name, v) :: read),
        List.reverse_cons, List.append_assoc, List.singleton_append]

end

/-- **The text of a value is parsed as that value.** -/
theorem parse_print {v : Json} (proper : ∀ t ∈ tokens v, Scan.Proper t) :
    parse (print v) = some v := by
  have scanned := scans_tokens v proper [] Scan.barred_nil []
  have parsed := run_tokens v [] []
  rw [List.append_nil] at scanned parsed
  rw [parse, print, String.toList_ofList, scan]
  change (Scan.run .gap [] (spelling (tokens v))).bind ofTokens? = _
  rw [scanned]
  simp [Scan.run, Scan.finish?, ofTokens?, parsed, Parse.run]

/-! ## 3. Reading a value out of its text -/

/-- Whether a reader can make something of a token: a number in range, a string without an unpaired
surrogate. -/
def meant : Token → Bool
  | .number n => n.number?.isSome
  | .garbled => false
  | _ => true

/-- Room for a container is room for its first entry and for the rest, one level deeper. -/
theorem nested_iff {room here later : Nat} {p q : Prop} :
    (0 < room ∧ (here ≤ room - 1 ∧ p) ∧ later ≤ room - 1 ∧ q) ↔
      1 + max here later ≤ room ∧ p ∧ q := by
  constructor
  · rintro ⟨positive, ⟨first, hp⟩, rest, hq⟩
    exact ⟨by omega, hp, hq⟩
  · rintro ⟨fits, hp, hq⟩
    exact ⟨by omega, ⟨by omega, hp⟩, by omega, hq⟩

mutual

/-- A reader of a whole value gets through it iff there is room for its depth and all its numbers
and strings mean something. -/
theorem readable_whole_iff : ∀ (v : Json) (room : Nat),
    readable .whole room v = true ↔ depth v ≤ room ∧ ∀ t ∈ tokens v, meant t = true
  | .null, _ | .bool _, _ | .string _, _ | .number _, _ | .garbled, _ => by
      simp [readable, depth, tokens, meant]
  | .array [], room => by
      simp [readable, readableItems, depth, depthItems, tokens, meant, Nat.pos_iff_ne_zero,
        Nat.one_le_iff_ne_zero]
  | .array (v :: rest), room => by
      have first := readable_whole_iff v (room - 1)
      have later := readableItems_whole_iff rest room
      simp only [readable, readableItems, depth, depthItems, tokens, Bool.and_eq_true,
        decide_eq_true_eq, first, later, List.mem_cons, List.mem_append, or_imp, forall_and,
        forall_eq, meant, true_and, List.not_mem_nil, false_imp_iff, and_true]
      exact nested_iff
  | .object [], room => by
      simp [readable, readableMembers, depth, depthMembers, tokens, meant, Nat.pos_iff_ne_zero,
        Nat.one_le_iff_ne_zero]
  | .object ((name, v) :: rest), room => by
      have first := readable_whole_iff v (room - 1)
      have later := readableMembers_whole_iff rest room
      simp only [readable, readableMembers, depth, depthMembers, tokens, Bool.and_eq_true,
        decide_eq_true_eq, first, later, List.mem_cons, List.mem_append, or_imp, forall_and,
        forall_eq, meant, true_and, List.not_mem_nil, false_imp_iff, and_true]
      exact nested_iff

theorem readableItems_whole_iff : ∀ (vs : List Json) (room : Nat),
    readableItems .whole room vs = true ↔
      depthItems vs ≤ room - 1 ∧ ∀ t ∈ itemTokens vs, meant t = true
  | [], _ => by simp [readableItems, depthItems, itemTokens]
  | v :: rest, room => by
      have first := readable_whole_iff v (room - 1)
      have later := readableItems_whole_iff rest room
      simp only [readableItems, depthItems, itemTokens, Bool.and_eq_true, first, later,
        List.mem_cons, List.mem_append, or_imp, forall_and, forall_eq, meant, true_and, Nat.max_le,
        and_and_and_comm]

theorem readableMembers_whole_iff : ∀ (ms : List (String × Json)) (room : Nat),
    readableMembers .whole room ms = true ↔
      depthMembers ms ≤ room - 1 ∧ ∀ t ∈ memberTokens ms, meant t = true
  | [], _ => by simp [readableMembers, depthMembers, memberTokens]
  | (name, v) :: rest, room => by
      have first := readable_whole_iff v (room - 1)
      have later := readableMembers_whole_iff rest room
      simp only [readableMembers, depthMembers, memberTokens, Bool.and_eq_true, first, later,
        List.mem_cons, List.mem_append, or_imp, forall_and, forall_eq, meant, true_and, Nat.max_le,
        and_and_and_comm]

end

/-- A token whose spelling a reader can make something of. -/
def Token.Legible (t : Token) : Prop := Scan.Proper t ∧ meant t = true

/-- A value whose text a reader can make something of. -/
def Legible (v : Json) : Prop := ∀ t ∈ tokens v, t.Legible

/-- **A printed value reaches its reader unchanged**, if it nests at most `maxDepth` arrays and
objects. -/
theorem readAs?_print {α : Type} {v : Json} (legible : Legible v) (shallow : depth v ≤ maxDepth)
    (read : Json → Option α) : readAs? .whole read (print v) = read v := by
  have parsed : parse (print v) = some v := parse_print fun t ht => (legible t ht).1
  have through : readable .whole maxDepth v = true :=
    (readable_whole_iff v maxDepth).2 ⟨shallow, fun t ht => (legible t ht).2⟩
  simp [readAs?, parsed, through]

/-! ## 4. Legible values -/

namespace Legible

theorem null : Legible .null := List.forall_mem_singleton.2 ⟨trivial, rfl⟩

theorem bool (b : Bool) : Legible (.bool b) := List.forall_mem_singleton.2 ⟨trivial, rfl⟩

theorem string (s : String) : Legible (.string s) := List.forall_mem_singleton.2 ⟨trivial, rfl⟩

theorem number {n : Numeral} (proper : ∀ d ∈ n.fraction, d < 10)
    (inRange : n.number?.isSome = true) : Legible (.number n) :=
  List.forall_mem_singleton.2 ⟨proper, inRange⟩

theorem itemTokens {vs : List Json} (items : ∀ v ∈ vs, Legible v) :
    ∀ t ∈ itemTokens vs, t.Legible := by
  induction vs with
  | nil => exact List.forall_mem_nil _
  | cons v vs ih =>
    obtain ⟨first, later⟩ := List.forall_mem_cons.1 items
    exact List.forall_mem_cons.2 ⟨⟨trivial, rfl⟩, List.forall_mem_append.2 ⟨first, ih later⟩⟩

theorem memberTokens {ms : List (String × Json)} (members : ∀ m ∈ ms, Legible m.2) :
    ∀ t ∈ memberTokens ms, t.Legible := by
  induction ms with
  | nil => exact List.forall_mem_nil _
  | cons m ms ih =>
    obtain ⟨first, later⟩ := List.forall_mem_cons.1 members
    exact List.forall_mem_cons.2 ⟨⟨trivial, rfl⟩, List.forall_mem_cons.2 ⟨⟨trivial, rfl⟩,
      List.forall_mem_cons.2 ⟨⟨trivial, rfl⟩, List.forall_mem_append.2 ⟨first, ih later⟩⟩⟩⟩

/-- An array of legible values is legible. -/
theorem array {vs : List Json} (items : ∀ v ∈ vs, Legible v) : Legible (.array vs) := by
  cases vs with
  | nil => simp [Legible, tokens, Token.Legible, Scan.Proper, meant]
  | cons v vs =>
    obtain ⟨first, later⟩ := List.forall_mem_cons.1 items
    refine List.forall_mem_cons.2 ⟨⟨trivial, rfl⟩, List.forall_mem_append.2 ⟨first, ?_⟩⟩
    exact List.forall_mem_append.2
      ⟨itemTokens later, List.forall_mem_singleton.2 ⟨trivial, rfl⟩⟩

/-- An object with legible members is legible. -/
theorem object {ms : List (String × Json)} (members : ∀ m ∈ ms, Legible m.2) :
    Legible (.object ms) := by
  cases ms with
  | nil => simp [Legible, tokens, Token.Legible, Scan.Proper, meant]
  | cons m ms =>
    obtain ⟨first, later⟩ := List.forall_mem_cons.1 members
    refine List.forall_mem_cons.2 ⟨⟨trivial, rfl⟩, List.forall_mem_cons.2 ⟨⟨trivial, rfl⟩,
      List.forall_mem_cons.2 ⟨⟨trivial, rfl⟩, List.forall_mem_append.2 ⟨first, ?_⟩⟩⟩⟩
    exact List.forall_mem_append.2
      ⟨memberTokens later, List.forall_mem_singleton.2 ⟨trivial, rfl⟩⟩

end Legible

end TaskReplay.Json
