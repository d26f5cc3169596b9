import Mathlib.Algebra.Group.Nat.Defs
import Mathlib.Data.List.Forall2
import TaskReplay.Bus

/-!
# What the readers of a bus get

The bus keeps a few items and a position for each reader. A reader need not know: to it, all that was
sent since it came is unread until it reads it or is told that it is lost.

* `Op`, `act`, `after`, `receipts` -- histories of a bus, and what one reader gets in them;
* `seen` -- what of a history concerns a reader: what is sent while it is there, and its own reads;
* `Read`, `Delivers` -- **reading as it should be**, out of a list of all that is unread: no word of
  positions, of other readers, or of where items are kept;
* `Sent` -- how the kept items and the positions stand to all that was ever sent; every operation
  keeps it, and `Sent.read` says that one read is as it should be;
* `delivers_exactly` -- **a reader gets what was sent since it came**, in order, but for gaps that it is
  told of, and whatever others do.
-/

namespace TaskReplay.Bus

variable {α : Type}

/-! ## 1. Histories -/

/-- An operation on a bus. -/
inductive Op (α : Type) where
  | subscribe
  | leave (reader : Nat)
  | publish (item : α)
  | receive (reader : Nat)

/-- What an operation answers. -/
inductive Reply (α : Type) where
  | reader (number : Nat)
  | left
  | published
  /-- Nothing for a reader that is not there. -/
  | received (receipt : Option (Receipt α))

/-- One operation. -/
def act (b : Bus α) : Op α → Reply α × Bus α
  | .subscribe => (.reader b.subscribe.1, b.subscribe.2)
  | .leave k => (.left, b.leave k)
  | .publish item => (.published, b.send item)
  | .receive k =>
    match b.receive k with
    | some (receipt, b') => (.received (some receipt), b')
    | none => (.received none, b)

/-- The bus after a history. -/
def after (b : Bus α) (ops : List (Op α)) : Bus α := ops.foldl (fun b op => (b.act op).2) b

/-- Whether a reader comes. -/
def Op.comes : Op α → Bool
  | .subscribe => true
  | .leave _ | .publish _ | .receive _ => false

/-- The item that an operation sends. -/
def sentBy : Op α → List α
  | .publish x => [x]
  | .subscribe | .leave _ | .receive _ => []

/-- What a reader gets by an operation, if it reads. -/
def Op.own (k : Nat) : Op α → Reply α → List (Receipt α)
  | .receive j, .received receipt => if j = k then receipt.toList else []
  | _, _ => []

/-- **What a reader gets** in a history. -/
def receipts (k : Nat) (b : Bus α) : List (Op α) → List (Receipt α)
  | [] => []
  | op :: ops => op.own k (b.act op).1 ++ receipts k (b.act op).2 ops

/-! ## 2. What concerns one reader -/

/-- What a reader notices: that an item is sent, and that it reads. -/
inductive Sight (α : Type) where
  | item (item : α)
  | read

/-- What a reader notices of a history until it leaves. -/
def attended (k : Nat) : List (Op α) → List (Sight α)
  | [] => []
  | .subscribe :: ops => attended k ops
  | .publish x :: ops => .item x :: attended k ops
  | .receive j :: ops => if j = k then .read :: attended k ops else attended k ops
  | .leave j :: ops => if j = k then [] else attended k ops

/-- What a reader notices that comes after so many others. -/
def seenAfter (k : Nat) : Nat → List (Op α) → List (Sight α)
  | _, [] => []
  | 0, .subscribe :: ops => attended k ops
  | others + 1, .subscribe :: ops => seenAfter k others ops
  | others, .publish _ :: ops | others, .receive _ :: ops | others, .leave _ :: ops =>
    seenAfter k others ops

/-- **What concerns a reader**; readers are numbered in the order in which they come. -/
def seen (k : Nat) (ops : List (Op α)) : List (Sight α) := seenAfter k k ops

/-- The items sent while a reader is there. -/
def sentTo (sights : List (Sight α)) : List α :=
  sights.filterMap fun
    | .item x => some x
    | .read => none

/-! ## 3. Reading as it should be -/

/-- **One read** of a list of unread items: what is got, and what is then unread. -/
inductive Read (room : Nat) : List α → Receipt α → List α → Prop where
  /-- The oldest, if no more is unread than is kept. -/
  | item (x : α) (rest : List α) (fits : (x :: rest).length ≤ room) :
      Read room (x :: rest) (.item x) rest
  /-- If more is unread than is kept, those before are lost; the number is told. -/
  | lagged (lost kept : List α) (some : lost ≠ []) (full : kept.length = room) :
      Read room (lost ++ kept) (.lagged lost.length) kept
  /-- There is nothing to read. -/
  | empty : Read room [] .empty []

/-- **What a reader gets**, out of what it notices: what was unread, what it notices, what it gets, and
what is unread at the end. -/
inductive Delivers (room : Nat) :
    List α → List (Sight α) → List (Receipt α) → List α → Prop where
  | nil (unread : List α) : Delivers room unread [] [] unread
  | item {unread rest : List α} {x : α} {sights : List (Sight α)} {rs : List (Receipt α)}
      (later : Delivers room (unread ++ [x]) sights rs rest) :
      Delivers room unread (.item x :: sights) rs rest
  | read {unread left rest : List α} {r : Receipt α} {sights : List (Sight α)}
      {rs : List (Receipt α)} (first : Read room unread r left)
      (later : Delivers room left sights rs rest) :
      Delivers room unread (.read :: sights) (r :: rs) rest

/-- The items that a receipt accounts for. -/
inductive Covers : Receipt α → List α → Prop where
  | item (x : α) : Covers (.item x) [x]
  | lagged (lost : List α) (some : lost ≠ []) : Covers (.lagged lost.length) lost
  | empty : Covers .empty []

section Delivers

variable {room : Nat} {unread rest : List α} {sights : List (Sight α)} {rs : List (Receipt α)}

theorem Read.covers {r : Receipt α} (h : Read room unread r rest) :
    ∃ part, Covers r part ∧ unread = part ++ rest := by
  cases h with
  | item x rest fits => exact ⟨[x], .item x, rfl⟩
  | lagged lost kept some full => exact ⟨lost, .lagged lost some, rfl⟩
  | empty => exact ⟨[], .empty, rfl⟩

/-- **Nothing is lost without a word**: what was unread and what was sent are, in this order, what the
receipts account for and what is still unread. -/
theorem Delivers.account (h : Delivers room unread sights rs rest) :
    ∃ parts, List.Forall₂ Covers rs parts ∧ unread ++ sentTo sights = parts.flatten ++ rest := by
  induction h with
  | nil unread => exact ⟨[], .nil, by simp [sentTo]⟩
  | item later ih =>
      obtain ⟨parts, covers, same⟩ := ih
      exact ⟨parts, covers, by rw [← same]; simp [sentTo]⟩
  | read first later ih =>
      obtain ⟨part, own, rfl⟩ := first.covers
      obtain ⟨parts, covers, same⟩ := ih
      refine ⟨part :: parts, .cons own covers, ?_⟩
      rw [List.flatten_cons, List.append_assoc, List.append_assoc, ← same]
      rfl

/-- A read has one outcome. -/
theorem Read.unique {r r' : Receipt α} {rest' : List α} (h : Read room unread r rest)
    (h' : Read room unread r' rest') : r = r' ∧ rest = rest' := by
  have past {lost kept : List α} (some : lost ≠ []) (full : kept.length = room) :
      room < (lost ++ kept).length := by
    have := List.length_pos_iff.mpr some
    simp only [List.length_append]
    omega
  generalize same : unread = other at h'
  cases h with
  | item x rest fits =>
      cases h' with
      | item y rest' _ => cases same; exact ⟨rfl, rfl⟩
      | lagged lost kept some full => rw [same] at fits; exact absurd (past some full) (by omega)
      | empty => cases same
  | lagged lost kept some full =>
      have long := past some full
      cases h' with
      | item y rest' fits => rw [same] at long; omega
      | lagged lost' kept' some' full' =>
          obtain ⟨rfl, rfl⟩ := List.append_inj' same (full.trans full'.symm)
          exact ⟨rfl, rfl⟩
      | empty => rw [same] at long; cases long
  | empty =>
      cases h' with
      | item y rest' _ => cases same
      | lagged lost' kept' some' _ => exact absurd (List.append_eq_nil_iff.mp same.symm).1 some'
      | empty => exact ⟨rfl, rfl⟩

/-- What a reader gets depends on nothing but what it notices. -/
theorem Delivers.unique {rs' : List (Receipt α)} {rest' : List α}
    (h : Delivers room unread sights rs rest) (h' : Delivers room unread sights rs' rest') :
    rs = rs' ∧ rest = rest' := by
  induction h generalizing rs' with
  | nil unread => cases h'; exact ⟨rfl, rfl⟩
  | item later ih => cases h' with | item later' => exact ih later'
  | read first later ih =>
      cases h' with
      | read first' later' =>
          obtain ⟨rfl, rfl⟩ := first.unique first'
          obtain ⟨rfl, same⟩ := ih later'
          exact ⟨rfl, same⟩

end Delivers

/-! ## 4. What a bus keeps -/

/-- The items ever sent, as the bus stands to them: it has counted them and kept the latest. -/
structure Sent (b : Bus α) (all : List α) : Prop where
  count : b.sent = all.length
  latest : b.kept = all.drop (all.length - b.capacity)

section Sent

variable {b : Bus α} {all : List α} {k p : Nat}

theorem sent_empty (capacity : Nat) : Sent (empty capacity : Bus α) [] := ⟨rfl, List.drop_nil.symm⟩

theorem Sent.send (h : Sent b all) (x : α) : Sent (b.send x) (all ++ [x]) where
  count := by simp [Bus.send, h.count]
  latest := by
    have early : all.length - b.capacity ≤ all.length := Nat.sub_le _ _
    have together : b.kept ++ [x] = (all ++ [x]).drop (all.length - b.capacity) := by
      rw [h.latest, List.drop_append_of_le_length early]
    simp only [Bus.send, together, List.drop_drop, List.length_drop, List.length_append,
      List.length_singleton]
    congr 1
    omega

theorem Sent.oldest (h : Sent b all) : b.oldest = all.length - b.capacity := by
  rw [Bus.oldest, h.count, h.latest, List.length_drop]
  omega

/-- **One read is as it should be**: of a reader at a position all is unread that was sent from there
on. -/
theorem Sent.read (h : Sent b all) (inside : p ≤ all.length) :
    Read b.capacity (all.drop p) (b.receiptAt p).1 (all.drop (b.receiptAt p).2) ∧
      (b.receiptAt p).2 ≤ all.length := by
  unfold receiptAt
  rw [h.oldest]
  split
  · next behind =>
    -- the reader fell behind the kept items: it loses those between its position and the oldest kept
    have onward : p + (all.length - b.capacity - p) = all.length - b.capacity := by omega
    have split := List.take_append_drop (all.length - b.capacity - p) (all.drop p)
    rw [List.drop_drop, onward] at split
    have number : ((all.drop p).take (all.length - b.capacity - p)).length =
        all.length - b.capacity - p := by
      rw [List.length_take, List.length_drop]
      omega
    have full : (all.drop (all.length - b.capacity)).length = b.capacity := by
      rw [List.length_drop]
      omega
    have gap := Read.lagged ((all.drop p).take (all.length - b.capacity - p)) _
      (List.ne_nil_of_length_pos (by omega)) full
    rw [split, number] at gap
    exact ⟨gap, Nat.sub_le _ _⟩
  · next upToDate =>
    have place : b.kept[p - (all.length - b.capacity)]? = all[p]? := by
      rw [h.latest, List.getElem?_drop]
      congr 1
      omega
    rw [place]
    by_cases more : p < all.length
    · rw [List.getElem?_eq_getElem more, List.drop_eq_getElem_cons more]
      refine ⟨.item _ _ ?_, more⟩
      rw [← List.drop_eq_getElem_cons more, List.length_drop]
      omega
    · rw [List.getElem?_eq_none (by omega), List.drop_eq_nil_of_le (by omega)]
      exact ⟨.empty, inside⟩

end Sent

/-! ## 5. A reader in a history -/

section Reader

variable {b : Bus α} {all : List α} {k p : Nat}

/-- Reading moves the position of a reader that is there, and nothing else. -/
theorem act_receive (b : Bus α) (k : Nat) :
    (∃ p, b.readers[k]? = some (some p) ∧
      b.act (.receive k) = (.received (some (b.receiptAt p).1), b.moved k (b.receiptAt p).2)) ∨
    (∀ p, b.readers[k]? ≠ some (some p)) ∧ b.act (.receive k) = (.received none, b) := by
  by_cases there : ∃ p, b.readers[k]? = some (some p)
  · obtain ⟨p, there⟩ := there
    exact .inl ⟨p, there, by simp only [act, receive, there]⟩
  · simp only [not_exists] at there
    refine .inr ⟨there, ?_⟩
    have none : b.receive k = none := by
      unfold receive
      split
      · next p found => exact absurd found (there p)
      · rfl
    simp only [act, none]

theorem capacity_act (b : Bus α) (op : Op α) : (b.act op).2.capacity = b.capacity := by
  cases op with
  | subscribe | leave | publish => rfl
  | receive j =>
      obtain ⟨p, -, same⟩ | ⟨-, same⟩ := b.act_receive j
      · rw [same]; rfl
      · rw [same]

/-- What was sent is what it was, but for the item of a sending. -/
theorem Sent.step (h : Sent b all) (op : Op α) : Sent (b.act op).2 (all ++ sentBy op) := by
  cases op with
  | publish x => exact h.send x
  | subscribe | leave => rw [sentBy, List.append_nil]; exact ⟨h.count, h.latest⟩
  | receive j =>
      rw [sentBy, List.append_nil]
      obtain ⟨p, -, same⟩ | ⟨-, same⟩ := b.act_receive j
      · rw [same]; exact ⟨h.count, h.latest⟩
      · rw [same]; exact h

/-- The operations of others leave a reader where it is. -/
theorem readers_act (here : k < b.readers.length) {op : Op α} (stays : op ≠ .leave k)
    (other : op ≠ .receive k) : (b.act op).2.readers[k]? = b.readers[k]? := by
  cases op with
  | subscribe => exact List.getElem?_append_left here
  | publish x => rfl
  | leave j =>
      have apart : j ≠ k := fun same => stays (congrArg Op.leave same)
      exact List.getElem?_set_ne apart
  | receive j =>
      have apart : j ≠ k := fun same => other (congrArg Op.receive same)
      obtain ⟨p, -, same⟩ | ⟨-, same⟩ := b.act_receive j
      · rw [same]
        exact List.getElem?_set_ne apart
      · rw [same]

theorem own_of_ne {op : Op α} (other : op ≠ .receive k) (reply : Reply α) : op.own k reply = [] := by
  cases op with
  | subscribe | leave | publish => rfl
  | receive j =>
      have apart : j ≠ k := fun same => other (congrArg Op.receive same)
      cases reply with
      | received receipt => exact if_neg apart
      | reader | left | published => rfl

/-- A reader that left gets nothing more. -/
theorem receipts_left (gone : b.readers[k]? = some none) (ops : List (Op α)) :
    receipts k b ops = [] := by
  induction ops generalizing b with
  | nil => rfl
  | cons op ops ih =>
      have here : k < b.readers.length := (List.getElem?_eq_some_iff.mp gone).1
      by_cases own : op = .receive k
      · subst own
        obtain ⟨p, there, -⟩ | ⟨-, same⟩ := b.act_receive k
        · rw [gone] at there
          cases there
        · simp only [receipts, same, ih gone, Op.own, if_true, Option.toList_none, List.append_nil]
      · rw [receipts, own_of_ne own, List.nil_append]
        by_cases again : op = .leave k
        · subst again
          exact ih (List.getElem?_set_self here)
        · exact ih ((readers_act here again own).trans gone)

/-- **A reader that is there** gets what it should, out of all that was sent from its position on. -/
theorem Sent.delivers_attended (h : Sent b all) (there : b.readers[k]? = some (some p))
    (inside : p ≤ all.length) (ops : List (Op α)) :
    ∃ rest, Delivers b.capacity (all.drop p) (attended k ops) (receipts k b ops) rest := by
  induction ops generalizing b all p with
  | nil => exact ⟨_, .nil _⟩
  | cons op ops ih =>
      have here : k < b.readers.length := (List.getElem?_eq_some_iff.mp there).1
      -- for the operations of others it stays where it is; what they send is unread
      have aside (stays : op ≠ .leave k) (other : op ≠ .receive k) :
          ∃ rest, Delivers b.capacity (all.drop p ++ sentBy op) (attended k ops)
            (receipts k b (op :: ops)) rest := by
        have next := ih (h.step op) ((readers_act here stays other).trans there)
          (Nat.le_trans inside (by simp))
        rw [capacity_act, List.drop_append_of_le_length inside] at next
        rwa [receipts, own_of_ne other, List.nil_append]
      cases op with
      | subscribe =>
          obtain ⟨rest, delivers⟩ := aside nofun nofun
          rw [sentBy, List.append_nil] at delivers
          exact ⟨rest, delivers⟩
      | publish x =>
          obtain ⟨rest, delivers⟩ := aside nofun nofun
          exact ⟨rest, .item delivers⟩
      | leave j =>
          by_cases own : j = k
          · subst own
            have gone : (b.leave j).readers[j]? = some none := List.getElem?_set_self here
            rw [attended, if_pos rfl]
            exact ⟨_, by rw [show receipts j b (.leave j :: ops) = [] from receipts_left gone ops]
                         exact .nil _⟩
          · obtain ⟨rest, delivers⟩ := aside (fun same => own (Op.leave.inj same)) nofun
            rw [sentBy, List.append_nil] at delivers
            exact ⟨rest, by rwa [attended, if_neg own]⟩
      | receive j =>
          by_cases own : j = k
          · subst own
            obtain ⟨p', there', same⟩ | ⟨absent, -⟩ := b.act_receive j
            · obtain rfl : p = p' := Option.some.inj (Option.some.inj (there.symm.trans there'))
              obtain ⟨first, inside'⟩ := h.read inside
              have moved : Sent (b.moved j (b.receiptAt p).2) all := ⟨h.count, h.latest⟩
              obtain ⟨rest, later⟩ := ih moved (List.getElem?_set_self here) inside'
              refine ⟨rest, ?_⟩
              rw [attended, if_pos rfl, receipts, same]
              simp only [Op.own, if_true, Option.toList_some, List.singleton_append]
              exact .read first later
            · exact absurd there (absent p)
          · obtain ⟨rest, delivers⟩ := aside nofun fun same => own (Op.receive.inj same)
            rw [sentBy, List.append_nil] at delivers
            exact ⟨rest, by rwa [attended, if_neg own]⟩

/-- **A reader that is still to come**, after so many others. -/
theorem Sent.delivers_seen (h : Sent b all) {others : Nat} (place : b.readers.length + others = k)
    (ops : List (Op α)) :
    ∃ rest, Delivers b.capacity [] (seenAfter k others ops) (receipts k b ops) rest := by
  induction ops generalizing b all others with
  | nil => exact ⟨_, .nil _⟩
  | cons op ops ih =>
      have absent : b.readers[k]? = none := List.getElem?_eq_none (by omega)
      -- whatever is done before it comes, it gets nothing of it
      have nothing : op.own k (b.act op).1 = [] := by
        by_cases own : op = .receive k
        · subst own
          obtain ⟨p, there, -⟩ | ⟨-, same⟩ := b.act_receive k
          · rw [absent] at there
            cases there
          · rw [same]
            exact if_pos rfl
        · exact own_of_ne own _
      rw [receipts, nothing, List.nil_append, ← capacity_act b op]
      cases op with
      | subscribe =>
          have more : (b.act .subscribe).2.readers.length = b.readers.length + 1 := by
            simp [act, subscribe]
          cases others with
          | zero =>
              obtain rfl : k = b.readers.length := place.symm
              have there : (b.act .subscribe).2.readers[b.readers.length]? = some (some b.sent) :=
                List.getElem?_concat_length
              have delivers := (h.step .subscribe).delivers_attended there
                (by rw [h.count]; simp) ops
              rwa [sentBy, List.append_nil, h.count, List.drop_length] at delivers
          | succ others => exact ih (h.step .subscribe) (by omega)
      | publish x => exact ih (h.step (.publish x)) place
      | leave j => exact ih (h.step (.leave j)) (by simpa [act, leave] using place)
      | receive j =>
          refine ih (h.step (.receive j)) ?_
          obtain ⟨p, -, same⟩ | ⟨-, same⟩ := b.act_receive j
          · rw [same]
            simpa [moved] using place
          · rwa [same]

/-- Readers are numbered in the order in which they come. -/
theorem length_readers_after (b : Bus α) (ops : List (Op α)) :
    (b.after ops).readers.length = b.readers.length + ops.countP Op.comes := by
  induction ops generalizing b with
  | nil => rfl
  | cons op ops ih =>
      rw [after, List.foldl_cons, ← after, ih, List.countP_cons]
      cases op with
      | subscribe =>
          simp only [act, subscribe, List.length_append, List.length_singleton, Op.comes, if_true]
          omega
      | publish x => rfl
      | leave j => simp [act, leave, Op.comes]
      | receive j =>
          obtain ⟨p, -, same⟩ | ⟨-, same⟩ := b.act_receive j
          · rw [same]
            simp [moved, Op.comes]
          · rw [same]
            rfl

end Reader

/-! ## 6. All readers -/

/-- The least power of two that is at least `n`. -/
structure LeastPower (n m : Nat) : Prop where
  power : ∃ e, m = 2 ^ e
  enough : n ≤ m
  least : ∀ e, n ≤ 2 ^ e → m ≤ 2 ^ e

theorem leastPower_roundUp (n : Nat) : LeastPower n (roundUp n) := by
  unfold roundUp
  split
  · next small => exact ⟨⟨0, rfl⟩, small, fun e _ => Nat.one_le_two_pow⟩
  · next large =>
    refine ⟨⟨_, rfl⟩, ?_, fun e enough => ?_⟩
    · have above : n - 1 < 2 ^ ((n - 1).log2 + 1) := Nat.lt_log2_self
      show n ≤ 2 ^ ((n - 1).log2 + 1)
      omega
    · have below : (n - 1).log2 < e := (Nat.log2_lt (by omega)).mpr (by omega)
      exact Nat.pow_le_pow_right (by decide) below

/-- **A reader gets what was sent since it came**, in order and each item once, but for gaps: it falls
into one only if more is unread than the bus keeps, is told how many items that cost it, and goes on with
the oldest item kept. What others do makes no difference, and nothing keeps an item from being sent. -/
theorem delivers_exactly (capacity : Nat) (ops : List (Op α)) (k : Nat) :
    LeastPower capacity (roundUp capacity) ∧
    (∀ x, ((after (empty capacity) ops).act (.publish x)).1 = .published) ∧
    ((after (empty capacity) ops).act .subscribe).1 = .reader (ops.countP Op.comes) ∧
    (∃ unread,
      Delivers (roundUp capacity) [] (seen k ops) (receipts k (empty capacity) ops) unread ∧
      ∃ parts, List.Forall₂ Covers (receipts k (empty capacity) ops) parts ∧
        sentTo (seen k ops) = parts.flatten ++ unread) ∧
    ∀ ops' k', seen k' ops' = seen k ops →
      receipts k' (empty capacity) ops' = receipts k (empty capacity) ops := by
  have delivered (ops : List (Op α)) (k : Nat) :=
    (sent_empty capacity).delivers_seen (Nat.zero_add k) ops
  obtain ⟨unread, delivers⟩ := delivered ops k
  obtain ⟨parts, covers, account⟩ := delivers.account
  refine ⟨leastPower_roundUp capacity, fun _ => rfl, ?_, ⟨unread, delivers, parts, covers, account⟩,
    fun ops' k' same => ?_⟩
  · show Reply.reader (after (empty capacity) ops).readers.length = _
    rw [length_readers_after]
    exact congrArg Reply.reader (Nat.zero_add _)
  · obtain ⟨unread', delivers'⟩ := delivered ops' k'
    rw [← seen, same] at delivers'
    exact (delivers'.unique delivers).1

/-- Two of five items are kept. -/
example : receipts 0 (empty 2) (.subscribe :: [1, 2, 3, 4, 5].map Op.publish ++
      [.receive 0, .receive 0, .receive 0, .receive 0]) =
    [.lagged 3, .item 4, .item 5, .empty] := by rfl

end TaskReplay.Bus
