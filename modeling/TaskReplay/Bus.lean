/-!
A bus that hands items to any number of readers and waits for none.

What this file fixes:
* the bus keeps the latest `capacity` items, a power of two, and counts all it ever sent;
* a reader has a position of its own; one that fell behind the kept items is told how many it lost
  and then stands at the oldest kept item;
* reading moves the reader's own position and nothing else.
-/

namespace TaskReplay

/-- A bus. Items are kept oldest first; a reader that left has no position. -/
structure Bus (α : Type) where
  capacity : Nat
  sent : Nat
  kept : List α
  readers : List (Option Nat)

namespace Bus

variable {α : Type}

/-! ## 1. Sending -/

/-- The least power of two that is at least `n`. -/
def roundUp (n : Nat) : Nat := if n ≤ 1 then 1 else Nat.pow 2 (Nat.log2 (n - 1) + 1)

/-- A bus without items and readers. -/
def empty (capacity : Nat) : Bus α := ⟨roundUp capacity, 0, [], []⟩

/-- Sends an item. -/
def send (b : Bus α) (item : α) : Bus α :=
  let items := b.kept ++ [item]
  { b with sent := b.sent + 1, kept := items.drop (items.length - b.capacity) }

/-- The position of the oldest kept item. -/
def oldest (b : Bus α) : Nat := b.sent - b.kept.length

/-! ## 2. Reading -/

/-- What a reader gets. -/
inductive Receipt (α : Type) where
  | item (item : α)
  | empty
  | lagged (lost : Nat)

/-- A new reader, who gets what is sent from now on, and its number. -/
def subscribe (b : Bus α) : Nat × Bus α :=
  (b.readers.length, { b with readers := b.readers ++ [some b.sent] })

/-- A reader leaves. -/
def leave (b : Bus α) (reader : Nat) : Bus α := { b with readers := b.readers.set reader none }

/-- The bus with a reader at another position. -/
def moved (b : Bus α) (reader position : Nat) : Bus α :=
  { b with readers := b.readers.set reader (some position) }

/-- What a reader at a position gets, and the position after it. -/
def receiptAt (b : Bus α) (position : Nat) : Receipt α × Nat :=
  if position < b.oldest then (.lagged (b.oldest - position), b.oldest)
  else match b.kept[position - b.oldest]? with
    | some item => (.item item, position + 1)
    | none => (.empty, position)

/-- A reader takes what is due. -/
def receive (b : Bus α) (reader : Nat) : Option (Receipt α × Bus α) :=
  match b.readers[reader]? with
  | some (some position) =>
    let (receipt, position) := b.receiptAt position
    some (receipt, b.moved reader position)
  | _ => none

/-- All that a reader gets until nothing is left, with at most `most` receipts. -/
def drain (b : Bus α) (reader : Nat) : (most : Nat) → List (Receipt α)
  | 0 => []
  | most + 1 =>
    match b.receive reader with
    | some (.empty, _) | none => []
    | some (receipt, b) => receipt :: b.drain reader most

end Bus
end TaskReplay
