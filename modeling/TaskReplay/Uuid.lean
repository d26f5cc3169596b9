import TaskReplay.Json.Decode

/-!
Identifiers of tasks, runs and events.

What this file fixes:
* a `Uuid` is a number of 128 bits and is written as 32 hexadecimal digits in groups of 8, 4, 4, 4
  and 12;
* it is read from that form in either case, alone, in braces or after `urn:uuid:`, and from 32
  digits without hyphens.
-/

namespace TaskReplay

/-- A universally unique identifier. -/
structure Uuid where
  value : BitVec 128
  deriving DecidableEq, Repr, Inhabited

/-- Identifies a task. -/
abbrev TaskId := Uuid

namespace Uuid

/-! ## 1. Text -/

/-- The lower-case hexadecimal digit of a value. -/
def hexChar (n : Nat) : Char := Nat.digitChar (n % 16)

/-- `count` hexadecimal digits of a number. -/
def hexDigits : (count n : Nat) → List Char
  | 0, _ => []
  | count + 1, n => hexDigits count (n / 16) ++ [hexChar n]

/-- The hyphenated text. -/
def text (id : Uuid) : String :=
  let ds := hexDigits 32 id.value.toNat
  String.ofList (ds.take 8 ++ '-' :: (ds.drop 8).take 4 ++ '-' :: (ds.drop 12).take 4 ++
    '-' :: (ds.drop 16).take 4 ++ '-' :: ds.drop 20)

/-- The identifier of version 4 with random digits elsewhere. -/
def version4 (random : Nat) : Uuid :=
  let ds := hexDigits 32 random
  let value (cs : List Char) : Nat := (Text.value? 16 cs).getD 0
  let variant := Nat.digitChar (8 + value ((ds.drop 16).take 1) % 4)
  ⟨BitVec.ofNat 128 <| value (ds.take 12 ++ '4' :: (ds.drop 13).take 3 ++ variant :: ds.drop 17)⟩

/-! ## 2. Reading -/

/-- The number of hexadecimal digits. -/
def ofDigits? (cs : List Char) : Option Uuid :=
  (Text.value? 16 cs).map fun n => ⟨BitVec.ofNat 128 n⟩

/-- The groups of a hyphenated text. -/
def hyphenated? (cs : List Char) : Option Uuid :=
  let hyphens := [cs[8]?, cs[13]?, cs[18]?, cs[23]?]
  if cs.length = 36 ∧ hyphens = List.replicate 4 (some '-') then
    ofDigits? (cs.take 8 ++ (cs.drop 9).take 4 ++ (cs.drop 14).take 4 ++ (cs.drop 19).take 4 ++
      cs.drop 24)
  else none

/-- What may stand before the hyphenated form, in any case. -/
def urn : List Char := "urn:uuid:".toList

/-- An identifier in any of the accepted forms. -/
def ofText? (s : String) : Option Uuid :=
  let cs := s.toList
  if cs.length = 32 then ofDigits? cs
  else if cs.length = 38 ∧ cs.head? = some '{' ∧ cs.getLast? = some '}' then
    hyphenated? ((cs.drop 1).take 36)
  else if (cs.take 9).map Char.toLower = urn then hyphenated? (cs.drop 9)
  else hyphenated? cs

/-- An identifier in a document. -/
def ofJson? (v : Json) : Option Uuid := v.text?.bind ofText?

/-- An identifier as it stands in documents. -/
def toJson (id : Uuid) : Json := .string id.text

end Uuid
end TaskReplay
