import TaskReplay.Text.Digits

/-!
Addresses of stores.

What this file fixes:
* an address is a path, a scheme in front of it or not, and parameters behind a question mark;
* a store lies in a file or lives in memory as long as the program; an unknown parameter, or a value
  that a parameter does not have, is no address.
-/

namespace TaskReplay.CommandLine

/-! ## 1. Escaped text -/

/-- The bytes of a text with percent escapes. A percent sign without two digits stands for
itself. -/
def unescapeBytes : List UInt8 → List UInt8
  | [] => []
  | b :: h :: l :: rest =>
    match Text.value? 16 [Char.ofNat h.toNat, Char.ofNat l.toNat] with
    | some n =>
      if b = 0x25 then n.toUInt8 :: unescapeBytes rest else b :: unescapeBytes (h :: l :: rest)
    | none => b :: unescapeBytes (h :: l :: rest)
  | b :: rest => b :: unescapeBytes rest

/-- A text with percent escapes, unless it escapes what is no text. -/
def unescape? (s : String) : Option String :=
  String.fromUTF8? ⟨(unescapeBytes s.toUTF8.toList).toArray⟩

/-- A text in parameters, where a plus sign is a blank. -/
def unescapeForm? (s : String) : Option String :=
  unescape? (s.map fun c => if c = '+' then ' ' else c)

/-! ## 2. Addresses -/

/-- Where a store is. -/
structure Location where
  path : String
  /-- The store lives in memory. -/
  memory : Bool
  /-- The store takes no changes. -/
  readOnly : Bool
  deriving DecidableEq, Repr

namespace Location

/-- The text without a word at its beginning, however often it stands there. -/
def without (word cs : List Char) : List Char :=
  cs.foldl (fun rest _ => if word.isPrefixOf rest then rest.drop word.length else rest) cs

/-- The address with a parameter. -/
def parameter? (l : Location) (name value : String) : Option Location :=
  match name, value with
  | "mode", "ro" => some { l with readOnly := true }
  | "mode", "rw" | "mode", "rwc" => some l
  | "mode", "memory" => some { l with memory := true }
  | "cache", "private" | "cache", "shared" => some l
  | "immutable", "true" | "immutable", "1" => some { l with readOnly := true }
  | "immutable", "false" | "immutable", "0" => some l
  | "vfs", "unix" => some l
  | _, _ => none

/-- The two sides of the first `mark`; without one, nothing is behind it. -/
def cut (mark : Char) (cs : List Char) : List Char × List Char :=
  (cs.takeWhile (· != mark), (cs.dropWhile (· != mark)).drop 1)

/-- The address with the parameters of a text, which stand between ampersands. -/
def parameters? (l : Location) (cs : List Char) : Option Location :=
  (cs.splitOn '&').foldlM (fun l p =>
    if p.isEmpty then some l
    else do
      let (name, value) := cut '=' p
      l.parameter? (← unescapeForm? (String.ofList name)) (← unescapeForm? (String.ofList value))) l

/-- The address that a text is. A store without a path lives in memory. -/
def ofUrl? (url : String) : Option Location := do
  let cs := without "sqlite:".toList (without "sqlite://".toList url.toList)
  let (path, parameters) := cut '?' cs
  let path ← unescape? (String.ofList path)
  parameters? ⟨path, path.isEmpty || path == ":memory:", false⟩ parameters

end Location
end TaskReplay.CommandLine
