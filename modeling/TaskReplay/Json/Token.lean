import TaskReplay.Json.Basic
import TaskReplay.Text.Digits

/-!
The tokens of a JSON text.

What this file fixes:
* `Token` is a lexeme with its meaning; blanks are exactly space, tab, line feed and carriage
  return;
* `Scan` is the state between two characters, `Scan.step?` what one character does to it;
* `scan` runs a whole text and fails iff some lexeme is malformed or unfinished;
* escapes are decoded here: two `\u` escapes of a surrogate pair are one character, an unpaired
  one makes the string `garbled`.
-/

namespace TaskReplay.Json

/-! ## 1. Tokens -/

/-- A lexeme of a JSON text. -/
inductive Token where
  | openArray
  | closeArray
  | openObject
  | closeObject
  | comma
  | colon
  | null
  | bool (value : Bool)
  | number (numeral : Numeral)
  | string (text : String)
  | garbled
  deriving DecidableEq, Repr

/-- The characters between tokens. -/
def isGap (c : Char) : Bool := c == ' ' || c == '\t' || c == '\n' || c == '\r'

/-! ## 2. Inside a string -/

/-- Where a string stands with respect to escapes. -/
inductive Escape where
  | plain
  | backslash
  | hex (missing value : Nat)
  deriving DecidableEq, Repr

/-- A string read so far: its characters, latest first, whether it is still free of unpaired
surrogates, and a high surrogate that waits for its partner. -/
structure Quote where
  text : List Char
  whole : Bool
  high : Option Nat
  escape : Escape
  deriving DecidableEq, Repr

namespace Quote

/-- An opened string. -/
def empty : Quote := ⟨[], true, none, .plain⟩

/-- Takes a character that stands for itself. -/
def push (q : Quote) (c : Char) : Quote :=
  ⟨c :: q.text, q.whole && q.high.isNone, none, .plain⟩

/-- Takes the code unit of a finished `\u` escape. -/
def pushUnit (q : Quote) (unit : Nat) : Quote :=
  let isHigh := 0xD800 ≤ unit ∧ unit < 0xDC00
  let isLow := 0xDC00 ≤ unit ∧ unit < 0xE000
  match q.high with
  | some high =>
    if isLow then
      ⟨Char.ofNat (0x10000 + (high - 0xD800) * 0x400 + (unit - 0xDC00)) :: q.text, q.whole, none,
        .plain⟩
    else if isHigh then ⟨q.text, false, some unit, .plain⟩
    else ⟨Char.ofNat unit :: q.text, false, none, .plain⟩
  | none =>
    if isHigh then ⟨q.text, q.whole, some unit, .plain⟩
    else if isLow then ⟨q.text, false, none, .plain⟩
    else ⟨Char.ofNat unit :: q.text, q.whole, none, .plain⟩

/-- What the character after a backslash stands for. -/
def escaped? : Char → Option Char
  | '"' => some '"'
  | '\\' => some '\\'
  | '/' => some '/'
  | 'b' => some '\x08'
  | 'f' => some '\x0c'
  | 'n' => some '\n'
  | 'r' => some '\r'
  | 't' => some '\t'
  | _ => none

/-- The token of a closed string. -/
def token (q : Quote) : Token :=
  if q.whole && q.high.isNone then .string (String.ofList q.text.reverse) else .garbled

end Quote

/-! ## 3. Inside a number -/

/-- Where a number stands in `-whole.fraction e±exponent`. -/
inductive Stage where
  | sign
  | zero
  | whole
  | point
  | fraction
  | mark
  | exponentSign (negative : Bool)
  | exponent (negative : Bool)
  deriving DecidableEq, Repr

/-- A number read so far, fraction digits latest first. -/
structure Figures where
  stage : Stage
  negative : Bool
  whole : Nat
  fraction : List Nat
  exponent : Nat
  deriving DecidableEq, Repr

namespace Figures

/-- A number that begins with `c`. -/
def start? (c : Char) : Option Figures :=
  if c = '-' then some ⟨.sign, true, 0, [], 0⟩
  else (Text.digit? 10 c).map fun d => ⟨if d = 0 then .zero else .whole, false, d, [], 0⟩

/-- The number with one more character, if that character continues it. -/
def push? (f : Figures) (c : Char) : Option Figures :=
  match f.stage, Text.digit? 10 c with
  | .sign, some d => some { f with stage := if d = 0 then .zero else .whole, whole := d }
  | .whole, some d => some { f with whole := f.whole * 10 + d }
  | .point, some d => some { f with stage := .fraction, fraction := [d] }
  | .fraction, some d => some { f with fraction := d :: f.fraction }
  | .mark, some d => some { f with stage := .exponent false, exponent := d }
  | .exponentSign n, some d => some { f with stage := .exponent n, exponent := d }
  | .exponent n, some d => some { f with stage := .exponent n, exponent := f.exponent * 10 + d }
  | .zero, none | .whole, none =>
    if c = '.' then some { f with stage := .point }
    else if c = 'e' ∨ c = 'E' then some { f with stage := .mark }
    else none
  | .fraction, none => if c = 'e' ∨ c = 'E' then some { f with stage := .mark } else none
  | .mark, none =>
    if c = '+' then some { f with stage := .exponentSign false }
    else if c = '-' then some { f with stage := .exponentSign true }
    else none
  | _, _ => none

/-- The finished number, unless a digit is missing. -/
def numeral? (f : Figures) : Option Numeral :=
  match f.stage with
  | .zero | .whole => some ⟨f.negative, f.whole, [], none⟩
  | .fraction => some ⟨f.negative, f.whole, f.fraction.reverse, none⟩
  | .exponent n =>
    some ⟨f.negative, f.whole, f.fraction.reverse, some (if n then -f.exponent else f.exponent)⟩
  | _ => none

end Figures

/-! ## 4. The scanner -/

/-- The state between two characters of a text. -/
inductive Scan where
  | gap
  | word (left : List Char) (token : Token)
  | quote (text : Quote)
  | figures (number : Figures)
  deriving DecidableEq, Repr

/-- What the first character of a lexeme does: a token that is complete, and the state after it. -/
def Scan.first? (c : Char) : Option (List Token × Scan) :=
  if isGap c then some ([], .gap)
  else match c with
    | '[' => some ([.openArray], .gap)
    | ']' => some ([.closeArray], .gap)
    | '{' => some ([.openObject], .gap)
    | '}' => some ([.closeObject], .gap)
    | ',' => some ([.comma], .gap)
    | ':' => some ([.colon], .gap)
    | '"' => some ([], .quote .empty)
    | 'n' => some ([], .word ['u', 'l', 'l'] .null)
    | 't' => some ([], .word ['r', 'u', 'e'] (.bool true))
    | 'f' => some ([], .word ['a', 'l', 's', 'e'] (.bool false))
    | _ => (Figures.start? c).map fun f => ([], .figures f)

/-- What a character inside a string does. -/
def Scan.quoted? (q : Quote) (c : Char) : Option (List Token × Scan) :=
  match q.escape with
  | .plain =>
    if c = '"' then some ([q.token], .gap)
    else if c = '\\' then some ([], .quote { q with escape := .backslash })
    else if c.toNat < 0x20 then none
    else some ([], .quote (q.push c))
  | .backslash =>
    if c = 'u' then some ([], .quote { q with escape := .hex 4 0 })
    else (Quote.escaped? c).map fun d => ([], .quote (q.push d))
  | .hex missing value =>
    (Text.digit? 16 c).map fun d =>
      let unit := value * 16 + d
      if missing ≤ 1 then ([], .quote (q.pushUnit unit))
      else ([], .quote { q with escape := .hex (missing - 1) unit })

/-- What one character does. A number ends at the first character that does not continue it. -/
def Scan.step? (s : Scan) (c : Char) : Option (List Token × Scan) :=
  match s with
  | .gap => Scan.first? c
  | .word [] _ => none
  | .word (d :: left) token =>
    if c ≠ d then none
    else if left.isEmpty then some ([token], .gap)
    else some ([], .word left token)
  | .quote q => Scan.quoted? q c
  | .figures f =>
    match f.push? c with
    | some f => some ([], .figures f)
    | none => do
      let n ← f.numeral?
      let (tokens, s) ← Scan.first? c
      return (.number n :: tokens, s)

/-- What the end of the text does. -/
def Scan.finish? : Scan → Option (List Token)
  | .gap => some []
  | .figures f => f.numeral?.map fun n => [.number n]
  | _ => none

/-- The tokens of `cs` read from state `s`, after `done` (latest first). -/
def Scan.run (s : Scan) (done : List Token) : List Char → Option (List Token)
  | [] => s.finish?.map fun last => done.reverse ++ last
  | c :: cs =>
    match s.step? c with
    | none => none
    | some (tokens, s) => s.run (tokens.reverse ++ done) cs

/-- The tokens of a text. -/
def scan (text : List Char) : Option (List Token) := Scan.run .gap [] text

end TaskReplay.Json
