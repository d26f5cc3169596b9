import TaskReplay.Json.Token

/-!
The text of a JSON value.

What this file fixes:
* `tokens` lists the lexemes of a value, `Token.text` spells each, `print` joins them without
  blanks;
* in strings only the quote, the backslash and the control characters are escaped;
* a numeral is spelled from its own digits, so reading it back gives the same numeral.
-/

namespace TaskReplay.Json

/-! ## 1. Spelling -/

/-- A hexadecimal digit, lower case. -/
def hexDigit (n : Nat) : Char := if n < 10 then Char.ofNat (48 + n) else Char.ofNat (87 + n)

/-- The spelling of a character inside a string. -/
def escape (c : Char) : List Char :=
  if c = '"' then ['\\', '"']
  else if c = '\\' then ['\\', '\\']
  else if c = '\n' then ['\\', 'n']
  else if c = '\r' then ['\\', 'r']
  else if c = '\t' then ['\\', 't']
  else if c = '\x08' then ['\\', 'b']
  else if c = '\x0c' then ['\\', 'f']
  else if c.toNat < 0x20 then
    ['\\', 'u', '0', '0', hexDigit (c.toNat / 16), hexDigit (c.toNat % 16)]
  else [c]

/-- A string in quotes. -/
def quoted (s : String) : List Char := '"' :: (s.toList.flatMap escape ++ ['"'])

/-- The digits of a natural number. -/
def digits (n : Nat) : List Char := Nat.toDigits 10 n

/-- The spelling of a numeral. -/
def numeralText (n : Numeral) : List Char :=
  (if n.negative then ['-'] else []) ++ digits n.whole ++
    (if n.fraction.isEmpty then [] else '.' :: n.fraction.map Nat.digitChar) ++
    match n.exponent with
    | none => []
    | some e => ['e', if e < 0 then '-' else '+'] ++ digits e.natAbs

/-- The spelling of a token. A garbled string is spelled as one lone surrogate. -/
def Token.text : Token → List Char
  | .openArray => ['[']
  | .closeArray => [']']
  | .openObject => ['{']
  | .closeObject => ['}']
  | .comma => [',']
  | .colon => [':']
  | .null => ['n', 'u', 'l', 'l']
  | .bool true => ['t', 'r', 'u', 'e']
  | .bool false => ['f', 'a', 'l', 's', 'e']
  | .number n => numeralText n
  | .string s => quoted s
  | .garbled => ['"', '\\', 'u', 'd', '8', '0', '0', '"']

/-! ## 2. The tokens of a value -/

mutual

/-- The lexemes of a value. -/
def tokens : Json → List Token
  | .null => [.null]
  | .bool b => [.bool b]
  | .number n => [.number n]
  | .string s => [.string s]
  | .garbled => [.garbled]
  | .array [] => [.openArray, .closeArray]
  | .array (v :: rest) => .openArray :: (tokens v ++ (itemTokens rest ++ [.closeArray]))
  | .object [] => [.openObject, .closeObject]
  | .object ((name, v) :: rest) =>
    .openObject :: .string name :: .colon :: (tokens v ++ (memberTokens rest ++ [.closeObject]))

/-- The lexemes of the items after the first. -/
def itemTokens : List Json → List Token
  | [] => []
  | v :: rest => .comma :: (tokens v ++ itemTokens rest)

/-- The lexemes of the members after the first. -/
def memberTokens : List (String × Json) → List Token
  | [] => []
  | (name, v) :: rest => .comma :: .string name :: .colon :: (tokens v ++ memberTokens rest)

end

/-- The text of a value. -/
def print (v : Json) : String := String.ofList ((tokens v).flatMap Token.text)

end TaskReplay.Json
