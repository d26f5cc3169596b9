/-!
TOML values.

What this file fixes:
* a `Toml` value is what stands to the right of a key; a date or time is a `moment`, whose text
  nobody here uses;
* a document is a table: its entries, each name once.
-/

namespace TaskReplay

/-- A TOML value. -/
inductive Toml where
  | string (text : String)
  | integer (value : Int64)
  | float (value : Float)
  | bool (value : Bool)
  | moment
  | array (items : List Toml)
  | table (entries : List (String × Toml))

namespace Toml

instance : Inhabited Toml := ⟨.moment⟩

/-! ## 1. Characters -/

/-- The characters between the words of a line. -/
def isGap (c : Char) : Bool := c == ' ' || c == '\t'

/-- The characters that a comment or a string may hold as they are. -/
def isText (c : Char) : Bool := c == '\t' || (' ' ≤ c && c != '\x7f')

/-- The characters of a key without quotes. -/
def isBare (c : Char) : Bool := c.isAlphanum || c == '_' || c == '-'

/-- The characters of a number, a date or a truth value. -/
def isWord (c : Char) : Bool := isBare c || c == '+' || c == '.' || c == ':'

/-- The rest of a line after gaps. -/
def skipGaps (cs : List Char) : List Char := cs.dropWhile isGap

end Toml
end TaskReplay
