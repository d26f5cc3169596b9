/-!
Blank characters and the texts made of them.

What this file fixes:
* `isBlank` is membership in Unicode's `White_Space` table, all twenty-five code points of it;
* `trim` cuts blanks off both ends and nowhere else;
* `onlyBlanks` is the test behind every "must not be empty" rule of the library.
-/

namespace TaskReplay.Text

/-! ## 1. The table -/

/-- The code points with the property `White_Space`. -/
def isBlank (c : Char) : Bool :=
  let n := c.toNat
  (0x09 ≤ n && n ≤ 0x0D) || n == 0x20 || n == 0x85 || n == 0xA0 || n == 0x1680 ||
    (0x2000 ≤ n && n ≤ 0x200A) || n == 0x2028 || n == 0x2029 || n == 0x202F || n == 0x205F ||
    n == 0x3000

/-! ## 2. Cutting blanks off a text -/

/-- The characters from the first that is not blank to the last that is not blank. -/
def trimmed (cs : List Char) : List Char :=
  ((cs.dropWhile isBlank).reverse.dropWhile isBlank).reverse

/-- The text without the blanks at its ends. -/
def trim (s : String) : String := String.ofList (trimmed s.toList)

@[simp] theorem toList_trim (s : String) : (trim s).toList = trimmed s.toList := by
  simp [trim]

/-- A text with nothing but blanks in it, the empty text included. -/
def onlyBlanks (s : String) : Bool := s.toList.all isBlank

theorem onlyBlanks_iff (s : String) : onlyBlanks s = true ↔ ∀ c ∈ s.toList, isBlank c = true := by
  simp [onlyBlanks]

end TaskReplay.Text
