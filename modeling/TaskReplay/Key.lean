import TaskReplay.Json.Decode
import TaskReplay.Text.Blank

/-!
Keys of a keyboard and the names that scripts use for them.

What this file fixes:
* `Key.ofName?` trims a name, folds it to lower case and looks it up: first the table of words, then
  function keys, then single characters;
* a function key is an `f` before a number from 1 to 12, and the number may have a plus sign and
  leading zeros;
* `Key.display` is a name that leads back to the key.
-/

namespace TaskReplay

/-! ## 1. Keys -/

/-- A physical key. A letter, digit or symbol is known by its unshifted character. -/
inductive Key where
  | char (c : Char)
  | function (number : UInt8)
  | control
  | alt
  | shift
  | metaKey
  | up
  | down
  | left
  | right
  | home
  | endKey
  | pageUp
  | pageDown
  | enter
  | tab
  | space
  | backspace
  | delete
  | insert
  | escape
  | capsLock
  deriving DecidableEq, Repr

namespace Key

/-! ## 2. Names -/

/-- The words for keys, aliases included. -/
def table : List (String × Key) :=
  [("ctrl", .control), ("control", .control),
   ("alt", .alt), ("option", .alt),
   ("shift", .shift),
   ("win", .metaKey), ("windows", .metaKey), ("meta", .metaKey), ("cmd", .metaKey),
   ("command", .metaKey), ("super", .metaKey),
   ("up", .up), ("down", .down), ("left", .left), ("right", .right),
   ("home", .home), ("end", .endKey),
   ("pageup", .pageUp), ("pgup", .pageUp), ("pagedown", .pageDown), ("pgdn", .pageDown),
   ("enter", .enter), ("return", .enter),
   ("tab", .tab), ("space", .space), ("backspace", .backspace),
   ("delete", .delete), ("del", .delete), ("insert", .insert),
   ("escape", .escape), ("esc", .escape), ("capslock", .capsLock),
   ("minus", .char '-'), ("equal", .char '='), ("comma", .char ','), ("period", .char '.'),
   ("slash", .char '/'), ("backslash", .char '\\')]

/-- Lower case of the characters whose lower case is a letter from `a` to `z`: the ASCII capitals
and the Kelvin sign. No other character can take part in a name. -/
def lower (c : Char) : Char := if c = '\u212a' then 'k' else c.toLower

/-- A name as it is looked up. -/
def normalized (name : String) : List Char := (Text.trimmed name.toList).map lower

/-- A decimal number of at least one digit, with at most one plus sign before it. -/
def number? (cs : List Char) : Option Nat :=
  let ds := match cs with
    | '+' :: rest => rest
    | cs => cs
  if ds.isEmpty || !ds.all Char.isDigit then none
  else some (ds.foldl (fun n c => n * 10 + (c.toNat - '0'.toNat)) 0)

/-- The function key of a name. -/
def functionKey? : List Char → Option Key
  | 'f' :: rest =>
    match number? rest with
    | some n => if 1 ≤ n ∧ n ≤ 12 then some (.function n.toUInt8) else none
    | none => none
  | _ => none

/-- The symbols that are keys of their own. -/
def symbols : List Char := ['-', '=', ',', '.', '/', '\\']

/-- The key of a single character. -/
def characterKey? : List Char → Option Key
  | [c] => if c.isAlphanum || symbols.contains c then some (.char c) else none
  | _ => none

/-- The key of a name, in any case and with blanks around it. -/
def ofName? (name : String) : Option Key :=
  let cs := normalized name
  ((table.lookup (String.ofList cs)).or (functionKey? cs)).or (characterKey? cs)

/-! ## 3. Text and documents -/

/-- The keys without a parameter, by their name in documents and by their display. -/
def plain : List (Key × String × String) :=
  [(.control, "control", "control"), (.alt, "alt", "alt"), (.shift, "shift", "shift"),
   (.metaKey, "meta", "meta"), (.up, "up", "up"), (.down, "down", "down"), (.left, "left", "left"),
   (.right, "right", "right"), (.home, "home", "home"), (.endKey, "end", "end"),
   (.pageUp, "page_up", "pageup"), (.pageDown, "page_down", "pagedown"),
   (.enter, "enter", "enter"), (.tab, "tab", "tab"), (.space, "space", "space"),
   (.backspace, "backspace", "backspace"), (.delete, "delete", "delete"),
   (.insert, "insert", "insert"), (.escape, "escape", "escape"),
   (.capsLock, "caps_lock", "capslock")]

/-- A name of the key. -/
def display : Key → String
  | .char c => String.singleton c
  | .function n => "f" ++ toString n.toNat
  | k => ((plain.lookup k).map (·.2)).getD ""

/-- The key as it stands in documents. -/
def toJson : Key → Json
  | .char c => .object [("char", .string (String.singleton c))]
  | .function n => .object [("f", .ofNat n.toNat)]
  | k => .string (((plain.lookup k).map (·.1)).getD "")

/-- A key in a document. -/
def ofJson? : Json → Option Key
  | .object [("char", v)] => v.char?.map .char
  | .object [("f", v)] => v.uint8?.map .function
  | v => do
    let n ← Json.choice? false (plain.map (·.2.1)) v
    (plain[n]?).map (·.1)

end Key
end TaskReplay
