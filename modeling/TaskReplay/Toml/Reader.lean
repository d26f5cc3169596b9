import TaskReplay.Toml.Quoted
import TaskReplay.Toml.Scalar
import TaskReplay.Toml.Table

/-!
The table that a TOML text stands for.

What this file fixes:
* a `Reader` is the state between two parts of a text: what is due next, over the arrays and inline
  tables still open, after the sections read so far;
* `Reader.step?` reads one part; `Reader.run` goes on while parts are read and the text gets
  shorter;
* line breaks and comments may stand between the items of an array, but not inside an inline table;
* at most 79 arrays and inline tables are open at one place, and a key has at most 79 parts.
-/

namespace TaskReplay.Toml

/-! ## 1. Between values -/

/-- The number that parts of keys and open containers stay below. -/
def limit : Nat := 80

/-- What follows the end of a line, which may have a comment. -/
def endLine? (cs : List Char) : Option (List Char) :=
  let cs := match skipGaps cs with
    | '#' :: rest => rest.dropWhile isText
    | cs => cs
  match cs with
  | [] => some []
  | '\n' :: rest => some rest
  | '\r' :: '\n' :: rest => some rest
  | _ => none

/-- What follows gaps, line breaks and whole comments. -/
def skipLines? (comment : Bool) : List Char → Option (List Char)
  | [] => if comment then none else some []
  | '\n' :: rest => skipLines? false rest
  | '\r' :: '\n' :: rest => skipLines? false rest
  | c :: rest =>
    if comment then (if isText c then skipLines? true rest else none)
    else if isGap c then skipLines? false rest
    else if c = '#' then skipLines? true rest
    else some (c :: rest)

/-- One part of a key. -/
def part? : List Char → Option (String × List Char)
  | '"' :: rest => Quoted.basic? [] rest
  | '\'' :: rest => Quoted.literal? [] rest
  | cs =>
    let name := cs.takeWhile isBare
    if name.isEmpty then none else some (String.ofList name, cs.dropWhile isBare)

/-- A key of at most `most` parts with dots between them, and what follows it. -/
def path? : (most : Nat) → List Char → Option (List String × List Char)
  | 0, _ => none
  | most + 1, cs => do
    let (part, rest) ← part? (skipGaps cs)
    match skipGaps rest with
    | '.' :: rest =>
      let (parts, rest) ← path? most rest
      return (part :: parts, rest)
    | rest => return ([part], rest)

/-- A key. -/
def key? (cs : List Char) : Option (List String × List Char) := path? (limit - 1) cs

/-- A key with the equals sign after it. -/
def assigned? (cs : List Char) : Option (List String × List Char) := do
  match ← key? cs with
  | (key, '=' :: rest) => return (key, rest)
  | _ => none

/-! ## 2. The state -/

/-- What waits for a value: a line, an array with its items, latest first, or an inline table with
its pairs, latest first. -/
inductive Frame where
  | line (key : List String)
  | array (items : List Toml)
  | table (pairs : List Pair) (key : List String)

/-- What is due next. -/
inductive Due where
  | line
  | value (outer : List Frame)
  | itemOrEnd (items : List Toml) (outer : List Frame)
  | firstPair (outer : List Frame)
  | pair (pairs : List Pair) (outer : List Frame)
  | after (value : Toml) (outer : List Frame)

/-- The state between two parts: what is due, and the sections so far, latest first with their
pairs latest first. -/
structure Reader where
  due : Due
  current : Section
  earlier : List Section

namespace Reader

/-- A text not yet begun. -/
def start : Reader := ⟨.line, ⟨.top, []⟩, []⟩

/-- The state under a new heading. -/
def under (r : Reader) (h : Heading) : Reader := ⟨.line, ⟨h, []⟩, r.current :: r.earlier⟩

/-- The state after a pair. -/
def add (r : Reader) (p : Pair) : Reader :=
  { r with due := .line, current := { r.current with pairs := p :: r.current.pairs } }

/-- The state in which something else is due. -/
def expecting (r : Reader) (d : Due) : Reader := { r with due := d }

/-! ## 3. Steps -/

/-- Reads a heading behind its opening brackets. -/
def heading? (r : Reader) (make : List String → Heading) (brackets : List Char) (cs : List Char) :
    Option (Reader × List Char) := do
  let (path, rest) ← key? cs
  if brackets.isPrefixOf rest then
    return (r.under (make path), ← endLine? (rest.drop brackets.length))
  else none

/-- Reads a line up to its value. -/
def line? (r : Reader) (cs : List Char) : Option (Reader × List Char) :=
  match skipGaps cs with
  | [] | '#' :: _ | '\n' :: _ | '\r' :: _ => (endLine? cs).map fun rest => (r, rest)
  | '[' :: '[' :: rest => r.heading? .item [']', ']'] rest
  | '[' :: rest => r.heading? .table [']'] rest
  | cs => (assigned? cs).map fun (key, rest) => (r.expecting (.value [.line key]), rest)

/-- Reads a value up to its end or, if it is a container, behind its opening bracket. -/
def value? (r : Reader) (outer : List Frame) (cs : List Char) : Option (Reader × List Char) :=
  match skipGaps cs with
  | '[' :: rest => if outer.length < limit then some (r.expecting (.itemOrEnd [] outer), rest) else none
  | '{' :: rest => if outer.length < limit then some (r.expecting (.firstPair outer), rest) else none
  | '"' :: rest => (Quoted.string? ('"' :: rest)).map after
  | '\'' :: rest => (Quoted.string? ('\'' :: rest)).map after
  | cs => (Scalar.value? cs).map fun (v, rest) => (r.expecting (.after v outer), rest)
where
  after : String × List Char → Reader × List Char
    | (s, rest) => (r.expecting (.after (.string s) outer), rest)

/-- Reads a key inside an inline table. -/
def pair? (r : Reader) (pairs : List Pair) (outer : List Frame) (cs : List Char) :
    Option (Reader × List Char) :=
  (assigned? cs).map fun (key, rest) => (r.expecting (.value (.table pairs key :: outer)), rest)

/-- Reads what follows a value. -/
def after? (r : Reader) (v : Toml) : List Frame → List Char → Option (Reader × List Char)
  | [], _ => none
  | .line key :: _, cs => (endLine? cs).map fun rest => (r.add (key, v), rest)
  | .array items :: outer, cs => do
    match ← skipLines? false cs with
    | ',' :: rest => return (r.expecting (.itemOrEnd (v :: items) outer), rest)
    | ']' :: rest => return (r.expecting (.after (.array (v :: items).reverse) outer), rest)
    | _ => none
  | .table pairs key :: outer, cs =>
    match skipGaps cs with
    | ',' :: rest => some (r.expecting (.pair ((key, v) :: pairs) outer), rest)
    | '}' :: rest => (inline? ((key, v) :: pairs).reverse).map fun t =>
        (r.expecting (.after t outer), rest)
    | _ => none

/-- Reads one part of a text. -/
def step? (r : Reader) (cs : List Char) : Option (Reader × List Char) :=
  match r.due with
  | .line => r.line? cs
  | .value outer => r.value? outer cs
  | .itemOrEnd items outer => do
    match ← skipLines? false cs with
    | ']' :: rest => return (r.expecting (.after (.array items.reverse) outer), rest)
    | cs => r.value? (.array items :: outer) cs
  | .firstPair outer =>
    match skipGaps cs with
    | '}' :: rest => some (r.expecting (.after (.table []) outer), rest)
    | cs => r.pair? [] outer cs
  | .pair pairs outer => r.pair? pairs outer cs
  | .after v outer => r.after? v outer cs

/-! ## 4. A whole text -/

/-- The sections of a text that ends in this state. -/
def sections? (r : Reader) : Option (List Section) :=
  let finish (r : Reader) : List Section :=
    (r.current :: r.earlier).reverse.map fun s => { s with pairs := s.pairs.reverse }
  match r.due with
  | .line => some (finish r)
  | .after v [.line key] => some (finish (r.add (key, v)))
  | _ => none

/-- Reads part after part. -/
def run (r : Reader) (cs : List Char) : Option (List Section) :=
  if cs.isEmpty then r.sections?
  else match r.step? cs with
    | none => none
    | some (r, rest) => if rest.length < cs.length then r.run rest else none
termination_by cs.length

end Reader

/-- The text without a byte order mark. -/
def unmarked : List Char → List Char
  | '\uFEFF' :: rest => rest
  | cs => cs

/-- The table that a text stands for. -/
def parse (text : String) : Option (List (String × Toml)) :=
  (Reader.start.run (unmarked text.toList)).bind ofSections?

end TaskReplay.Toml
