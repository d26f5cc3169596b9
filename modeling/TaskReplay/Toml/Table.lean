import TaskReplay.Assoc
import TaskReplay.Toml.Basic

/-!
Tables under construction.

What this file fixes:
* a table remembers how it came to be: by its own heading, by the heading of a table inside it, or
  by a dotted key;
* a heading may take over a table that exists only because of a table inside it, once;
* a dotted key goes through tables that have no heading of their own and ends in one that dotted
  keys made; a name is never written twice;
* a path through a sequence of tables goes through the last of them.
-/

namespace TaskReplay.Toml

/-! ## 1. Nodes -/

/-- How a table came to be. -/
inductive Origin where
  | heading
  | implied
  | dotted
  deriving DecidableEq, Repr

/-- What stands under a name while a document is read. -/
inductive Node where
  | value (value : Toml)
  | table (origin : Origin) (entries : List (String × Node))
  | tables (items : List (List (String × Node)))

/-- The entries of a table under construction. -/
abbrev Entries := List (String × Node)

mutual

/-- The finished value. -/
def Node.finish : Node → Toml
  | .value v => v
  | .table _ entries => .table (finishEntries entries)
  | .tables items => .array (finishTables items)

/-- The finished entries of a table. -/
def finishEntries : List (String × Node) → List (String × Toml)
  | [] => []
  | (name, n) :: rest => (name, n.finish) :: finishEntries rest

/-- The finished tables of a sequence. -/
def finishTables : List (List (String × Node)) → List Toml
  | [] => []
  | t :: rest => .table (finishEntries t) :: finishTables rest

end

/-! ## 2. Keys -/

/-- The entries with a value under a dotted key. -/
def put? : (path : List String) → Toml → Entries → Option Entries
  | [], _, _ => none
  | [name], v, es =>
    match es.lookup name with
    | none => some (Assoc.put name (.value v) es)
    | some _ => none
  | name :: next :: path, v, es =>
    match es.lookup name with
    | none => (put? (next :: path) v []).map fun inner => Assoc.put name (.table .dotted inner) es
    | some (.table origin inner) =>
      if origin = .heading ∨ (origin = .implied ∧ path = []) then none
      else (put? (next :: path) v inner).map fun inner => Assoc.put name (.table origin inner) es
    | some (.tables items) =>
      if path = [] then none
      else (put? (next :: path) v (items.getLast?.getD [])).map fun inner =>
        Assoc.put name (.tables (items.dropLast ++ [inner])) es
    | some (.value _) => none

/-- A pair of dotted key and value. -/
abbrev Pair := List String × Toml

/-- The entries with more pairs. -/
def putAll? (pairs : List Pair) (es : Entries) : Option Entries :=
  pairs.foldlM (fun es p => put? p.1 p.2 es) es

/-- The table that pairs between braces make. -/
def inline? (pairs : List Pair) : Option Toml :=
  (putAll? pairs []).map fun es => .table (finishEntries es)

/-! ## 3. Sections -/

/-- The heading of a section. -/
inductive Heading where
  /-- The part before the first heading. -/
  | top
  | table (path : List String)
  /-- One more table of a sequence. -/
  | item (path : List String)

/-- A heading and the pairs under it. -/
structure Section where
  heading : Heading
  pairs : List Pair

/-- The entries with another node at the end of a path. -/
def enter? (change : Option Node → Option Node) : (path : List String) → Entries → Option Entries
  | [], _ => none
  | [name], es => (change (es.lookup name)).map fun n => Assoc.put name n es
  | name :: next :: path, es =>
    match es.lookup name with
    | none => (enter? change (next :: path) []).map fun inner =>
        Assoc.put name (.table .implied inner) es
    | some (.table origin inner) => (enter? change (next :: path) inner).map fun inner =>
        Assoc.put name (.table origin inner) es
    | some (.tables items) =>
      (enter? change (next :: path) (items.getLast?.getD [])).map fun inner =>
        Assoc.put name (.tables (items.dropLast ++ [inner])) es
    | some (.value _) => none

/-- The entries of a document with one more section. -/
def Section.add? (s : Section) (es : Entries) : Option Entries :=
  let open? (inner : Entries) : Option Node := (putAll? s.pairs inner).map (.table .heading)
  match s.heading with
  | .top => putAll? s.pairs es
  | .table path => enter? (fun
      | none => open? []
      | some (.table .implied inner) => open? inner
      | _ => none) path es
  | .item path => enter? (fun
      | none => (putAll? s.pairs []).map fun t => .tables [t]
      | some (.tables items) => (putAll? s.pairs []).map fun t => .tables (items ++ [t])
      | _ => none) path es

/-- The table of a document. -/
def ofSections? (ss : List Section) : Option (List (String × Toml)) :=
  (ss.foldlM (fun es (s : Section) => s.add? es) []).map finishEntries

end TaskReplay.Toml
