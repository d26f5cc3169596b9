import TaskReplay.CommandLine.Session

/-!
How a rehearsal answers the command-line program.

What this file fixes:
* a `Folder` is the directory that the program is called in: its files, its stores, and nothing
  around it;
* a folder inside it exists if something lies in it; a store is no text, and only an empty file
  counts as a store without anything;
* identifiers are numbers in order.
-/

namespace TaskReplay.Rehearsal

open CommandLine

/-- A directory with a clock. Paths are lists of names. -/
structure Folder where
  files : Assoc (List String) FileText
  stores : Assoc (List String) Store
  environment : String → Option String
  clock : Timestamp
  /-- The number of identifiers given out. -/
  given : Nat

namespace Folder

/-! ## 1. Paths -/

/-- The names on a path, unless it leaves the folder. -/
def names? (path : String) : Option (List String) :=
  if path.startsWith "/" then none
  else ((path.toList.splitOn '/').map String.ofList).foldlM (fun names part =>
    if part = "" ∨ part = "." then some names
    else if part = ".." then (if names = [] then none else some names.dropLast)
    else some (names ++ [part])) []

/-- Whether a folder of that name exists. -/
def isFolder (f : Folder) (names : List String) : Bool :=
  let holds (inner : List String) : Bool :=
    names.isPrefixOf inner && decide (names.length < inner.length)
  names.isEmpty || f.files.entries.any (fun e => holds e.1) ||
    f.stores.entries.any (fun e => holds e.1)

/-- A folder with a file. -/
def put (f : Folder) (path : String) (content : FileText) : Folder :=
  match names? path with
  | some names => { f with files := f.files.set names content }
  | none => f

/-! ## 2. Answers -/

/-- What reading a file gives. -/
def read (f : Folder) (path : String) : FileText :=
  match names? path with
  | none => .missing
  | some names =>
    if f.isFolder names || (f.stores.get? names).isSome then .unreadable
    else (f.files.get? names).getD .missing

/-- The store at a location. -/
def find? (f : Folder) (l : Location) (names : List String) : Option Store :=
  match f.stores.get? names, f.files.get? names with
  | some s, _ => some s
  | none, some content => if content = .text "" ∧ !l.readOnly then some .empty else none
  | none, none => if l.readOnly then none else some .empty

/-- Opens a store or makes it. -/
def openStore (f : Folder) (l : Location) : Option Store × Folder :=
  match names? l.path with
  | none => (none, f)
  | some names =>
    if f.isFolder names || !f.isFolder names.dropLast || l.path.endsWith "/" then (none, f)
    else match f.find? l names with
      | some s => (some s, { f with stores := f.stores.set names s })
      | none => (none, f)

/-- Puts a store into the folder. -/
def writeStore (f : Folder) (l : Location) (s : Store) : Bool × Folder :=
  match names? l.path with
  | some names =>
    if l.readOnly then (false, f) else (true, { f with stores := f.stores.set names s })
  | none => (false, f)

/-- The answer to a request. -/
def answer (f : Folder) : (q : HostRequest) → q.Answer × Folder
  | .readText path => (f.read path, f)
  | .environment name => (f.environment name, f)
  | .openStore l => f.openStore l
  | .writeStore l s => f.writeStore l s
  | .freshId => (⟨BitVec.ofNat 128 (f.given + 1)⟩, { f with given := f.given + 1 })
  | .now => (f.clock, f)

/-- One call of the program. -/
def call (f : Folder) (arguments : List String) : Exit × Folder := (session arguments).run answer f

/-- Calls of the program one after the other. -/
def calls : Folder → List (List String) → List Exit
  | _, [] => []
  | f, arguments :: rest =>
    let (exit, f) := f.call arguments
    exit :: calls f rest

end Folder
end TaskReplay.Rehearsal
