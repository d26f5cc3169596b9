import TaskReplay.CommandLine.Session
import TaskReplay.Store.Codec
import Std.Time.DateTime.Timestamp

/-!
The program.

What this file fixes:
* how the machine answers the requests of a call; everything else is decided by `session`;
* stores are text files, and a run takes virtual time.
-/

namespace TaskReplay

open CommandLine

/-- What reading a file gives. -/
def readText (path : String) : IO FileText := do
  try
    return .text (← IO.FS.readFile path)
  catch
    | .noFileOrDirectory .. => return .missing
    | _ => return .unreadable

/-- The store at a location, which is made if it is missing. -/
def openStore (l : Location) : IO (Option Store) := do
  match ← readText l.path with
  | .text content => return Store.ofText? content
  | .unreadable => return none
  | .missing =>
    if l.readOnly then return none
    try
      IO.FS.writeFile l.path Store.empty.toText
      return some .empty
    catch _ => return none

/-- Puts a store at a location. -/
def writeStore (l : Location) (s : Store) : IO Bool := do
  if l.readOnly then return false
  try
    IO.FS.writeFile l.path s.toText
    return true
  catch _ => return false

/-- A random identifier of version 4. -/
def freshId : IO TaskId := do
  let bytes := (← IO.getRandomBytes 16).toList
  let random := bytes.foldl (fun n b => n * 256 + b.toNat) 0
  return .version4 random

/-- The date and time. -/
def currentTime : IO Timestamp := do
  let t ← Std.Time.Timestamp.now
  return .ofUnix t.val.second.val.toNat t.val.nano.val.toNat

/-- How the machine answers. -/
def hostAnswer : (q : HostRequest) → IO q.Answer
  | .readText path => readText path
  | .environment name => IO.getEnv name
  | .openStore l => openStore l
  | .writeStore l s => writeStore l s
  | .freshId => freshId
  | .now => currentTime

end TaskReplay

/-- Does what the arguments ask for. -/
def main (arguments : List String) : IO UInt32 := do
  let exit ← (TaskReplay.CommandLine.session arguments).perform TaskReplay.hostAnswer
  IO.print exit.output
  IO.eprint exit.errors
  return exit.code
