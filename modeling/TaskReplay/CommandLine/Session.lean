import TaskReplay.Catalog
import TaskReplay.CommandLine.Alone
import TaskReplay.CommandLine.Arguments
import TaskReplay.CommandLine.Location
import TaskReplay.CommandLine.Report
import TaskReplay.Config

/-!
One call of the program.

What this file fixes:
* `HostRequest` is all that the program wants from the machine it runs on;
* a call reads its arguments, its configuration, its store and its settings in that order, and the
  first that is in trouble ends it;
* the settings are stored when the configuration changes them; a task is stored before it runs, and
  its record after it ran, however the run ended.
-/

namespace TaskReplay.CommandLine

/-! ## 1. Requests -/

/-- A question to the host. -/
inductive HostRequest where
  | readText (path : String)
  /-- A variable of the environment. -/
  | environment (name : String)
  /-- The store at a location, which is made if it is missing; nothing if that fails. -/
  | openStore (location : Location)
  /-- Puts a store at a location; tells whether that worked. -/
  | writeStore (location : Location) (store : Store)
  /-- An identifier that nobody has. -/
  | freshId
  /-- The date and time. -/
  | now

/-- The answers of the host. -/
abbrev HostRequest.Answer : HostRequest → Type
  | readText _ => FileText
  | environment _ => Option String
  | openStore _ => Option Store
  | writeStore _ _ => Bool
  | freshId => TaskId
  | now => Timestamp

/-- A program that asks the host. -/
abbrev HostProg := Prog HostRequest HostRequest.Answer

/-- A part of a call, which may be in trouble. -/
abbrev Session := ExceptT Trouble HostProg

namespace Session

/-- Asks one question. -/
def ask (q : HostRequest) : Session q.Answer := ExceptT.lift (Prog.request q)

/-- The value of an answer that may be a failure. -/
def orFail : Except Failure α → Session α
  | .ok a => pure a
  | .error f => throw (.ofFailure f)

/-! ## 2. Beginning -/

/-- The name of the configuration file. -/
def configPath : String := "macrobot.toml"

/-- The variables of the environment that count. -/
def variableNames : List String := ["MACROBOT_DATABASE_URL", "MACROBOT_LOG", "RUST_LOG"]

/-- The configuration in force. -/
def loadConfig : Session Config := do
  let file ← ask (.readText configPath)
  let values ← variableNames.mapM fun name => do return (name, ← ask (.environment name))
  match Config.load file fun name => (values.lookup name).join with
  | .ok c => return c
  | .error e => throw ⟨"failed to load configuration", [e.message]⟩

/-- Where the store is, and the store. -/
def openStore (c : Config) : Session (Location × Store) := do
  let trouble (cause : String) : Trouble := ⟨"failed to open database", [cause]⟩
  match Location.ofUrl? c.databaseUrl with
  | none => throw (trouble "unknown address")
  | some location =>
    if location.memory then return (location, .empty)
    match ← ask (.openStore location) with
    | some store => return (location, store)
    | none => throw (trouble "unable to open database file")

/-- Stores what changed. -/
def write (location : Location) (store : Store) : Session Unit := do
  if !location.memory then
    if !(← ask (.writeStore location store)) then
      throw (.ofFailure (.storage (.reported "database error")))

/-- The store with the settings that the configuration wants. -/
def settle (c : Config) (location : Location) (store : Store) : Session Store := do
  let settings ← orFail store.loadSettings
  if c.overrides.changes settings then
    let store := store.saveSettings (c.overrides.apply settings)
    write location store
    return store
  return store

/-! ## 3. Commands -/

/-- The task in a file. -/
def readTask (path : String) : Session Task := do
  let content ← match ← ask (.readText path) with
    | .text content => pure content
    | .missing => throw ⟨"failed to read " ++ path, ["no such file"]⟩
    | .unreadable => throw ⟨"failed to read " ++ path, ["not a readable text"]⟩
  match Task.Draft.ofText? content with
  | none => throw ⟨"failed to parse " ++ path, ["not a task definition"]⟩
  | some draft =>
    match draft.build (← ask .freshId) (← ask .now) with
    | .ok task => return task
    | .error ps => throw ⟨path ++ " is not a valid task", [Problem.summary ps]⟩

/-- The screen of a configuration. -/
def screenOf (c : Config) : Screen :=
  c.templates.foldl (fun s t => s.apply (.showAt t.1 t.2)) .blank

/-- Stores the task of a file and runs it; gives the output. -/
def runFile (c : Config) (location : Location) (store : Store) (path : String) :
    Session String := do
  let task ← readTask path
  let now ← ask .now
  let (saved, store) := store.perform now (Catalog.save task)
  let task ← orFail saved
  write location store
  let (result, after) := (Alone.start store (screenOf c) now).run task.id
  write location after.store
  match result with
  | .ok outcome => return task.name ++ ": " ++ outcome.name ++ "\n"
  | .error e => throw ⟨"run failed", engineChain e⟩

/-- Does a command; gives the output. -/
def command (cmd : Command) : Session String := do
  let config ← loadConfig
  let (location, store) ← openStore config
  let store ← settle config location store
  match cmd with
  | .list => return listing (← orFail store.all)
  | .run path => runFile config location store path

end Session

/-! ## 4. The whole call -/

/-- A call of the program with its arguments. -/
def session (arguments : List String) : HostProg Exit :=
  match Arguments.read arguments with
  | .page text => return ⟨0, text, ""⟩
  | .misuse => return ⟨2, "", usageNote⟩
  | .command cmd => do
    match ← (Session.command cmd).run with
    | .ok output => return ⟨0, output, ""⟩
    | .error trouble => return trouble.exit

end TaskReplay.CommandLine
