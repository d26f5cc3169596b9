/-!
The arguments of the program.

What this file fixes:
* `Arguments.read` gives the command that arguments ask for, or a page of help, or finds misuse;
* arguments count from left to right: the first that asks for help or is wrong decides;
* behind `--` every argument is a value, whatever it begins with.
-/

namespace TaskReplay.CommandLine

/-! ## 1. Commands and pages -/

/-- What the program can do. -/
inductive Command where
  /-- Prints the stored tasks. -/
  | list
  /-- Stores the task of a file and runs it. -/
  | run (path : String)
  deriving DecidableEq, Repr

/-- What arguments ask for. -/
inductive Wish where
  | command (command : Command)
  /-- A page of text. -/
  | page (text : String)
  | misuse
  deriving DecidableEq, Repr

/-- The name and the version. -/
def versionPage : String := "macrobotd 0.1.0\n"

/-- Lines as a page. -/
def page (lines : List String) : String := String.join (lines.map fun line => line ++ "\n")

/-- Help on the program. -/
def programPage : String := page
  ["Replay scripted UI-automation tasks",
   "",
   "Usage: macrobotd <COMMAND>",
   "",
   "Commands:",
   "  list  Print stored tasks",
   "  run   Store the task defined in a JSON file and run it",
   "  help  Print this message or the help of the given subcommand(s)",
   "",
   "Options:",
   "  -h, --help     Print help",
   "  -V, --version  Print version"]

/-- Help on `list`. -/
def listPage : String := page
  ["Print stored tasks",
   "",
   "Usage: macrobotd list",
   "",
   "Options:",
   "  -h, --help  Print help"]

/-- Help on `run`. -/
def runPage : String := page
  ["Store the task defined in a JSON file and run it",
   "",
   "Usage: macrobotd run <PATH>",
   "",
   "Arguments:",
   "  <PATH>  Path to the task definition",
   "",
   "Options:",
   "  -h, --help  Print help"]

/-- Help on `help`. -/
def helpPage : String := page
  ["Print this message or the help of the given subcommand(s)",
   "",
   "Usage: macrobotd help [COMMAND]...",
   "",
   "Arguments:",
   "  [COMMAND]...  Print help for the subcommand(s)"]

/-- What is said about misuse. -/
def usageNote : String :=
  page ["Usage: macrobotd <COMMAND>", "", "For more information, try '--help'."]

/-! ## 2. One argument -/

/-- The kinds of argument. -/
inductive Argument where
  | value (text : String)
  /-- A long option with its name. -/
  | long (name : String)
  /-- Short options in one word, of which the first decides. -/
  | short (first : Char)
  /-- The end of the options. -/
  | rest
  deriving DecidableEq, Repr

/-- The kind of an argument. A single hyphen is a value. -/
def Argument.ofText (s : String) : Argument :=
  match s.toList with
  | ['-', '-'] => rest
  | '-' :: '-' :: name => long (String.ofList name)
  | '-' :: c :: _ => short c
  | _ => value s

/-- Whether an argument asks for help. -/
def Argument.isHelp (a : Argument) : Bool := a = long "help" || a = short 'h'

/-- Whether an argument asks for the version. -/
def Argument.isVersion (a : Argument) : Bool := a = long "version" || a = short 'V'

/-! ## 3. All arguments -/

namespace Arguments

/-- The arguments of `list`. -/
def readList : List String → Wish
  | [] => .command .list
  | a :: more =>
    let a := Argument.ofText a
    if a.isHelp then .page listPage
    else if a = .rest ∧ more = [] then .command .list
    else .misuse

/-- The wish to run the file of a path, which must not be empty. -/
def runOn : List String → Wish
  | [path] => if path.isEmpty then .misuse else .command (.run path)
  | _ => .misuse

/-- The arguments of `run` behind its path. -/
def readRunEnd (path : String) : List String → Wish
  | [] => runOn [path]
  | a :: more =>
    match Argument.ofText a with
    | .rest => runOn (path :: more)
    | a => if a.isHelp ∧ !path.isEmpty then .page runPage else .misuse

/-- The arguments of `run`. -/
def readRun : List String → Wish
  | [] => .misuse
  | a :: more =>
    match Argument.ofText a with
    | .rest => runOn more
    | .value path => readRunEnd path more
    | a => if a.isHelp then .page runPage else .misuse

/-- The arguments of `help`. -/
def readHelp : List String → Wish
  | [] => .page programPage
  | ["list"] => .page listPage
  | ["run"] => .page runPage
  | ["help"] => .page helpPage
  | _ => .misuse

/-- What all arguments ask for. -/
def read : List String → Wish
  | "list" :: more => readList more
  | "run" :: more => readRun more
  | "help" :: more => readHelp more
  | a :: _ =>
    let a := Argument.ofText a
    if a.isHelp then .page programPage else if a.isVersion then .page versionPage else .misuse
  | [] => .misuse

end Arguments
end TaskReplay.CommandLine
