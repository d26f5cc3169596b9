import TaskReplay.Decimal.Layout
import TaskReplay.Settings
import TaskReplay.Text.Blank
import TaskReplay.Toml.Decode
import TaskReplay.Toml.Reader

/-!
The configuration of the command-line program.

What this file fixes:
* a configuration comes from a TOML file, whose every field may be absent, as may the file; then
  variables of the environment replace the address of the store and the log filter;
* it is checked last, and only what is in force is checked;
* `Overrides.apply` replaces the settings that the file names.
-/

namespace TaskReplay

/-! ## 1. Data -/

/-- Settings that a configuration replaces. -/
structure Overrides where
  confidence : Option Float32
  delay : Option UInt64
  delayVariation : Option UInt64
  emergencyKey : Option String

/-- A configuration. -/
structure Config where
  databaseUrl : String
  logFilter : String
  overrides : Overrides
  /-- Where templates are on the simulated screen. -/
  templates : List (String × Point)

/-- What reading a file gives. -/
inductive FileText where
  | missing
  | unreadable
  | text (content : String)
  deriving DecidableEq, Repr

/-- Why there is no configuration. -/
inductive ConfigError where
  | unparsable
  | unreadable
  | emptyUrl
  | confidenceRange (value : Float32)
  | emptyKey

/-- The text of an error. -/
def ConfigError.message : ConfigError → String
  | unparsable => "failed to parse config file"
  | unreadable => "failed to read config file"
  | emptyUrl => "invalid configuration: database url must not be empty"
  | confidenceRange x =>
    "invalid configuration: default_confidence must be between 0 and 1, got " ++
      Decimal.ofFloat32 x
  | emptyKey => "invalid configuration: emergency_stop_key must not be empty"

/-! ## 2. Overrides -/

namespace Overrides

/-- No replacement. -/
def none : Overrides := ⟨.none, .none, .none, .none⟩

/-- The settings with the replacements. -/
def apply (o : Overrides) (s : Settings) : Settings :=
  { s with
    confidence := o.confidence.getD s.confidence
    delay := o.delay.getD s.delay
    delayVariation := o.delayVariation.getD s.delayVariation
    emergencyKey := o.emergencyKey.getD s.emergencyKey }

/-- Whether the replacements make a difference; confidences are compared as numbers. -/
def changes (o : Overrides) (s : Settings) : Bool :=
  let t := o.apply s
  !(t.confidence == s.confidence) || t.delay != s.delay ||
    t.delayVariation != s.delayVariation || t.emergencyKey != s.emergencyKey

/-- The names of the fields in documents. -/
def names : List String :=
  ["default_confidence", "default_delay_ms", "random_delay_variation_ms", "emergency_stop_key"]

/-- Replacements in a document. -/
def ofToml? (v : Toml) : Option Overrides := do
  let fields ← v.record? names
  return {
    confidence := ← Toml.optional fields "default_confidence" Toml.float32?
    delay := ← Toml.optional fields "default_delay_ms" Toml.uint64?
    delayVariation := ← Toml.optional fields "random_delay_variation_ms" Toml.uint64?
    emergencyKey := ← Toml.optional fields "emergency_stop_key" Toml.text? }

end Overrides

namespace Config

/-! ## 3. The file -/

/-- The configuration without a file. -/
def initial : Config :=
  { databaseUrl := "sqlite:macrobot.db?mode=rwc"
    logFilter := "macrobotd=info,macrobot=info"
    overrides := .none
    templates := [] }

/-- A record with a single text. -/
def single? (name absent : String) (v : Toml) : Option String := do
  Toml.defaulted (← v.record? [name]) name absent Toml.text?

/-- A point as a pair of coordinates. -/
def point? : Toml → Option Point
  | .array (x :: y :: _) => do return ⟨← x.int32?, ← y.int32?⟩
  | _ => none

/-- Templates with their points. -/
def templates? (v : Toml) : Option (List (String × Point)) := do
  (← v.entries?).mapM fun e => do return (e.1, ← point? e.2)

/-- The record around the templates. -/
def screen? (v : Toml) : Option (List (String × Point)) := do
  Toml.defaulted (← v.record? ["templates"]) "templates" [] templates?

/-- The configuration in the table of a file. -/
def ofEntries? (fields : List (String × Toml)) : Option Config := do
  return {
    databaseUrl :=
      ← Toml.defaulted fields "database" initial.databaseUrl (single? "url" initial.databaseUrl)
    logFilter :=
      ← Toml.defaulted fields "logging" initial.logFilter (single? "filter" initial.logFilter)
    overrides := ← Toml.defaulted fields "automation" .none Overrides.ofToml?
    templates := ← Toml.defaulted fields "virtual_screen" [] screen? }

/-- The configuration in a file. -/
def ofFile : FileText → Except ConfigError Config
  | .missing => .ok initial
  | .unreadable => .error .unreadable
  | .text content =>
    match (Toml.parse content).bind ofEntries? with
    | some c => .ok c
    | none => .error .unparsable

/-! ## 4. Environment and checks -/

/-- The configuration under an environment. -/
def under (c : Config) (environment : String → Option String) : Config :=
  { c with
    databaseUrl := (environment "MACROBOT_DATABASE_URL").getD c.databaseUrl
    logFilter := ((environment "RUST_LOG").or (environment "MACROBOT_LOG")).getD c.logFilter }

/-- The first thing that is wrong with a configuration. -/
def check (c : Config) : Except ConfigError Unit := do
  if Text.onlyBlanks c.databaseUrl then throw .emptyUrl
  if let some x := c.overrides.confidence then
    if !(0 ≤ x && x ≤ 1) then throw (.confidenceRange x)
  if let some key := c.overrides.emergencyKey then
    if Text.onlyBlanks key then throw .emptyKey

/-- The configuration in force. -/
def load (file : FileText) (environment : String → Option String) : Except ConfigError Config := do
  let c := (← ofFile file).under environment
  c.check
  return c

end Config
end TaskReplay
