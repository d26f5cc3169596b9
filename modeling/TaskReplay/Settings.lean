import TaskReplay.Geometry

/-!
Settings shared by all runs.

What this file fixes:
* the defaults, which stand in for every field a document leaves out;
* `delay`, `confidence` and `captureRegion` are what a step falls back on.
-/

namespace TaskReplay

/-- Timing and search defaults. -/
structure Settings where
  /-- Confidence of searches that name none. -/
  confidence : Float32
  /-- Pause after a step that names none. -/
  delay : UInt64
  /-- Random part of the pause after a step. -/
  delayVariation : UInt64
  /-- The key that the host binds to the emergency stop. -/
  emergencyKey : String
  /-- Whether matches are shown on screen. -/
  highlight : Bool
  /-- The part of the screen that searches without a region look at. -/
  captureRegion : Option Region
  deriving DecidableEq

namespace Settings

/-- The settings of a fresh installation. -/
def initial : Settings :=
  { confidence := 0.9, delay := 100, delayVariation := 50, emergencyKey := "F12", highlight := true,
    captureRegion := none }

instance : Inhabited Settings := ⟨initial⟩

/-- The names of the fields in documents. -/
def names : List String :=
  ["default_confidence", "default_delay_ms", "random_delay_variation_ms", "emergency_stop_key",
    "highlight_matches", "capture_region"]

/-- What a reader of settings looks at. -/
def shape : Json.Shape :=
  .record ((names.take 5).map (fun n => (n, .whole)) ++ [("capture_region", .flat Region.names)])

/-- Settings in a document. -/
def ofJson? (v : Json) : Option Settings := do
  let r ← Json.Record.of? names v
  return {
    confidence := ← r.defaulted "default_confidence" initial.confidence Json.float32?
    delay := ← r.defaulted "default_delay_ms" initial.delay Json.uint64?
    delayVariation :=
      ← r.defaulted "random_delay_variation_ms" initial.delayVariation Json.uint64?
    emergencyKey := ← r.defaulted "emergency_stop_key" initial.emergencyKey Json.text?
    highlight := ← r.defaulted "highlight_matches" initial.highlight Json.bool?
    captureRegion :=
      ← r.defaulted "capture_region" initial.captureRegion (Json.nullable Region.ofJson?) }

/-- Settings as they stand in documents. -/
def toJson (s : Settings) : Json :=
  .object
    [("default_confidence", .ofFloat32 s.confidence),
     ("default_delay_ms", .ofNat s.delay.toNat),
     ("random_delay_variation_ms", .ofNat s.delayVariation.toNat),
     ("emergency_stop_key", .string s.emergencyKey),
     ("highlight_matches", .bool s.highlight),
     ("capture_region", .ofOption Region.toJson s.captureRegion)]

end Settings
end TaskReplay
