import TaskReplay.Json.Decode

/-!
Points and regions of the screen, and what a search finds.

What this file fixes:
* coordinates are 32-bit words; moving a point stops at the ends of that range;
* a region contains the points of a half-open box measured in unbounded whole numbers, so a box may
  reach past the range of coordinates;
* a search that finds nothing is an answer (`Match.notFound`), not an error.
-/

namespace TaskReplay

/-! ## 1. Points -/

/-- The coordinate nearest to a whole number. -/
def coordinate (n : Int) : Int32 := Int32.ofInt (Width.clampInt32 n)

/-- A pixel position. -/
structure Point where
  x : Int32
  y : Int32
  deriving DecidableEq, Repr, Inhabited

namespace Point

/-- The upper left corner of the screen. -/
def origin : Point := ⟨0, 0⟩

/-- The point moved by `(dx, dy)`, no further than the range of coordinates. -/
def offset (p : Point) (dx dy : Int) : Point :=
  ⟨coordinate (p.x.toInt + dx), coordinate (p.y.toInt + dy)⟩

/-- Coordinates as they are compared with text: `x,y`. -/
def pair (p : Point) : String := toString p.x.toInt ++ "," ++ toString p.y.toInt

/-- Coordinates in parentheses. -/
def display (p : Point) : String :=
  "(" ++ toString p.x.toInt ++ ", " ++ toString p.y.toInt ++ ")"

/-- The names of a point's fields. -/
def names : List String := ["x", "y"]

/-- A point in a document. -/
def ofJson? (v : Json) : Option Point := do
  let r ← Json.Record.of? names v
  return ⟨← r.required "x" Json.int32?, ← r.required "y" Json.int32?⟩

/-- A point as it stands in documents. -/
def toJson (p : Point) : Json :=
  .object [("x", .ofInt p.x.toInt), ("y", .ofInt p.y.toInt)]

end Point

/-! ## 2. Regions -/

/-- A box on the screen. -/
structure Region where
  x : Int32
  y : Int32
  width : UInt32
  height : UInt32
  deriving DecidableEq, Repr, Inhabited

namespace Region

/-- The middle of a region, towards the upper left. -/
def center (r : Region) : Point :=
  (Point.mk r.x r.y).offset (r.width.toNat / 2 : Nat) (r.height.toNat / 2 : Nat)

/-- Whether a point lies in a region. -/
def contains (r : Region) (p : Point) : Bool :=
  r.x.toInt ≤ p.x.toInt && r.y.toInt ≤ p.y.toInt &&
    p.x.toInt < r.x.toInt + r.width.toNat && p.y.toInt < r.y.toInt + r.height.toNat

/-- The names of a region's fields. -/
def names : List String := ["x", "y", "width", "height"]

/-- A region in a document. -/
def ofJson? (v : Json) : Option Region := do
  let r ← Json.Record.of? names v
  return ⟨← r.required "x" Json.int32?, ← r.required "y" Json.int32?,
    ← r.required "width" Json.uint32?, ← r.required "height" Json.uint32?⟩

/-- A region as it stands in documents. -/
def toJson (r : Region) : Json :=
  .object [("x", .ofInt r.x.toInt), ("y", .ofInt r.y.toInt), ("width", .ofNat r.width.toNat),
    ("height", .ofNat r.height.toNat)]

end Region

/-! ## 3. Matches -/

/-- What a search for a template gives. -/
structure Match where
  found : Bool
  point : Option Point
  region : Option Region
  confidence : Option Float32
  deriving DecidableEq

namespace Match

/-- Nothing found. -/
def notFound : Match := ⟨false, none, none, none⟩

/-- A match that covers a region; its point is the centre. -/
def foundIn (r : Region) (confidence : Option Float32) : Match :=
  ⟨true, some r.center, some r, confidence⟩

/-- A match known by its point only. -/
def foundAt (p : Point) : Match := ⟨true, some p, none, none⟩

/-- The point of a match that was found. -/
def location (m : Match) : Option Point := if m.found then m.point else none

@[simp] theorem location_notFound : notFound.location = none := rfl
@[simp] theorem location_foundAt (p : Point) : (foundAt p).location = some p := rfl

/-- The names of a match's fields. -/
def names : List String := ["found", "point", "region", "confidence"]

/-- What a reader of a match looks at. -/
def shape : Json.Shape :=
  .record [("found", .whole), ("point", .flat Point.names), ("region", .flat Region.names),
    ("confidence", .whole)]

/-- A match in a document. -/
def ofJson? (v : Json) : Option Match := do
  let r ← Json.Record.of? names v
  return ⟨← r.required "found" Json.bool?, ← r.optional "point" Point.ofJson?,
    ← r.optional "region" Region.ofJson?, ← r.optional "confidence" Json.float32?⟩

/-- A match as it stands in documents. -/
def toJson (m : Match) : Json :=
  .object [("found", .bool m.found), ("point", .ofOption Point.toJson m.point),
    ("region", .ofOption Region.toJson m.region),
    ("confidence", .ofOption Json.ofFloat32 m.confidence)]

end Match
end TaskReplay
