import TaskReplay.Assoc
import TaskReplay.Geometry

/-!
A simulated screen.

What this file fixes:
* for each template the screen knows what it shows, which answers are queued and how often it was
  searched;
* a queued answer comes before what is shown, and one is used up by every search;
* a match outside the region asked for is no match; any other carries the confidence asked for.
-/

namespace TaskReplay

/-- A simulated screen. -/
structure Screen where
  shown : Assoc String Match
  queued : Assoc String (List Bool)
  searches : Assoc String Nat

namespace Screen

/-- A screen that shows nothing. -/
def blank : Screen := ⟨.empty, .empty, .empty⟩

/-! ## 1. Setting up -/

/-- What can be done to a screen. -/
inductive Command where
  /-- Shows a template over a region. -/
  | show (template : String) (area : Region)
  /-- Shows a template at a point. -/
  | showAt (template : String) (point : Point)
  /-- Shows a template no more. -/
  | hide (template : String)
  /-- Queues answers for the next searches of a template. -/
  | script (template : String) (answers : List Bool)
  deriving DecidableEq, Repr

/-- The answers queued for a template. -/
def queue (s : Screen) (template : String) : List Bool := (s.queued.get? template).getD []

/-- The screen after a command. -/
def apply (s : Screen) : Command → Screen
  | .show template area => { s with shown := s.shown.set template (.foundIn area none) }
  | .showAt template point => { s with shown := s.shown.set template (.foundAt point) }
  | .hide template => { s with shown := s.shown.erase template }
  | .script template answers =>
    { s with queued := s.queued.set template (s.queue template ++ answers) }

/-! ## 2. Searching -/

/-- How often a template was searched. -/
def findCount (s : Screen) (template : String) : Nat := (s.searches.get? template).getD 0

/-- What a search finds before the region is looked at. -/
def hit (answer : Option Bool) (shown : Option Match) : Option Match :=
  match answer, shown with
  | some false, _ => none
  | none, none => none
  | some true, none => some (.foundAt .origin)
  | _, some m => some m

/-- The match as it is reported: under the confidence asked for, and only inside the region. -/
def report (confidence : Option Float32) (area : Option Region) (m : Match) : Match :=
  match area, m.point with
  | some r, some p => if r.contains p then { m with confidence } else .notFound
  | _, _ => { m with confidence }

/-- The answer to a search. -/
def look (s : Screen) (template : String) (confidence : Option Float32) (area : Option Region) :
    Match :=
  match hit (s.queue template).head? (s.shown.get? template) with
  | some m => report confidence area m
  | none => .notFound

/-- The screen after a search. -/
def searched (s : Screen) (template : String) : Screen :=
  { s with
    searches := s.searches.set template (s.findCount template + 1)
    queued := s.queued.set template (s.queue template).tail }

/-- A search. -/
def find (s : Screen) (template : String) (confidence : Option Float32) (area : Option Region) :
    Match × Screen :=
  (s.look template confidence area, s.searched template)

end Screen
end TaskReplay
