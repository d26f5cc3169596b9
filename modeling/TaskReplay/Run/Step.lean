import TaskReplay.Action.Basic
import TaskReplay.Run.Request
import TaskReplay.Settings

/-!
What each step does.

What this file fixes:
* `Deed.execute` is the meaning of a step without inner steps, `Action.execute` of any step: a
  condition runs one of its branches, a loop its body again and again, up to the loop's limit;
* inner steps keep to their own delays and nothing more, and the first that fails fails the whole;
* whether a step may fail is not asked here: `continueOnError` has no part in this file.
-/

namespace TaskReplay

open Script

/-! ## 1. Searching -/

/-- Searches with what the step says, or else with the settings. -/
def searchFor (s : Settings) (template : String) (confidence : Option Float32)
    (area : Option Region) : Script Match := do
  orFail (← ask (.search template (confidence.getD s.confidence) (area.or s.captureRegion)))

/-- Whether a template is on the screen. -/
def isVisible (s : Settings) (template : String) : Script Bool := do
  return (← searchFor s template none none).found

/-- Writes where a match is, if the step says into which variable. -/
def store (into : Option String) (m : Match) : Script Unit :=
  match into with
  | some name => ask (.write name (.ofLocation m.location))
  | none => pure ()

/-- The time between two searches of a step that waits for an image. -/
def searchPoll : Nat := 100

/-- The number of times that a step with a timeout may search again. -/
def searchesLeft (timeout : UInt64) : Nat := (timeout.toNat + (searchPoll - 1)) / searchPoll

/-- Searches until the template has come or gone, at most `left` times more after this time. -/
def watch (s : Settings) (template : String) (timeout : UInt64) (confidence : Option Float32)
    (disappear : Bool) (deadline : Nat) : (left : Nat) → Script Match
  | 0 => do
    let m ← searchFor s template confidence none
    if m.found != disappear then return m
    throw (.timeout template timeout disappear)
  | left + 1 => do
    let m ← searchFor s template confidence none
    if m.found != disappear then return m
    if deadline ≤ (← ask .clock) then throw (.timeout template timeout disappear)
    sleep searchPoll
    watch s template timeout confidence disappear deadline left

/-- Waits for an image to come or go. -/
def awaitImage (s : Settings) (template : String) (timeout : UInt64)
    (confidence : Option Float32) (disappear : Bool) : Script Match := do
  let now ← ask .clock
  watch s template timeout confidence disappear (now + timeout.toNat) (searchesLeft timeout)

/-! ## 2. Clicks and keys -/

/-- The point a target stands for. -/
def ClickTarget.resolve (s : Settings) : ClickTarget → Script Point
  | .coordinates x y => pure ⟨x, y⟩
  | .image template => do
    match (← searchFor s template none none).location with
    | some p => return p
    | none => throw (.targetNotFound template)
  | .stored name => do
    match (← ask (.read name)).bind Value.point? with
    | some p => return p
    | none => throw (.invalidVariable name)

/-- A random offset in pixels; one beyond the range of coordinates counts as none. -/
def pixels (n : Int) : Int :=
  if Width.minInt32 ≤ n ∧ n ≤ Width.maxInt32 then n else 0

/-- The point with a random offset on both axes. -/
def scatter (range : UInt32) (p : Point) : Script Point :=
  if range = 0 then pure p else do
    let dx ← draw range.toUInt64
    let dy ← draw range.toUInt64
    return p.offset (pixels dx) (pixels dy)

/-- Clicks. -/
def Click.execute (s : Settings) (kind : ClickKind) (c : Click) : Script Unit := do
  let target ← c.target.resolve s
  let p ← scatter c.randomOffset (target.offset c.offsetX.toInt c.offsetY.toInt)
  device (.click kind (some p))

/-- The time between the last press and the first release of a hotkey. -/
def hotkeySettle : Nat := 50

/-- Makes calls one after the other. -/
def devices : List DeviceCall → Script Unit
  | [] => pure ()
  | call :: rest => do device call; devices rest

/-- Presses all keys in order, waits, and releases them in reverse order. -/
def pressTogether (keys : List Key) : Script Unit := do
  devices (keys.map .keyDown)
  ask (.settle hotkeySettle)
  devices (keys.reverse.map .keyUp)

/-- The keys of those names that have one; the log is told of the others. -/
def resolveKeys : List String → Script (List Key)
  | [] => pure []
  | name :: rest =>
    match Key.ofName? name with
    | some key => do return key :: (← resolveKeys rest)
    | none => do
      ask (.log (.unknownHotkey name))
      resolveKeys rest

/-- Presses a hotkey. -/
def pressHotkey (names : List String) : Script Unit := do
  let keys ← resolveKeys names
  if keys.isEmpty then throw (.unknownKey names)
  pressTogether keys

/-! ## 3. Steps without inner steps -/

/-- Does a deed. -/
def Deed.execute (s : Settings) : Deed → Script Unit
  | .click kind place => place.execute s kind
  | .typeText text keyDelay => device (.typeText text keyDelay)
  | .pressKey name =>
    match Key.ofName? name with
    | some key => device (.pressKey key)
    | none => throw (.unknownKey [name])
  | .hotkey names => pressHotkey names
  | .wait duration variation => do
    let jitter ← draw variation
    sleep (Delay.jittered (duration.getD 0).toNat jitter 0)
  | .findImage template confidence region storeInto => do
    store storeInto (← searchFor s template confidence region)
  | .waitForImage template timeout confidence disappear storeInto => do
    let m ← awaitImage s template (timeout.getD 0) confidence disappear
    if !disappear then store storeInto m

/-! ## 4. Conditions and loops -/

/-- The value of a field that the step cannot do without. -/
def demand (id : String) (field : Field) : Option String → Script String
  | some v => pure v
  | none => throw (.dispatch (.validation [.missingField id field]))

/-- Whether the test of a condition holds. -/
def Test.holds (s : Settings) (id : String) (t : Test) : Script Bool :=
  match t.predicate with
  | .imageVisible => do isVisible s (← demand id .template t.template)
  | .imageNotVisible => do return !(← isVisible s (← demand id .template t.template))
  | .variableEquals => do
    let name ← demand id .variableName t.variableName
    let expected ← demand id .expected t.expected
    return ((← ask (.read name)).getD .null).display == expected

/-- Whether a loop wants another round after `done` rounds within its limit. -/
def LoopRule.proceeds (s : Settings) (id : String) (r : LoopRule) (done : Nat) : Script Bool :=
  match r.kind with
  | .count => pure (done < (r.count.getD 0).toNat)
  | .infinite => pure true
  | .whileImageVisible => do isVisible s (← demand id .template r.template)
  | .untilImageVisible => do return !(← isVisible s (← demand id .template r.template))

/-- Whether a loop wants another round after `done` rounds, its limit reached. -/
def LoopRule.wantsMore (r : LoopRule) (done : Nat) : Bool :=
  match r.kind with
  | .count => done < (r.count.getD 0).toNat
  | _ => true

/-- Waits while a pause is pending and fails at a stop. -/
def boundary : Script Unit := do
  let _ ← ask .awaitResume
  checkpoint

/-- Runs the body of a loop up to `left` times after `done` rounds. -/
def LoopRule.iterate (s : Settings) (id : String) (r : LoopRule) (body : Script Unit) :
    (left done : Nat) → Script Unit
  | 0, done => do
    boundary
    if r.wantsMore done then ask (.log (.loopLimit id r.limit))
  | left + 1, done => do
    boundary
    if ← r.proceeds s id done then
      body
      r.iterate s id body left (done + 1)

mutual

/-- Does a step. -/
def Action.execute (s : Settings) : Action → Script Unit
  | .simple _ deed => deed.execute s
  | .condition h test thenBranch elseBranch => do
    if ← test.holds s h.id then executeAll s thenBranch else executeAll s elseBranch
  | .loop h rule body => rule.iterate s h.id (executeAll s body) rule.limit 0

/-- Does inner steps in order, with their delays. -/
def executeAll (s : Settings) : List Action → Script Unit
  | [] => pure ()
  | a :: rest => do
    pauseFor a.header.delayBefore
    a.execute s
    pauseFor a.header.delayAfter
    executeAll s rest

end

end TaskReplay
