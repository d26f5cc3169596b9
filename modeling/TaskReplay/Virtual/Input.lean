import TaskReplay.Action.Basic
import TaskReplay.Key

/-!
Calls on mouse and keyboard, and a device that records them.

What this file fixes:
* `DeviceCall` is the language of input devices;
* `Recorder` keeps what it was told, with a click without a point at the place of the cursor, which
  clicks, moves and drags move;
* typing with a delay takes that delay for every character.
-/

namespace TaskReplay

/-! ## 1. Calls -/

/-- A call on mouse or keyboard. -/
inductive DeviceCall where
  | moveTo (point : Point) (humanized : Bool)
  | click (kind : ClickKind) (point : Option Point)
  | typeText (text : String) (keyDelay : Option UInt64)
  | keyDown (key : Key)
  | keyUp (key : Key)
  | pressKey (key : Key)
  | drag (source target : Point)
  | scroll (amount : Int32)
  deriving DecidableEq, Repr

namespace DeviceCall

/-- How long a call takes, in milliseconds. Characters are counted in 32 bits. -/
def duration : DeviceCall → Nat
  | typeText text (some delay) => delay.toNat * min text.length Width.maxUInt32
  | _ => 0

/-- Where a call puts the cursor. -/
def destination : DeviceCall → Option Point
  | moveTo p _ => some p
  | click _ p => p
  | drag _ p => some p
  | _ => none

end DeviceCall

/-! ## 2. Recording -/

/-- A simulated mouse and keyboard: the calls made, latest first, and the cursor. -/
structure Recorder where
  calls : List DeviceCall
  cursor : Point
  deriving Repr

namespace Recorder

/-- A device at rest. -/
def idle : Recorder := ⟨[], .origin⟩

/-- A call as it is kept: a click has the point it landed on. -/
def kept (cursor : Point) : DeviceCall → DeviceCall
  | .click kind _ => .click kind (some cursor)
  | call => call

/-- Takes a call. -/
def record (r : Recorder) (call : DeviceCall) : Recorder :=
  let cursor := call.destination.getD r.cursor
  ⟨kept cursor call :: r.calls, cursor⟩

/-- The calls so far, oldest first. -/
def events (r : Recorder) : List DeviceCall := r.calls.reverse

/-- Forgets the calls, not the cursor. -/
def clear (r : Recorder) : Recorder := { r with calls := [] }

end Recorder
end TaskReplay
