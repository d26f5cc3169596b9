/-!
The two wishes that others may have about a run: that it pauses, that it stops.

What this file fixes:
* a stop is for good and clears the wish for a pause;
* every operation says whether it changed anything, and `stop` always does;
* `Suspension` is how a run waits, and `Suspension.wake?` says when it goes on if nothing changes:
  a settled wait at its end, a sleep at its end or at a stop, a paused run at a stop or at the first
  full tenth of a second, counted from when it began to wait, that finds no pause.
-/

namespace TaskReplay

/-! ## 1. Wishes -/

/-- What is wished of a run. -/
structure Control where
  paused : Bool
  stopped : Bool
  deriving DecidableEq, Repr

namespace Control

/-- Nothing wished. -/
def fresh : Control := ⟨false, false⟩

instance : Inhabited Control := ⟨fresh⟩

/-- Wishes a pause; tells whether that was news. A stopped run takes no pause. -/
def pause (c : Control) : Control × Bool :=
  if c.stopped then (c, false) else ({ c with paused := true }, !c.paused)

/-- Clears the wish for a pause; tells whether there was one. -/
def resume (c : Control) : Control × Bool := ({ c with paused := false }, c.paused)

/-- Wishes a stop. -/
def stop (_ : Control) : Control := ⟨false, true⟩

/-- Whether a run has to wait. -/
def pausePending (c : Control) : Bool := c.paused && !c.stopped

@[simp] theorem stopped_stop (c : Control) : c.stop.stopped = true := rfl
@[simp] theorem pausePending_stop (c : Control) : c.stop.pausePending = false := rfl

end Control

/-! ## 2. Waiting -/

/-- The time between two looks at a pause, in milliseconds. -/
def pausePoll : Nat := 100

/-- How a run waits. -/
inductive Suspension where
  /-- Until a time, come what may. -/
  | settle (due : Nat)
  /-- Until a time or a stop. -/
  | sleep (due : Nat)
  /-- Until no pause is pending, having begun at a time. -/
  | resume (since : Nat)
  deriving DecidableEq, Repr

namespace Suspension

/-- The first look at a pause after `now`. -/
def nextPoll (since now : Nat) : Nat := since + pausePoll * ((now - since) / pausePoll + 1)

/-- When the wait ends if nothing changes after `now`, and whether it ends without a stop. -/
def wake? (c : Control) (now : Nat) : Suspension → Option (Nat × Bool)
  | settle t => some (t, true)
  | sleep t => if c.stopped then some (now, false) else some (t, true)
  | resume since =>
    if c.stopped then some (now, false)
    else if c.paused then none
    else some (nextPoll since now, true)

theorem lt_nextPoll {since now : Nat} (h : since ≤ now) : now < nextPoll since now := by
  have := Nat.div_add_mod (now - since) pausePoll
  have := Nat.mod_lt (now - since) (show 0 < pausePoll by decide)
  simp only [nextPoll, Nat.mul_add, Nat.mul_one]
  omega

end Suspension
end TaskReplay
