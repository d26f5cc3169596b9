import TaskReplay.Proofs.Run.Takes
import TaskReplay.Proofs.Time.Jitter

/-!
# Delays of steps

A step that waits sleeps for its duration, moved by a lot. Inner steps sleep for the delays that they say, and
for nothing else. On film:

* `Rests`, `Breaks` -- a delay in full, and one that a stop cuts short; `play_pauseFor` -- a delay is one of
  both;
* `WaitLaw`, `play_wait` -- **a step that waits** draws at most one lot and sleeps once;
* `Nested`, `play_executeAll` -- **inner steps**: each has its own delays in full before and after its work,
  up to the first that does not come to its end.
-/

namespace TaskReplay

open Script

variable {w : Surroundings} {plan : Plan} {s : Settings} {f g : Film}

/-! ## 1. Delays -/

/-- **A delay in full**: a sleep of exactly that length, or nothing at all. -/
inductive Rests (w : Surroundings) (plan : Plan) (f : Film) : Option UInt64 → Film → Prop where
  | none : Rests w plan f none f
  | some (ms : UInt64) (unstopped : (f.take w plan (.sleep ms.toNat)).scene.control.stopped = false)
      (now : (f.take w plan (.sleep ms.toNat)).now = f.now + ms.toNat) :
      Rests w plan f (some ms) (f.take w plan (.sleep ms.toNat))

/-- **A delay that a stop cuts short.** -/
inductive Breaks (w : Surroundings) (plan : Plan) (f : Film) : Option UInt64 → Film → Prop where
  | some (ms : UInt64) (stopped : (f.take w plan (.sleep ms.toNat)).scene.control.stopped = true)
      (by_due : (f.take w plan (.sleep ms.toNat)).now ≤ f.now + ms.toNat) :
      Breaks w plan f (some ms) (f.take w plan (.sleep ms.toNat))

/-- **A delay is slept in full or cut short.** -/
theorem play_pauseFor (w : Surroundings) (plan : Plan) (f : Film) (delay : Option UInt64) :
    let x := f.play w plan (pauseFor delay).quiet.run
    ∃ g, (x = (some (.ok ()), g) ∧ Rests w plan f delay g) ∨
      (x = (some (.error .interrupted), g) ∧ Breaks w plan f delay g) := by
  intro x
  cases delay with
  | none => exact ⟨f, .inl ⟨rfl, .none⟩⟩
  | some ms =>
      let g := f.take w plan (.sleep ms.toNat)
      have slept : x = (some g.slept, g) := play_rest w plan f ms.toNat
      refine ⟨g, ?_⟩
      rw [slept, Film.slept]
      cases stopped : g.scene.control.stopped with
      | false => exact .inl ⟨rfl, .some ms stopped (now_sleep stopped)⟩
      | true => exact .inr ⟨rfl, .some ms stopped (take_sleep w plan f ms.toNat).2.2⟩

/-! ## 2. A step that waits -/

/-- **A step that waits**: it sleeps once, for its duration moved by a lot, and for exactly that long unless a
stop comes. -/
structure WaitLaw (w : Surroundings) (plan : Plan) (f : Film) (duration : Option UInt64)
    (variation : UInt64) (x : Option (Except StepError Unit) × Film)
    (jitter : Delay.Draw (Delay.drawRange variation)) : Prop where
  film : x.2 = (f.takes w plan (drawn variation)).take w plan
    (.sleep (Delay.jittered (duration.getD 0).toNat jitter 0))
  result : x.1 = some x.2.slept
  now : x.2.scene.control.stopped = false →
    x.2.now = (f.takes w plan (drawn variation)).now + Delay.jittered (duration.getD 0).toNat jitter 0
  between : (duration.getD 0).toNat + variation.toNat ≤ Width.maxInt64 →
    max (0 : Int) ((duration.getD 0).toNat - variation.toNat) ≤
        Delay.jittered (duration.getD 0).toNat jitter 0 ∧
      Delay.jittered (duration.getD 0).toNat jitter 0 ≤ (duration.getD 0).toNat + variation.toNat

theorem play_wait (h : Header) (duration : Option UInt64) (variation : UInt64) : ∃ jitter,
    WaitLaw w plan f duration variation
      (f.play w plan ((Action.simple h (.wait duration variation)).execute s).quiet.run) jitter := by
  let jitter := f.lot w variation
  let d := Delay.jittered (duration.getD 0).toNat jitter 0
  let g := (f.takes w plan (drawn variation)).take w plan (.sleep d)
  have played : f.play w plan ((Action.simple h (.wait duration variation)).execute s).quiet.run =
      (some g.slept, g) := (play_andThen (play_draw w plan f variation)).trans (play_rest w plan _ d)
  refine ⟨jitter, ?_⟩
  rw [played]
  obtain ⟨-, -, between⟩ := Delay.jitter_law (duration.getD 0) variation 0 jitter
  refine ⟨rfl, rfl, fun unstopped => now_sleep unstopped, fun small => ?_⟩
  obtain ⟨low, high⟩ := between small
  refine ⟨low, ?_⟩
  have zero : (0 : UInt64).toNat = 0 := rfl
  rw [zero] at high
  omega

/-! ## 3. Inner steps -/

/-- **How inner steps go**: with their own delays in full before and after each, up to the first that a stop
cuts short, or that fails, or that never ends. -/
inductive Nested (w : Surroundings) (plan : Plan) (s : Settings) :
    List Action → Film → Option (Except StepError Unit) → Film → Prop where
  | done (f : Film) : Nested w plan s [] f (some (.ok ())) f
  | cutBefore {a : Action} {rest : List Action} {f g : Film} (cut : Breaks w plan f a.header.delayBefore g) :
      Nested w plan s (a :: rest) f (some (.error .interrupted)) g
  | ends {a : Action} {rest : List Action} {f f₁ g : Film} {r : Option (Except StepError Unit)}
      (before : Rests w plan f a.header.delayBefore f₁)
      (work : f₁.play w plan (a.execute s).quiet.run = (r, g)) (other : r ≠ some (.ok ())) :
      Nested w plan s (a :: rest) f r g
  | cutAfter {a : Action} {rest : List Action} {f f₁ f₂ g : Film}
      (before : Rests w plan f a.header.delayBefore f₁)
      (work : f₁.play w plan (a.execute s).quiet.run = (some (.ok ()), f₂))
      (cut : Breaks w plan f₂ a.header.delayAfter g) :
      Nested w plan s (a :: rest) f (some (.error .interrupted)) g
  | goesOn {a : Action} {rest : List Action} {f f₁ f₂ f₃ g : Film} {r : Option (Except StepError Unit)}
      (before : Rests w plan f a.header.delayBefore f₁)
      (work : f₁.play w plan (a.execute s).quiet.run = (some (.ok ()), f₂))
      (after : Rests w plan f₂ a.header.delayAfter f₃) (others : Nested w plan s rest f₃ r g) :
      Nested w plan s (a :: rest) f r g

/-- One script after another does not come to the second if the first never ends. -/
theorem play_stuck {α β : Type} {m : Script α} {k : α → Script β}
    (first : f.play w plan m.quiet.run = (none, g)) : f.play w plan (m >>= k).quiet.run = (none, g) := by
  rw [script_quiet_bind, run_bind, play_bind, first]

/-- **Inner steps go so.** -/
theorem play_executeAll (as : List Action) (f : Film) : Nested w plan s as f
    (f.play w plan (executeAll s as).quiet.run).1 (f.play w plan (executeAll s as).quiet.run).2 := by
  induction as generalizing f with
  | nil => exact .done f
  | cons a rest ih =>
      rw [executeAll]
      obtain ⟨f₁, ⟨slept, before⟩ | ⟨slept, cut⟩⟩ :=
        play_pauseFor w plan f a.header.delayBefore
      · rw [play_andThen slept]
        rcases work : f₁.play w plan (a.execute s).quiet.run with ⟨_ | e | ⟨⟩, f₂⟩
        · rw [play_stuck work]
          exact .ends before work nofun
        · rw [play_orElse work]
          exact .ends before work nofun
        · rw [play_andThen work]
          obtain ⟨f₃, ⟨slept, after⟩ | ⟨slept, cut⟩⟩ :=
            play_pauseFor w plan f₂ a.header.delayAfter
          · rw [play_andThen slept]
            exact .goesOn before work after (ih f₃)
          · rw [play_orElse slept]
            exact .cutAfter before work cut
      · rw [play_orElse slept]
        exact .cutBefore cut

end TaskReplay
