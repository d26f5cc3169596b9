import TaskReplay.Proofs.Run.ImageWait

/-!
# Requests on film, one after the other

What a script does on film, for the scripts of one request and for one script after another:

* `play_ask`, `play_device`, `play_searchFor` -- one request that heeds no wish: it is taken, and answered;
  `play_draw`, `play_rest` -- a random number, and a sleep;
* `play_andThen`, `play_orElse` -- one script after another, which goes on from where the first ended, or
  does not come to it;
* `Film.takes` -- requests in a row; `Seamless` -- shots in a row, each begun when the one before was over;
  `takes_shots` -- what requests that heed no wish leave on film.
-/

namespace TaskReplay

open Script

/-! ## 1. One request -/

section One

variable {w : Surroundings} {plan : Plan} {f g : Film} {α β : Type}

/-- A request that heeds no wish is taken and answered. -/
theorem play_ask {q : Request} (calm : q.heeds = false) :
    f.play w plan (Script.ask q).quiet.run =
      (some (.ok (f.answer w (f.take w plan q) q)), f.take w plan q) :=
  (play_calm calm _).trans rfl

/-- **One script after another** goes on from where the first ended. -/
theorem play_andThen {m : Script α} {k : α → Script β} {a : α}
    (first : f.play w plan m.quiet.run = (some (.ok a), g)) :
    f.play w plan (m >>= k).quiet.run = g.play w plan (k a).quiet.run := play_script_bind first

/-- One script after another does not come to the second if the first fails. -/
theorem play_orElse {m : Script α} {k : α → Script β} {e : StepError}
    (first : f.play w plan m.quiet.run = (some (.error e), g)) :
    f.play w plan (m >>= k).quiet.run = (some (.error e), g) := play_script_bind first

variable (w plan f)

/-- A call on mouse or keyboard. -/
theorem play_device (call : DeviceCall) : f.play w plan (Script.device call).quiet.run =
    (some ((w.device (f.calls ++ [.device call])).mapError .dispatch), f.take w plan (.device call)) := by
  have answer : f.answer w (f.take w plan (.device call)) (.device call) =
      w.device (f.calls ++ [.device call]) := by
    rw [Film.answer, Film.calls_take]
    rfl
  have run : (Script.device call).quiet.run = RunProg.quiet (Script.device call).run := rfl
  rw [run, run_device, ← answer]
  exact (play_calm (q := .device call) rfl _).trans rfl

/-- A search with what the step says, or else with the settings. -/
theorem play_searchFor (s : Settings) (template : String) (confidence : Option Float32)
    (area : Option Region) :
    let search : Request := .search template (confidence.getD s.confidence) (area.or s.captureRegion)
    f.play w plan (searchFor s template confidence area).quiet.run =
      (some ((f.glance w search 0).mapError .dispatch), f.take w plan search) := by
  intro search
  have run : (searchFor s template confidence area).quiet.run =
      RunProg.quiet (Script.search template (confidence.getD s.confidence)
        (area.or s.captureRegion)).run := rfl
  rw [run, run_search, play_search]
  rfl

end One

/-! ## 2. Requests in a row -/

/-- The film with requests in a row. -/
def Film.takes (w : Surroundings) (plan : Plan) (f : Film) (qs : List Request) : Film :=
  qs.foldl (fun g q => g.take w plan q) f

/-- **Shots in a row**, from a time to a time: each is begun when the one before is over. -/
inductive Seamless : Nat → List Shot → Nat → Prop where
  | nil (t : Nat) : Seamless t [] t
  | cons {u : Shot} {us : List Shot} {t t' t'' : Nat} (begun : u.begun = t) (ended : u.ended = some t')
      (rest : Seamless t' us t'') : Seamless t (u :: us) t''

/-- Shots in a row, and then more of them. -/
theorem Seamless.append {t t' t'' : Nat} {us us' : List Shot} (h : Seamless t us t')
    (h' : Seamless t' us' t'') : Seamless t (us ++ us') t'' := by
  induction h with
  | nil t => exact h'
  | cons begun ended rest ih => exact .cons begun ended (ih h')

section Row

variable {w : Surroundings} {plan : Plan} {f : Film} {qs : List Request}

@[simp] theorem takes_nil : f.takes w plan [] = f := rfl

@[simp] theorem takes_cons (q : Request) :
    f.takes w plan (q :: qs) = (f.take w plan q).takes w plan qs := rfl

theorem takes_append (qs' : List Request) :
    f.takes w plan (qs ++ qs') = (f.takes w plan qs).takes w plan qs' := List.foldl_append

theorem asked_takes : (f.takes w plan qs).asked = qs.reverse ++ f.asked := by
  induction qs generalizing f with
  | nil => rfl
  | cons q qs ih => simp [ih]

/-- The calls among requests in a row. -/
theorem calls_takes : (f.takes w plan qs).calls = f.calls ++ qs.filter Request.isCall := by
  simp [Film.calls, asked_takes]

variable (w plan f)

/-- **What requests that heed no wish leave on film**: one shot each, in a row. -/
theorem takes_shots (calm : ∀ q ∈ qs, q.heeds = false) :
    ∃ made, (f.takes w plan qs).shots = made.reverse ++ f.shots ∧
      made.map (·.cue) = qs.map Cue.request ∧ Seamless f.now made (f.takes w plan qs).now := by
  induction qs generalizing f with
  | nil => exact ⟨[], rfl, rfl, .nil _⟩
  | cons q qs ih =>
      obtain ⟨made, shots, cues, row⟩ := ih (f.take w plan q) fun q' h =>
        calm q' (List.mem_cons_of_mem _ h)
      obtain ⟨due, ended⟩ := Film.ended_calm (w := w) (calm q List.mem_cons_self) f
      have finished : (f.shot w plan q).ended = some due := ended f plan rfl rfl
      have now : (f.take w plan q).now = due := by rw [Film.take, finished]; rfl
      refine ⟨f.shot w plan q :: made, ?_, ?_, .cons rfl finished (now ▸ row)⟩
      · rw [takes_cons, shots, Film.shots_take, List.reverse_cons, List.append_assoc]
        rfl
      · rw [List.map_cons, cues]
        rfl

end Row

/-! ## 3. Lots and sleeps -/

/-- The lot that is drawn next. -/
def Film.lot (w : Surroundings) (f : Film) (range : UInt64) : Delay.Draw (Delay.drawRange range) :=
  w.luck (f.asked.countP Request.isDraw) (Delay.drawRange range)

/-- What is asked for a random number. -/
def drawn (range : UInt64) : List Request :=
  if range = 0 then [] else [.draw (Delay.drawRange range)]

/-- What comes of a sleep: it fails exactly if a stop is wished when it ends. -/
def Film.slept (g : Film) : Except StepError Unit :=
  if g.scene.control.stopped then .error .interrupted else .ok ()

section Lots

variable (w : Surroundings) (plan : Plan) (f : Film)

/-- A random number; no lot is drawn for a range of zero. -/
theorem play_draw (range : UInt64) : f.play w plan (Script.draw range).quiet.run =
    (some (.ok (f.lot w range).val), f.takes w plan (drawn range)) := by
  by_cases zero : range = 0
  · subst zero
    have none : (f.lot w 0).val = 0 := Int.le_antisymm (f.lot w 0).property.2 (f.lot w 0).property.1
    rw [none]
    rfl
  · simp only [Script.draw, zero, drawn, if_false]
    exact play_andThen (play_ask rfl)

/-- A sleep. -/
theorem play_rest (ms : Nat) : f.play w plan (Script.sleep ms).quiet.run =
    (some (f.take w plan (.sleep ms)).slept, f.take w plan (.sleep ms)) := by
  have run : (Script.sleep ms).run = .ask (.sleep ms) fun full =>
      if full then .done (.ok ()) else .done (.error .interrupted) := by
    rw [run_sleep]
    congr 1
    funext full
    cases full <;> rfl
  show f.play w plan (RunProg.quiet (Script.sleep ms).run) = _
  rw [run, play_sleep, Film.slept]
  split <;> rfl

end Lots


end TaskReplay
