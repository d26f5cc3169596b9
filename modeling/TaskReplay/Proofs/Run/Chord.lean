import Mathlib.Data.List.Count
import TaskReplay.Proofs.Run.Takes

/-!
# A hotkey from the first press to the last release

A hotkey looks its names up, presses the keys in order, waits and releases them in reverse order. None of this
heeds a wish. On film, where no call fails:

* `count_downAndUp` -- keys that are pressed together are each released as often as they were pressed;
* `play_devices`, `play_resolveKeys`, `play_pressTogether` -- calls in a row, names that are looked up, and
  keys that are pressed together;
* `Chord` -- presses, a wait and releases, each begun when the one before was over;
* `hotkey_sequence` -- **what a hotkey does under any wishes**.
-/

namespace TaskReplay

open Script

/-! ## 1. Names and calls -/

/-- The requests of a hotkey's names: the log is told of those that no key has. -/
def unknownNames (names : List String) : List Request :=
  (names.filter fun name => (Key.ofName? name).isNone).map fun name => .log (.unknownHotkey name)

/-- The calls of keys that are pressed together: all go down, and all are let go in reverse order. -/
def downAndUp (keys : List Key) : List DeviceCall := keys.map .keyDown ++ keys.reverse.map .keyUp

/-- **Each key is released as often as it was pressed.** -/
theorem count_downAndUp (keys : List Key) (key : Key) :
    (downAndUp keys).count (.keyUp key) = (downAndUp keys).count (.keyDown key) := by
  have pressed : (keys.map DeviceCall.keyDown).count (.keyDown key) = keys.count key :=
    List.count_map_of_injective _ _ (fun _ _ h => DeviceCall.keyDown.inj h) key
  have released : (keys.reverse.map DeviceCall.keyUp).count (.keyUp key) = keys.reverse.count key :=
    List.count_map_of_injective _ _ (fun _ _ h => DeviceCall.keyUp.inj h) key
  have only_down : (keys.map DeviceCall.keyDown).count (.keyUp key) = 0 := by
    simp [List.count_eq_zero]
  have only_up : (keys.reverse.map DeviceCall.keyUp).count (.keyDown key) = 0 := by
    simp [List.count_eq_zero]
  simp only [downAndUp, List.count_append, pressed, released, only_down, only_up, List.count_reverse,
    Nat.zero_add, Nat.add_zero]

section Film

variable {w : Surroundings} {plan : Plan} {f : Film}

/-- **Calls one after the other**, on devices that do not fail. -/
theorem play_devices (works : ∀ calls, w.device calls = .ok ()) (calls : List DeviceCall) :
    f.play w plan (devices calls).quiet.run = (some (.ok ()), f.takes w plan (calls.map .device)) := by
  induction calls generalizing f with
  | nil => rfl
  | cons call calls ih =>
      have made : f.play w plan (Script.device call).quiet.run =
          (some (.ok ()), f.take w plan (.device call)) := by
        rw [play_device, works]
        rfl
      rw [devices, play_andThen made, ih]
      rfl

/-- Names are looked up, and the log is told of those that no key has. -/
theorem play_resolveKeys (names : List String) : f.play w plan (resolveKeys names).quiet.run =
    (some (.ok (names.filterMap Key.ofName?)), f.takes w plan (unknownNames names)) := by
  induction names generalizing f with
  | nil => rfl
  | cons name names ih =>
      cases known : Key.ofName? name with
      | some key =>
          simp only [resolveKeys, known, unknownNames, List.filterMap_cons]
          rw [play_andThen ih]
          simp [unknownNames, known]
          rfl
      | none =>
          have told : f.play w plan (Script.ask (.log (.unknownHotkey name))).quiet.run = _ := play_ask rfl
          simp only [resolveKeys, known]
          rw [play_andThen told, ih]
          simp [unknownNames, known]

/-- The film with keys that are pressed together. -/
def Film.chord (w : Surroundings) (plan : Plan) (f : Film) (keys : List Key) : Film :=
  ((f.takes w plan ((keys.map .keyDown).map .device)).take w plan (.settle hotkeySettle)).takes w plan
    ((keys.reverse.map .keyUp).map .device)

theorem play_pressTogether (works : ∀ calls, w.device calls = .ok ()) (keys : List Key) :
    f.play w plan (pressTogether keys).quiet.run = (some (.ok ()), f.chord w plan keys) := by
  have waited (g : Film) : g.play w plan (Script.ask (.settle hotkeySettle)).quiet.run = _ := play_ask rfl
  rw [pressTogether, play_andThen (play_devices works _), play_andThen (waited _), play_devices works,
    Film.chord]

/-- A hotkey without a key fails, and any other presses its keys together. -/
theorem play_pressHotkey (works : ∀ calls, w.device calls = .ok ()) (names : List String) :
    let keys := names.filterMap Key.ofName?
    let g := f.takes w plan (unknownNames names)
    f.play w plan (pressHotkey names).quiet.run = if keys = [] then (some (.error (.unknownKey names)), g)
      else (some (.ok ()), g.chord w plan keys) := by
  intro keys g
  rw [pressHotkey, play_andThen (play_resolveKeys names)]
  by_cases no_key : keys = []
  · rw [if_pos no_key, show names.filterMap Key.ofName? = [] from no_key]
    rfl
  · have some_key : (names.filterMap Key.ofName?).isEmpty = false := List.isEmpty_eq_false_iff.mpr no_key
    rw [if_neg no_key, ← play_pressTogether works, some_key]
    rfl

/-- A wait that nothing ends lasts as long as it should. -/
theorem ended_settle (ms : Nat) (f : Film) : (f.shot w plan (.settle ms)).ended = some (f.now + ms) :=
  (Suspension.endure_settle (Nat.le_add_right f.now ms) _ _).1

/-! ## 2. Hotkeys -/

/-- **Keys that are pressed together**, on film: the presses in order, a wait of 50 ms, and the releases in
reverse order. -/
structure Chord (keys : List Key) (down : List Shot) (pause : Shot) (up : List Shot) : Prop where
  down : down.map (·.cue) = keys.map fun key => .request (.device (.keyDown key))
  settle : pause.cue = .request (.settle 50)
  waited : pause.ended = some (pause.begun + 50)
  up : up.map (·.cue) = keys.reverse.map fun key => .request (.device (.keyUp key))

theorem devices_heed_nothing (calls : List DeviceCall) :
    ∀ q ∈ calls.map Request.device, q.heeds = false ∧ q.isCall = true := by
  intro q made
  obtain ⟨call, -, rfl⟩ := List.mem_map.mp made
  exact ⟨rfl, rfl⟩

/-- The calls of keys that are pressed together. -/
theorem calls_chord (keys : List Key) :
    (f.chord w plan keys).calls = f.calls ++ (downAndUp keys).map .device := by
  have all (calls : List DeviceCall) :
      (calls.map Request.device).filter Request.isCall = calls.map Request.device :=
    List.filter_eq_self.mpr fun q made => (devices_heed_nothing calls q made).2
  rw [Film.chord, calls_takes, Film.calls_take, calls_takes, all, all, downAndUp, List.map_append]
  simp [Request.isCall]

/-- Keys that are pressed together are a chord on film. -/
theorem chord_shots (w : Surroundings) (plan : Plan) (f : Film) (keys : List Key) :
    let g := f.chord w plan keys
    ∃ down pause up, Chord keys down pause up ∧ g.shots = (down ++ pause :: up).reverse ++ f.shots ∧
      Seamless f.now (down ++ pause :: up) g.now := by
  have calm (calls : List DeviceCall) : ∀ q ∈ calls.map Request.device, q.heeds = false :=
    fun q made => (devices_heed_nothing calls q made).1
  let f₁ := f.takes w plan ((keys.map .keyDown).map .device)
  let f₂ := f₁.take w plan (.settle hotkeySettle)
  obtain ⟨down, shots, cues, row⟩ := takes_shots w plan f (calm (keys.map .keyDown))
  obtain ⟨up, shots', cues', row'⟩ :=
    takes_shots w plan f₂ (calm (keys.reverse.map .keyUp))
  let pause := f₁.shot w plan (.settle hotkeySettle)
  have finished : pause.ended = some (f₁.now + hotkeySettle) := ended_settle _ f₁
  have now : f₂.now = f₁.now + hotkeySettle := by
    show pause.ended.getD f₁.now = _
    rw [finished]
    rfl
  refine ⟨down, pause, up, ⟨?_, rfl, finished, ?_⟩, ?_, row.append (.cons rfl finished (now ▸ row'))⟩
  · simpa [Function.comp_def] using cues
  · simpa [Function.comp_def] using cues'
  · show (f₂.takes w plan _).shots = _
    rw [shots', show f₂.shots = pause :: f₁.shots from rfl, show f₁.shots = _ from shots]
    simp

/-- **What a hotkey does** where no call fails, whatever is wished before or meanwhile: it fails exactly if
none of its names has a key, and then it makes no call; else the keys go down in order, and exactly 50 ms
later they are let go in reverse order. The log is told of the names that no key has. -/
theorem hotkey_sequence (w : Surroundings) (works : ∀ calls, w.device calls = .ok ()) (plan : Plan)
    (s : Settings) (h : Header) (names : List String) (f : Film) :
    let x := f.play w plan ((Action.simple h (.hotkey names)).execute s).quiet.run
    let keys := names.filterMap Key.ofName?
    let unknown := names.filter fun name => (Key.ofName? name).isNone
    ∃ told : List Shot,
      told.map (·.cue) = unknown.map (fun name => .request (.log (.unknownHotkey name))) ∧
      (x.1 = some (.error (.unknownKey names)) ↔ ∀ name ∈ names, Key.ofName? name = none) ∧
      ((∀ name ∈ names, Key.ofName? name = none) → x.2.calls = f.calls ∧
        x.2.shots = told.reverse ++ f.shots ∧ Seamless f.now told x.2.now) ∧
      ((∃ name ∈ names, Key.ofName? name ≠ none) → x.1 = some (.ok ()) ∧
        x.2.calls = f.calls ++ (downAndUp keys).map .device ∧
        (∀ key, (downAndUp keys).count (.keyUp key) = (downAndUp keys).count (.keyDown key)) ∧
        ∃ down pause up, Chord keys down pause up ∧
          x.2.shots = (told ++ down ++ pause :: up).reverse ++ f.shots ∧
          Seamless f.now (told ++ down ++ pause :: up) x.2.now) := by
  intro x keys unknown
  have calm : ∀ q ∈ unknownNames names, q.heeds = false ∧ q.isCall = false := by
    intro q told
    obtain ⟨name, -, rfl⟩ := List.mem_map.mp told
    exact ⟨rfl, rfl⟩
  let g := f.takes w plan (unknownNames names)
  obtain ⟨told, shots, cues, row⟩ := takes_shots w plan f fun q told =>
    (calm q told).1
  have quiet : g.calls = f.calls := by
    rw [calls_takes, List.filter_eq_nil_iff.mpr fun q told => by simp [(calm q told).2], List.append_nil]
  have none_known : keys = [] ↔ ∀ name ∈ names, Key.ofName? name = none := List.filterMap_eq_nil_iff
  have played : x = if keys = [] then _ else _ := play_pressHotkey works names
  refine ⟨told, by simpa [unknownNames, Function.comp_def] using cues, ?_⟩
  by_cases no_key : keys = []
  · have none_has := none_known.mp no_key
    rw [played, if_pos no_key]
    exact ⟨⟨fun _ => none_has, fun _ => rfl⟩, fun _ => ⟨quiet, shots, row⟩,
      fun ⟨name, among, known⟩ => absurd (none_has name among) known⟩
  · have some_has := mt none_known.mpr no_key
    rw [played, if_neg no_key]
    obtain ⟨down, pause, up, chord, shots', row'⟩ := chord_shots w plan g keys
    refine ⟨⟨nofun, (absurd · some_has)⟩, (absurd · some_has), fun _ => ⟨rfl, ?_, count_downAndUp keys,
      down, pause, up, chord, ?_, ?_⟩⟩
    · rw [calls_chord, quiet]
    · rw [shots', shots]
      simp
    · rw [List.append_assoc]
      exact row.append row'

end Film

/-- A pause at the first press, and a stop in the wait. -/
def stopWhileHeld : Plan :=
  ⟨[], fun n => match n with
    | 1 => [(0, [.pause])]
    | 4 => [(20, [.stop])]
    | _ => []⟩

/-- A hotkey with one key under two names, and a name that no key has. -/
def controlTwice : List String := ["Ctrl", "hyper", "c", " control "]

/-- That hotkey on film. -/
def controlTwiceFilm : Option (Except StepError Unit) × Film :=
  Film.play .prompt stopWhileHeld
    ((Action.simple (.named "h") (.hotkey controlTwice)).execute .initial).quiet.run
    (.blank stopWhileHeld 0 .fresh)

/-- The keys are let go although the run is stopped meanwhile. -/
theorem hotkey_sequence_control :
    controlTwiceFilm.2.scene.control.stopped = true ∧ controlTwiceFilm.2.now = 50 ∧
      controlTwiceFilm.1 = some (.ok ()) ∧
      controlTwiceFilm.2.calls = ([.keyDown .control, .keyDown (.char 'c'), .keyDown .control,
        .keyUp .control, .keyUp (.char 'c'), .keyUp .control] : List DeviceCall).map .device := by
  have known : ∃ name ∈ controlTwice, Key.ofName? name ≠ none := ⟨"c", by decide, by decide +kernel⟩
  obtain ⟨told, -, -, -, pressed⟩ := hotkey_sequence .prompt (fun _ => rfl) stopWhileHeld .initial
    (.named "h") controlTwice (.blank stopWhileHeld 0 .fresh)
  obtain ⟨result, calls, -, -⟩ := pressed known
  have keys : controlTwice.filterMap Key.ofName? = [.control, .char 'c', .control] := by decide +kernel
  refine ⟨by decide +kernel, by decide +kernel, result, calls.trans ?_⟩
  rw [keys]
  rfl

end TaskReplay
