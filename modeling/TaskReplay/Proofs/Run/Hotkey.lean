import TaskReplay.Proofs.Run.Play
import TaskReplay.Proofs.Run.Script

/-!
# Keys that are pressed together

A hotkey is a list of presses, a wait and a list of releases, and the first call that fails ends it.

* `deviceCalls` -- the calls on mouse and keyboard in a log, each with how it went; `pressed`,
  `released` -- the keys that went down, and those that were let go;
* `plays_devices` -- calls one after the other: all of them, or all up to the first that fails;
* `HotkeyCourse`, `plays_pressTogether` -- the ways a hotkey can go;
* `key_left_held_iff` -- **which failures leave a key held**: that of a press but the first, since
  nothing is released then, and that of a release before the keys still to be released.
-/

namespace TaskReplay

open Script

/-! ## 1. Calls in a log -/

/-- A call on mouse or keyboard, and how it went. -/
def Turn.deviceCall? : Turn → Option (DeviceCall × Except Failure Unit)
  | ⟨.device call, _, answer⟩ => some (call, answer)
  | _ => none

/-- **The calls on mouse and keyboard**, each with how it went. -/
def deviceCalls (log : List Turn) : List (DeviceCall × Except Failure Unit) :=
  log.filterMap Turn.deviceCall?

@[simp] theorem deviceCalls_append (l l' : List Turn) :
    deviceCalls (l ++ l') = deviceCalls l ++ deviceCalls l' := List.filterMap_append

@[simp] theorem deviceCalls_nil : deviceCalls [] = [] := rfl

/-- Calls that all went well. -/
def allWell (calls : List DeviceCall) : List (DeviceCall × Except Failure Unit) :=
  calls.map fun call => (call, .ok ())

/-- The key that went down by a call. -/
def pressed? : DeviceCall × Except Failure Unit → Option Key
  | (.keyDown key, .ok _) => some key
  | _ => none

/-- The key that a call lets go, whether or not it fails. -/
def released? : DeviceCall × Except Failure Unit → Option Key
  | (.keyUp key, _) => some key
  | _ => none

/-- **The keys that went down.** -/
def pressed (calls : List (DeviceCall × Except Failure Unit)) : List Key := calls.filterMap pressed?

/-- **The keys that were let go.** -/
def released (calls : List (DeviceCall × Except Failure Unit)) : List Key :=
  calls.filterMap released?

theorem pressed_downs (keys : List Key) : pressed (allWell (keys.map .keyDown)) = keys := by
  induction keys with
  | nil => rfl
  | cons key keys ih => exact congrArg (key :: ·) ih

theorem released_ups (keys : List Key) : released (allWell (keys.map .keyUp)) = keys := by
  induction keys with
  | nil => rfl
  | cons key keys ih => exact congrArg (key :: ·) ih

theorem pressed_ups (keys : List Key) : pressed (allWell (keys.map .keyUp)) = [] := by
  induction keys with
  | nil => rfl
  | cons key keys ih => exact ih

theorem released_downs (keys : List Key) : released (allWell (keys.map .keyDown)) = [] := by
  induction keys with
  | nil => rfl
  | cons key keys ih => exact ih

section Plays

variable {s t : Scene} {log : List Turn} {r : Except StepError Unit}

/-- **Calls one after the other** are all made and go well, or all up to the first that fails. -/
theorem plays_devices {calls : List DeviceCall} (h : Plays (devices calls).run s log r t) :
    (r = .ok () ∧ deviceCalls log = allWell calls) ∨
      ∃ before call later f, calls = before ++ call :: later ∧ r = .error (.dispatch f) ∧
        deviceCalls log = allWell before ++ [(call, .error f)] := by
  induction calls generalizing s log with
  | nil =>
      obtain ⟨rfl, rfl, rfl⟩ := plays_done h
      exact .inl ⟨rfl, rfl⟩
  | cons call calls ih =>
      rw [devices, run_bind] at h
      obtain ⟨first, rest, x, u, rfl, hc, hr⟩ := plays_bind h
      rw [run_device] at hc
      obtain ⟨ws, answer, last, -, -, rfl, hd⟩ := plays_ask hc
      obtain ⟨rfl, rfl, rfl⟩ := plays_done hd
      cases answer with
      | error f =>
          obtain ⟨rfl, rfl, rfl⟩ := plays_done hr
          exact .inr ⟨[], call, calls, f, rfl, rfl, rfl⟩
      | ok _ =>
          rw [deviceCalls_append]
          obtain ⟨rfl, made⟩ | ⟨before, last, later, f, rfl, rfl, made⟩ := ih hr
          · exact .inl ⟨rfl, by rw [made]; rfl⟩
          · exact .inr ⟨call :: before, last, later, f, rfl, rfl, by rw [made]; rfl⟩

/-! ## 2. Hotkeys -/

/-- **How a hotkey can go**: its calls with how they went, and its result. -/
inductive HotkeyCourse (keys : List Key) :
    List (DeviceCall × Except Failure Unit) → Except StepError Unit → Prop where
  /-- All keys go down, and all are let go in reverse order. -/
  | completed :
      HotkeyCourse keys (allWell (keys.map .keyDown) ++ allWell (keys.reverse.map .keyUp)) (.ok ())
  /-- A press fails; nothing is let go. -/
  | pressFailed (before : List Key) (key : Key) (later : List Key) (f : Failure)
      (place : keys = before ++ key :: later) :
      HotkeyCourse keys (allWell (before.map .keyDown) ++ [(.keyDown key, .error f)])
        (.error (.dispatch f))
  /-- A release fails; the keys pressed before that one are not let go. -/
  | releaseFailed (later : List Key) (key : Key) (before : List Key) (f : Failure)
      (place : keys.reverse = later ++ key :: before) :
      HotkeyCourse keys
        (allWell (keys.map .keyDown) ++ (allWell (later.map .keyUp) ++ [(.keyUp key, .error f)]))
        (.error (.dispatch f))

/-- **A hotkey goes one of these ways.** -/
theorem plays_pressTogether {keys : List Key} (h : Plays (pressTogether keys).run s log r t) :
    HotkeyCourse keys (deviceCalls log) r := by
  rw [pressTogether, run_bind] at h
  obtain ⟨down, rest, x, u, rfl, hd, hr⟩ := plays_bind h
  rw [deviceCalls_append]
  obtain ⟨rfl, made⟩ | ⟨before, call, later, f, split, rfl, made⟩ := plays_devices hd
  · rw [run_bind, run_ask] at hr
    obtain ⟨ws, _, last, -, -, rfl, hu⟩ := plays_ask hr
    have settled (l : List Turn) : deviceCalls (⟨.settle hotkeySettle, ws, ()⟩ :: l) =
        deviceCalls l := rfl
    rw [made, settled]
    obtain ⟨rfl, made'⟩ | ⟨before, call, later, f, split, rfl, made'⟩ := plays_devices hu
    · rw [made']
      exact .completed
    · obtain ⟨done, rest, place, rfl, tail⟩ := List.map_eq_append_iff.mp split
      obtain ⟨key, held, rfl, rfl, rfl⟩ := List.map_eq_cons_iff.mp tail
      rw [made']
      exact .releaseFailed done key held f place
  · obtain ⟨done, rest, place, rfl, tail⟩ := List.map_eq_append_iff.mp split
    obtain ⟨key, later, rfl, rfl, rfl⟩ := List.map_eq_cons_iff.mp tail
    obtain ⟨rfl, rfl, rfl⟩ := plays_done hr
    rw [made, deviceCalls_nil, List.append_nil]
    exact .pressFailed done key later f place

/-! ## 3. Keys that stay down -/

/-- A press fails: the keys before it went down, and none was let go. -/
theorem held_pressFailed (before : List Key) (key : Key) (f : Failure) :
    let calls := allWell (before.map .keyDown) ++ [(.keyDown key, .error f)]
    pressed calls = before ∧ released calls = [] := by
  constructor
  · rw [pressed, List.filterMap_append, ← pressed, pressed_downs]
    exact List.append_nil _
  · rw [released, List.filterMap_append, ← released, released_downs]
    rfl

/-- All presses go well: all keys went down, and those were let go for which a release was tried. -/
theorem held_pressed (keys : List Key) (ups : List (DeviceCall × Except Failure Unit))
    (only : pressed ups = []) :
    let calls := allWell (keys.map .keyDown) ++ ups
    pressed calls = keys ∧ released calls = released ups := by
  constructor
  · rw [pressed, List.filterMap_append, ← pressed, ← pressed, pressed_downs, only]
    exact List.append_nil _
  · rw [released, List.filterMap_append, ← released, ← released, released_downs]
    rfl

/-- A release fails, and none is tried after it. -/
theorem held_releaseFailed (later : List Key) (key : Key) (f : Failure) :
    let ups := allWell (later.map .keyUp) ++ [(.keyUp key, .error f)]
    pressed ups = [] ∧ released ups = later ++ [key] := by
  constructor
  · rw [pressed, List.filterMap_append, ← pressed, pressed_ups]
    rfl
  · rw [released, List.filterMap_append, ← released, released_ups]
    rfl

/-- **A key is left held** exactly if a press fails that is not the first, or a release fails before the
only release of a key. In the first case nothing is let go, in the second all up to that release. -/
theorem key_left_held_iff {keys : List Key} (h : Plays (pressTogether keys).run s log r t) :
    (∃ key ∈ pressed (deviceCalls log), key ∉ released (deviceCalls log)) ↔
      (∃ before key later f, keys = before ++ key :: later ∧ before ≠ [] ∧
        r = .error (.dispatch f) ∧
        deviceCalls log = allWell (before.map .keyDown) ++ [(.keyDown key, .error f)]) ∨
      ∃ later key before f, keys.reverse = later ++ key :: before ∧
        (∃ held ∈ before, held ∉ later ++ [key]) ∧ r = .error (.dispatch f) ∧
        deviceCalls log = allWell (keys.map .keyDown) ++
          (allWell (later.map .keyUp) ++ [(.keyUp key, .error f)]) := by
  constructor
  · rintro ⟨held, down, up⟩
    have course := plays_pressTogether h
    generalize deviceCalls log = calls at course down up ⊢
    cases course with
    | completed =>
        obtain ⟨all, loose⟩ := held_pressed keys _ (pressed_ups keys.reverse)
        rw [all] at down
        rw [loose, released_ups, List.mem_reverse] at up
        exact absurd down up
    | pressFailed before key later f place =>
        refine .inl ⟨before, key, later, f, place, ?_, rfl, rfl⟩
        rw [(held_pressFailed before key f).1] at down
        exact List.ne_nil_of_mem down
    | releaseFailed later key before f place =>
        obtain ⟨only, tried⟩ := held_releaseFailed later key f
        obtain ⟨all, loose⟩ := held_pressed keys _ only
        rw [all, ← List.mem_reverse, place, List.append_cons, List.mem_append] at down
        rw [loose, tried] at up
        exact .inr ⟨later, key, before, f, place, ⟨held, down.resolve_left up, up⟩, rfl, rfl⟩
  · rintro (⟨before, key, later, f, place, some, -, made⟩ |
      ⟨later, key, before, f, place, ⟨held, own, up⟩, -, made⟩)
    · obtain ⟨all, loose⟩ := held_pressFailed before key f
      obtain ⟨first, first_mem⟩ := List.exists_mem_of_ne_nil before some
      rw [made, all, loose]
      exact ⟨first, first_mem, List.not_mem_nil⟩
    · obtain ⟨only, tried⟩ := held_releaseFailed later key f
      obtain ⟨all, loose⟩ := held_pressed keys _ only
      rw [made, all, loose, tried]
      have among : held ∈ keys.reverse := by
        rw [place]
        exact List.mem_append_right _ (List.mem_cons_of_mem _ own)
      exact ⟨held, List.mem_reverse.mp among, up⟩

/-- Control and shift, where shift does not go down. -/
def stuckControl : List Turn :=
  [⟨.device (.keyDown .control), [], .ok ()⟩, ⟨.device (.keyDown .shift), [], .error (.device "stuck")⟩]

theorem plays_stuckControl (s : Scene) :
    Plays (pressTogether [.control, .shift]).run s stuckControl
      (.error (.dispatch (.device "stuck"))) s := by
  iterate 2 refine Plays.turn _ _ (.inr rfl) (by trivial) ?_
  exact .done _ _

/-- Control stays down. -/
theorem key_left_held_control :
    Plays (pressTogether [.control, .shift]).run ⟨.fresh, .fresh⟩ stuckControl
        (.error (.dispatch (.device "stuck"))) ⟨.fresh, .fresh⟩ ∧
      ∃ key ∈ pressed (deviceCalls stuckControl), key ∉ released (deviceCalls stuckControl) := by
  have play := plays_stuckControl ⟨.fresh, .fresh⟩
  refine ⟨play, (key_left_held_iff play).mpr (.inl ?_)⟩
  exact ⟨[.control], .shift, [], .device "stuck", rfl, List.cons_ne_nil _ _, rfl, rfl⟩

/-- **Not every key that went down is let go**: a hotkey that fails may leave one held. -/
theorem failed_hotkey_holds_key :
    ¬ ∀ (keys : List Key) (s t : Scene) (log : List Turn) (r : Except StepError Unit), keys ≠ [] →
      Plays (pressTogether keys).run s log r t →
        ∀ key ∈ pressed (deviceCalls log), key ∈ released (deviceCalls log) := by
  intro claim
  have loose := claim _ _ _ _ _ (List.cons_ne_nil _ _) (plays_stuckControl ⟨.fresh, .fresh⟩)
    .control (.head _)
  cases loose

end Plays
end TaskReplay
