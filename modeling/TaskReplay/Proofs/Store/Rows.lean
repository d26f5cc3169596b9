import TaskReplay.Proofs.Action.RoundTrip
import TaskReplay.Proofs.Run.ValidRun
import TaskReplay.Proofs.Store.Columns
import TaskReplay.Proofs.Time.RoundTrip

/-!
# What a row gives back

Every task has a row, but not every row of a task is read as that task again. Steps are written at any
depth and read to a depth of 127; instants are written in any year and read in years of four digits;
the counter is cut off at the largest value of its column.

* `Task.Lossless` -- the confidences of a task survive their text; `Task.lossless_of_valid` -- in a
  valid task they are finite, so it is enough that finite ones survive;
* `Task.Readable` -- a task that its row can give back; `Task.kept` -- what it then gives back;
* `Row.toTask?_ofTask` -- **a row is read as the task it was written for, or not at all**.
-/

namespace TaskReplay

/-! ## 1. Confidences -/

open Float.Model in
theorem isFinite_of_between {c : Float32} (h : 0 ≤ c ∧ c ≤ 1) : c.isFinite = true := by
  have low : (0 : Float32).toModel.unpack.le c.toModel.unpack = true := of_decide_eq_true h.1
  have high : c.toModel.unpack.le (1 : Float32).toModel.unpack = true := of_decide_eq_true h.2
  obtain ⟨s, zero⟩ : ∃ s, (0 : Float32).toModel.unpack = .zero s := ⟨_, by rfl⟩
  obtain ⟨m, e, p, one⟩ : ∃ m e p, (1 : Float32).toModel.unpack = .finite .positive m e p :=
    ⟨_, _, _, by rfl⟩
  rw [zero] at low
  rw [one] at high
  change UnpackedFloat.isFinite _ = true
  cases hc : c.toModel.unpack with
  | zero sign => rfl
  | finite sign mantissa exponent positive => rfl
  | notANumber => rw [hc] at high; cases high
  | infinity sign =>
      cases sign with
      | positive => rw [hc] at high; cases high
      | negative => rw [hc] at low; cases low

theorem Confident.isFinite {o : Option Float32} (h : Confident o) : ∀ c ∈ o, c.isFinite = true :=
  fun c hc => isFinite_of_between (h c hc)

theorem Action.Complete.isFinite {a : Action} (h : a.Complete) :
    ∀ c ∈ a.confidence?, c.isFinite = true := by
  intro c hc
  cases a with
  | condition | loop => cases hc
  | simple header d =>
      cases d with
      | findImage template confidence region storeInto => exact Confident.isFinite h.2 c hc
      | waitForImage template timeout confidence disappear storeInto =>
          exact Confident.isFinite h.2.2 c hc
      | click | typeText | pressKey | hotkey | wait => cases hc

namespace Task

variable {t : Task}

/-- The confidences of a task survive printing and parsing. -/
def Lossless (t : Task) : Prop := ∀ c ∈ Action.confidences t.actions, Json.ExactSingle c

theorem isFinite_of_valid (valid : t.problems = []) :
    ∀ c ∈ Action.confidences t.actions, c.isFinite = true := by
  intro c hc
  obtain ⟨a, ha, own⟩ := List.mem_filterMap.mp hc
  have complete := complete_of_validate ((validate_eq_ok_iff t).mpr valid) a ha
  exact complete.isFinite c own

/-- In a valid task it is enough that finite confidences survive. -/
theorem lossless_of_valid (valid : t.problems = [])
    (exact : ∀ c ∈ Action.confidences t.actions, c.isFinite = true → Json.ExactSingle c) :
    t.Lossless := fun c hc => exact c hc (isFinite_of_valid valid c hc)

/-! ## 2. Tasks that their rows give back -/

/-- How deep the steps of a task nest in their text. -/
def nesting (t : Task) : Nat := Json.depth (.array (Action.listJson t.actions))

/-- **A task that its row can give back.** -/
structure Readable (t : Task) : Prop where
  shallow : t.nesting ≤ Json.maxDepth
  created : t.createdAt.FourDigit
  updated : t.updatedAt.FourDigit
  lastRun : ∀ time ∈ t.lastRunAt, time.FourDigit

theorem readable_iff : t.Readable ↔ t.nesting ≤ Json.maxDepth ∧ t.createdAt.FourDigit ∧
    t.updatedAt.FourDigit ∧ ∀ time ∈ t.lastRunAt, time.FourDigit :=
  ⟨fun h => ⟨h.shallow, h.created, h.updated, h.lastRun⟩, fun ⟨a, b, c, d⟩ => ⟨a, b, c, d⟩⟩

instance (t : Task) : Decidable t.Readable := decidable_of_iff' _ readable_iff

/-- A task as its row gives it back. -/
def kept (t : Task) : Task := { t with runCount := Store.capped t.runCount }

/-- The column for the counter loses nothing up to its limit. -/
theorem kept_eq_of_le (counted : t.runCount ≤ Store.countLimit) : t.kept = t := by
  simp only [kept, Store.capped, if_pos counted]

end Task

/-! ## 3. Columns -/

namespace Store.Row

/-- Steps are read back up to the depth that a reader takes. -/
theorem readAs?_actions {as : List Action}
    (lossless : ∀ c ∈ Action.confidences as, Json.ExactSingle c) :
    Json.readAs? .whole Action.listOf? (Json.array (Action.listJson as)).print =
      if Json.depth (.array (Action.listJson as)) ≤ Json.maxDepth then some as else none := by
  have legible : Json.Legible (.array (Action.listJson as)) :=
    .array (Action.legible_listJson as lossless)
  have list : Action.listOf? (.array (Action.listJson as)) = some as :=
    Action.itemsOf?_listJson as lossless
  split
  · next shallow => rw [Json.readAs?_print legible shallow, list]
  · next deep =>
    have parsed := Json.parse_print fun t ht => (legible t ht).1
    have stuck : Json.readable .whole Json.maxDepth (.array (Action.listJson as)) = false := by
      rw [← Bool.not_eq_true, Json.readable_whole_iff]
      exact fun h => deep h.1
    simp [Json.readAs?, parsed, stuck]

theorem counter_capped (n : UInt64) : counter (capped n) = counter n := by
  have limit : (countLimit.toNat : Int) = Width.maxInt64 := by decide
  have same : min ((capped n).toNat : Int) Width.maxInt64 = min (n.toNat : Int) Width.maxInt64 := by
    unfold capped
    split
    · rfl
    · next large =>
      rw [UInt64.le_iff_toNat_le] at large
      omega
  rw [counter, counter, same]

theorem strict?_instant (time : Timestamp) :
    Timestamp.strict? (instant time) = if time.FourDigit then some time else none := by
  split
  · next year => exact Timestamp.strict?_textIn year
  · next year => exact Timestamp.strict?_textIn_far year _

theorem optional_strict?_instant (o : Option Timestamp) :
    optional Timestamp.strict? (o.map instant) =
      if ∀ time ∈ o, time.FourDigit then some o else none := by
  cases o with
  | none => simp [optional]
  | some time => by_cases year : time.FourDigit <;> simp [optional, strict?_instant, year]

/-- **A row is read as the task it was written for, or not at all.** -/
theorem toTask?_ofTask {t : Task} (lossless : t.Lossless) :
    (ofTask t).toTask? t.id.text = if t.Readable then some t.kept else none := by
  simp only [toTask?, ofTask, Uuid.ofText?_text, flag?_flag, optional_flag?_flag, counter?_counter,
    readAs?_actions lossless, strict?_instant, optional_strict?_instant, Task.readable_iff,
    Task.nesting]
  -- each of the four conditions is one column: if it fails, so does the row
  by_cases shallow : Json.depth (.array (Action.listJson t.actions)) ≤ Json.maxDepth
  · by_cases created : t.createdAt.FourDigit
    · by_cases updated : t.updatedAt.FourDigit
      · by_cases lastRun : ∀ time ∈ t.lastRunAt, time.FourDigit
        · rw [if_pos shallow, if_pos created, if_pos updated, if_pos lastRun,
            if_pos ⟨shallow, created, updated, lastRun⟩]
          rfl
        · have unreadable : ¬ (Json.depth (.array (Action.listJson t.actions)) ≤ Json.maxDepth ∧
              t.createdAt.FourDigit ∧ t.updatedAt.FourDigit ∧
              ∀ time ∈ t.lastRunAt, time.FourDigit) := fun h => lastRun h.2.2.2
          rw [if_neg lastRun, if_neg unreadable]
          simp
      · simp [updated]
    · simp [created]
  · simp [shallow]

/-- The row of what a row gives back is that row. -/
theorem ofTask_kept (t : Task) : ofTask t.kept = ofTask t := by
  simp [ofTask, Task.kept, counter_capped]

end Store.Row

end TaskReplay
