import TaskReplay.Action.Codec
import TaskReplay.Proofs.Json.Leaves
import TaskReplay.Proofs.Json.Records

/-!
# What the fields of a step give back

Each part of a step is written as members of the object of that step and read out of them again. For
each part, from texts and delays up to the rule of a loop, two facts:

* it comes back, written or left out (`header?_members`, `deed?_fields`, `test?_members`,
  `rule?_members`);
* a reader of the text gets through what is written (`Header.legible`, `Deed.legible`, ...).

The names of the parts are `Listed`, so that they can stand side by side in one object.
A confidence comes back under the condition `ExactSingle`.
-/

namespace TaskReplay

open Json (ExactSingle Record)

/-! ## 1. Leaves -/

section Leaves

variable {r : Record} {name : String}

/-- An optional text comes back. -/
theorem lenient_text {o : Option String} (found : r.get? name = o.map .string) :
    r.lenient name Json.text? = some o := Record.lenient_of_get? found fun _ _ => rfl

theorem nullable_delay (ms : UInt64) : Json.nullable Json.uint64? (delayJson ms) = some (some ms) :=
  congrArg (Option.map some) (Json.uint64?_ofNat ms)

/-- An optional delay comes back, left out when there is none. -/
theorem lenient_delay {o : Option UInt64} (found : r.get? name = o.map delayJson) :
    r.lenient name Json.uint64? = some o :=
  Record.lenient_of_get? found fun ms _ => nullable_delay ms

/-- An optional delay comes back, `null` when there is none. -/
theorem lenient_delayOrNull {o : Option UInt64}
    (found : r.get? name = some (.ofOption delayJson o)) : r.lenient name Json.uint64? = some o :=
  Record.lenient_of_get?_ofOption found fun ms _ => nullable_delay ms

/-- An optional number comes back. -/
theorem lenient_uint32 {o : Option UInt32} (found : r.get? name = o.map fun n => .ofNat n.toNat) :
    r.lenient name Json.uint32? = some o :=
  Record.lenient_of_get? found fun n _ => congrArg (Option.map some) (Json.uint32?_ofNat n)

/-- A single that comes back is not written as `null`. -/
theorem nullable_single {c : Float32} (exact : ExactSingle c) :
    Json.nullable Json.float32? (.ofFloat32 c) = some (some c) := by
  unfold ExactSingle at exact
  unfold Json.ofFloat32 at exact ⊢
  split at exact
  · exact congrArg (Option.map some) exact
  · cases exact

/-- An optional single comes back, if it does in itself. -/
theorem lenient_single {o : Option Float32} (found : r.get? name = o.map .ofFloat32)
    (exact : ∀ c ∈ o, ExactSingle c) : r.lenient name Json.float32? = some o :=
  Record.lenient_of_get? found fun c hc => nullable_single (exact c hc)

theorem Region.ofJson?_toJson (r : Region) : Region.ofJson? r.toJson = some r := by
  simp [ofJson?, toJson, names, Record.of?, Record.required, Json.int32?_ofInt, Json.uint32?_ofNat]

/-- An optional region comes back. -/
theorem lenient_region {o : Option Region} (found : r.get? name = o.map Region.toJson) :
    r.lenient name Region.ofJson? = some o :=
  Record.lenient_of_get? found fun area _ => congrArg (Option.map some) area.ofJson?_toJson

end Leaves

theorem list?_text (ss : List String) : Json.list? Json.text? (.ofList .string ss) = some ss := by
  change (ss.map Json.string).mapM Json.text? = some ss
  induction ss with
  | nil => rfl
  | cons s ss ih => simp [ih, Json.text?]

theorem legible_delay (ms : UInt64) : Json.Legible (delayJson ms) :=
  .ofNat (Nat.le_of_lt_succ ms.toNat_lt)

theorem legible_uint32 (n : UInt32) : Json.Legible (.ofNat n.toNat) :=
  .ofNat (Json.uint32_le_maxUInt64 n)

theorem legible_delayOrNull (o : Option UInt64) : Json.Legible (.ofOption delayJson o) := by
  cases o with
  | none => exact .null
  | some ms => exact legible_delay ms

theorem Region.legible (r : Region) : Json.Legible r.toJson := by
  refine .object ?_
  simp only [List.forall_mem_cons]
  exact ⟨.ofInt r.x, .ofInt r.y, legible_uint32 r.width, legible_uint32 r.height,
    List.forall_mem_nil _⟩

/-! ## 2. Words and targets -/

theorem Predicate.ofJson?_toJson (buffered : Bool) (p : Predicate) :
    Predicate.ofJson? buffered p.toJson = some p := by cases p <;> rfl

theorem LoopKind.ofJson?_toJson (buffered : Bool) (k : LoopKind) :
    LoopKind.ofJson? buffered k.toJson = some k := by cases k <;> rfl

theorem ClickTarget.ofJson?_toJson (buffered : Bool) (t : ClickTarget) :
    ClickTarget.ofJson? buffered t.toJson = some t := by
  cases t with
  | coordinates x y =>
    have read : ofFields? 0 (coordinates x y).toJson = some (coordinates x y) := by
      simp [ofFields?, toJson, Record.of?, Record.required, Json.int32?_ofInt]
    exact read
  | image template => rfl
  | stored name => rfl

theorem Click.ofRecord?_members (buffered : Bool) (c : Click) :
    Click.ofRecord? buffered ⟨false, c.members⟩ = some c := by
  simp [ofRecord?, members, Record.required, Record.defaulted, ClickTarget.ofJson?_toJson,
    Json.int32?_ofInt, Json.uint32?_ofNat]

theorem Predicate.legible (p : Predicate) : Json.Legible p.toJson := by
  cases p <;> exact .string _

theorem LoopKind.legible (k : LoopKind) : Json.Legible k.toJson := by cases k <;> exact .string _

theorem ClickTarget.legible (t : ClickTarget) : Json.Legible t.toJson := by
  cases t with
  | coordinates x y =>
    refine .object ?_
    simp only [List.forall_mem_cons]
    exact ⟨.string _, .ofInt x, .ofInt y, List.forall_mem_nil _⟩
  | image template | stored name =>
    refine .object ?_
    simp only [List.forall_mem_cons]
    exact ⟨.string _, .string _, List.forall_mem_nil _⟩

/-! ## 3. Fields that may be left out -/

/-- A member that may be left out is found iff it was written. -/
@[simp] theorem get?_unlessNone_append {α : Type} (positional : Bool) (name key : String)
    (write : α → Json) (o : Option α) (ms : List (String × Json)) :
    (⟨positional, unlessNone name write o ++ ms⟩ : Record).get? key =
      if key = name then (o.map write).or ((⟨positional, ms⟩ : Record).get? key)
      else (⟨positional, ms⟩ : Record).get? key := by
  cases o <;> simp [unlessNone]

@[simp] theorem get?_unlessNone {α : Type} (positional : Bool) (name key : String)
    (write : α → Json) (o : Option α) :
    (⟨positional, unlessNone name write o⟩ : Record).get? key =
      if key = name then o.map write else none := by
  cases o <;> simp [unlessNone]

theorem listed_unlessNone_append {α : Type} {name : String} {write : α → Json} {o : Option α}
    {ms : List (String × Json)} {names : List String} (later : Json.Listed ms names) :
    Json.Listed (unlessNone name write o ++ ms) (name :: names) := by
  cases o with
  | none => exact later.skip
  | some a => exact later.field

theorem listed_unlessNone {α : Type} {name : String} {write : α → Json} {o : Option α} :
    Json.Listed (unlessNone name write o) [name] := by
  cases o with
  | none => exact .nil
  | some a => exact .field .nil

theorem legible_unlessNone {α : Type} {name : String} {write : α → Json} {o : Option α}
    (each : ∀ a ∈ o, Json.Legible (write a)) :
    ∀ m ∈ unlessNone name write o, Json.Legible m.2 := by
  cases o with
  | none => exact List.forall_mem_nil _
  | some a => exact List.forall_mem_singleton.2 (each a rfl)

/-! ## 4. Headers -/

namespace Header

theorem members_eq (h : Header) : h.members =
    ("id", .string h.id) :: (unlessNone "description" .string h.description ++
      (unlessNone "delay_before_ms" delayJson h.delayBefore ++
        (unlessNone "delay_after_ms" delayJson h.delayAfter ++
          [("continue_on_error", .bool h.continueOnError)]))) := by
  simp only [members, List.append_assoc, List.cons_append]

theorem listed_members (h : Header) : Json.Listed h.members Action.headerNames := by
  rw [members_eq]
  exact .field (listed_unlessNone_append (listed_unlessNone_append (listed_unlessNone_append
    (.field .nil))))

/-- The fields of a header give the header. -/
theorem header?_members (h : Header) : Action.header? ⟨false, h.members⟩ = some h := by
  have id : (⟨false, h.members⟩ : Record).required "id" Json.text? = some h.id := by
    simp [members_eq, Record.required, Json.text?]
  have description : (⟨false, h.members⟩ : Record).lenient "description" Json.text? =
      some h.description :=
    lenient_text (by simp [members_eq])
  have before : (⟨false, h.members⟩ : Record).lenient "delay_before_ms" Json.uint64? =
      some h.delayBefore :=
    lenient_delay (by simp [members_eq])
  have after : (⟨false, h.members⟩ : Record).lenient "delay_after_ms" Json.uint64? =
      some h.delayAfter :=
    lenient_delay (by simp [members_eq])
  have continueOnError : (⟨false, h.members⟩ : Record).defaulted "continue_on_error" false
      Json.bool? = some h.continueOnError := by
    simp [members_eq, Record.defaulted, Json.bool?]
  simp [Action.header?, id, description, before, after, continueOnError]

theorem legible (h : Header) : ∀ m ∈ h.members, Json.Legible m.2 := by
  simp only [members_eq, List.forall_mem_cons, List.forall_mem_append]
  exact ⟨.string _, legible_unlessNone fun s _ => .string s,
    legible_unlessNone fun ms _ => legible_delay ms,
    legible_unlessNone fun ms _ => legible_delay ms, .bool _, List.forall_mem_nil _⟩

end Header

/-! ## 5. Steps without inner steps -/

namespace Deed

/-- The confidence that a step names itself. -/
def confidence? : Deed → Option Float32
  | findImage _ confidence _ _ => confidence
  | waitForImage _ _ confidence _ _ => confidence
  | _ => none

/-- The place of a kind in `Action.kinds`. -/
def place : Deed → Nat
  | click .single _ => 0
  | click .double _ => 1
  | click .right _ => 2
  | typeText .. => 3
  | pressKey .. => 4
  | hotkey .. => 5
  | wait .. => 6
  | findImage .. => 7
  | waitForImage .. => 8

theorem place_lt (d : Deed) : d.place < 9 := by
  cases d with
  | click kind place => cases kind <;> simp [Deed.place]
  | _ => simp [place]

/-- The fields of a step without inner steps, its kind left aside. -/
def fields (d : Deed) : List (String × Json) := d.members.tail

theorem members_eq (d : Deed) :
    d.members = ("type", .string (Action.kinds.getD d.place "")) :: d.fields := by
  cases d with
  | click kind place => cases kind <;> rfl
  | _ => rfl

theorem listed_fields (d : Deed) : Json.Listed d.fields (Action.fieldNames d.place) := by
  cases d with
  | click kind place =>
    cases kind <;> exact .field (.field (.field (.field .nil)))
  | typeText text keyDelay => exact .field listed_unlessNone
  | pressKey key => exact .field .nil
  | hotkey keys => exact .field .nil
  | wait duration variation => exact .field (.field .nil)
  | findImage template confidence region storeInto =>
    simp only [fields, members, List.append_assoc, List.cons_append, List.tail_cons]
    exact .field (listed_unlessNone_append (listed_unlessNone_append listed_unlessNone))
  | waitForImage template timeout confidence disappear storeInto =>
    simp only [fields, members, List.cons_append, List.tail_cons]
    exact .field (.field (listed_unlessNone_append (.field listed_unlessNone)))

/-- The fields of a step without inner steps give that step. -/
theorem deed?_fields {d : Deed} (exact : ∀ c ∈ d.confidence?, ExactSingle c) :
    Action.deed? d.place ⟨false, d.fields⟩ = some d := by
  cases d with
  | click kind place =>
    have read := Click.ofRecord?_members true place
    cases kind <;> exact congrArg (· >>= fun c => some (click _ c)) read
  | typeText text keyDelay =>
    have read : (⟨false, (typeText text keyDelay).fields⟩ : Record).required "text" Json.text? =
        some text := rfl
    have delay : (⟨false, (typeText text keyDelay).fields⟩ : Record).lenient "inter_key_delay_ms"
        Json.uint64? = some keyDelay :=
      lenient_delay (by simp [fields, members])
    simp [place, Action.deed?, read, delay]
  | pressKey key => rfl
  | hotkey keys =>
    exact congrArg (· >>= fun ks => some (hotkey ks)) (list?_text keys)
  | wait duration variation =>
    have length : (⟨false, (wait duration variation).fields⟩ : Record).lenient "duration_ms"
        Json.uint64? = some duration :=
      lenient_delayOrNull rfl
    have jitter : (⟨false, (wait duration variation).fields⟩ : Record).defaulted
        "random_variation_ms" 0 Json.uint64? = some variation := by
      simp [fields, members, Record.defaulted, delayJson, Json.uint64?_ofNat]
    simp [place, Action.deed?, length, jitter]
  | findImage template confidence region storeInto =>
    generalize written : (findImage template confidence region storeInto).fields = ms
    have name : (⟨false, ms⟩ : Record).required "template" Json.text? = some template := by
      simp [← written, fields, members, Record.required, Json.text?]
    have sure : (⟨false, ms⟩ : Record).lenient "confidence" Json.float32? = some confidence :=
      lenient_single (by simp [← written, fields, members]) exact
    have area : (⟨false, ms⟩ : Record).lenient "region" Region.ofJson? = some region :=
      lenient_region (by simp [← written, fields, members])
    have into : (⟨false, ms⟩ : Record).lenient "store_into" Json.text? = some storeInto :=
      lenient_text (by simp [← written, fields, members])
    simp [place, Action.deed?, name, sure, area, into]
  | waitForImage template timeout confidence disappear storeInto =>
    generalize written : (waitForImage template timeout confidence disappear storeInto).fields = ms
    have name : (⟨false, ms⟩ : Record).required "template" Json.text? = some template := by
      simp [← written, fields, members, Record.required, Json.text?]
    have limit : (⟨false, ms⟩ : Record).lenient "timeout_ms" Json.uint64? = some timeout :=
      lenient_delayOrNull (by simp [← written, fields, members])
    have sure : (⟨false, ms⟩ : Record).lenient "confidence" Json.float32? = some confidence :=
      lenient_single (by simp [← written, fields, members]) exact
    have gone : (⟨false, ms⟩ : Record).defaulted "wait_for_disappearance" false Json.bool? =
        some disappear := by
      simp [← written, fields, members, Record.defaulted, Json.bool?]
    have into : (⟨false, ms⟩ : Record).lenient "store_into" Json.text? = some storeInto :=
      lenient_text (by simp [← written, fields, members])
    simp [place, Action.deed?, name, limit, sure, gone, into]

theorem legible {d : Deed} (exact : ∀ c ∈ d.confidence?, ExactSingle c) :
    ∀ m ∈ d.members, Json.Legible m.2 := by
  cases d with
  | click kind place =>
    simp only [members, Click.members, List.forall_mem_cons]
    exact ⟨.string _, place.target.legible, .ofInt _, .ofInt _, legible_uint32 _,
      List.forall_mem_nil _⟩
  | typeText text keyDelay =>
    simp only [members, List.forall_mem_cons]
    exact ⟨.string _, .string _, legible_unlessNone fun ms _ => legible_delay ms⟩
  | pressKey key =>
    simp only [members, List.forall_mem_cons]
    exact ⟨.string _, .string _, List.forall_mem_nil _⟩
  | hotkey keys =>
    simp only [members, List.forall_mem_cons]
    exact ⟨.string _, .array (List.forall_mem_map.2 fun s _ => .string s), List.forall_mem_nil _⟩
  | wait duration variation =>
    simp only [members, List.forall_mem_cons]
    exact ⟨.string _, legible_delayOrNull _, legible_delay _, List.forall_mem_nil _⟩
  | findImage template confidence region storeInto =>
    simp only [members, List.forall_mem_cons, List.forall_mem_append, List.cons_append]
    exact ⟨.string _, .string _, ⟨legible_unlessNone fun c hc => .ofFloat32 (exact c hc),
      legible_unlessNone fun r _ => r.legible⟩, legible_unlessNone fun s _ => .string s⟩
  | waitForImage template timeout confidence disappear storeInto =>
    simp only [members, List.forall_mem_cons, List.forall_mem_append, List.cons_append]
    exact ⟨.string _, .string _, legible_delayOrNull _,
      legible_unlessNone fun c hc => .ofFloat32 (exact c hc), .bool _,
      legible_unlessNone fun s _ => .string s⟩

end Deed

/-! ## 6. Tests and rules -/

/-- The fields of a test give the test, whatever stands behind them. -/
theorem Test.test?_members (t : Test) (bodies : List (String × Json))
    (others : Json.Listed bodies ["then_actions", "else_actions"]) :
    Action.test? ⟨false, t.members ++ bodies⟩ = some t := by
  have absent {name : String} (other : name ∉ ["then_actions", "else_actions"]) :
      (⟨false, bodies⟩ : Record).get? name = none := others.lookup_eq_none other
  generalize written : t.members ++ bodies = ms
  have predicate : (⟨false, ms⟩ : Record).required "predicate" (Predicate.ofJson? true) =
      some t.predicate := by
    simp [← written, members, Record.required, Predicate.ofJson?_toJson]
  have template : (⟨false, ms⟩ : Record).lenient "template" Json.text? = some t.template :=
    lenient_text (by simp [← written, members, absent])
  have variableName : (⟨false, ms⟩ : Record).lenient "variable" Json.text? =
      some t.variableName :=
    lenient_text (by simp [← written, members, absent])
  have expected : (⟨false, ms⟩ : Record).lenient "expected" Json.text? = some t.expected :=
    lenient_text (by simp [← written, members, absent])
  simp [Action.test?, predicate, template, variableName, expected]

/-- The fields of a loop's rule give the rule, whatever stands behind them. -/
theorem LoopRule.rule?_members (r : LoopRule) (bodies : List (String × Json))
    (others : Json.Listed bodies ["actions"]) :
    Action.rule? ⟨false, r.members ++ bodies⟩ = some r := by
  have absent {name : String} (other : name ∉ ["actions"]) :
      (⟨false, bodies⟩ : Record).get? name = none := others.lookup_eq_none other
  generalize written : r.members ++ bodies = ms
  have kind : (⟨false, ms⟩ : Record).required "loop_kind" (LoopKind.ofJson? true) =
      some r.kind := by
    simp [← written, members, Record.required, LoopKind.ofJson?_toJson]
  have count : (⟨false, ms⟩ : Record).lenient "count" Json.uint32? = some r.count :=
    lenient_uint32 (by simp [← written, members, absent])
  have template : (⟨false, ms⟩ : Record).lenient "template" Json.text? = some r.template :=
    lenient_text (by simp [← written, members, absent])
  have limit : (⟨false, ms⟩ : Record).lenient "max_iterations" Json.uint32? =
      some r.maxIterations :=
    lenient_uint32 (by simp [← written, members, absent])
  simp [Action.rule?, kind, count, template, limit]

theorem Test.legible (t : Test) : ∀ m ∈ t.members, Json.Legible m.2 := by
  simp only [members, List.forall_mem_cons, List.forall_mem_append, List.cons_append]
  exact ⟨t.predicate.legible, ⟨legible_unlessNone fun s _ => .string s,
    legible_unlessNone fun s _ => .string s⟩, legible_unlessNone fun s _ => .string s⟩

theorem LoopRule.legible (r : LoopRule) : ∀ m ∈ r.members, Json.Legible m.2 := by
  simp only [members, List.forall_mem_cons, List.forall_mem_append, List.cons_append]
  exact ⟨r.kind.legible, ⟨legible_unlessNone fun n _ => legible_uint32 n,
    legible_unlessNone fun s _ => .string s⟩, legible_unlessNone fun n _ => legible_uint32 n⟩

end TaskReplay
