import TaskReplay.Json.Decode

/-!
# Records that share one object

Several records may stand side by side in one object, each with its own names. What a reader of one
of them finds:

* `Listed` -- the names of some members are among given ones, in their order and none twice;
* `of?_between` -- a reader that knows one set of names is given exactly its own members, **if no
  name of theirs occurs before or after them**;
* `lenient_of_get?` and its like -- a field that may be left out comes back whether it was or not.
-/

namespace TaskReplay.Json

variable {names : List String} {ms : List (String × Json)}

/-! ## 1. Names -/

/-- The names of the members are among `names`, in that order. -/
def Listed (ms : List (String × Json)) (names : List String) : Prop :=
  (ms.map (·.1)).Sublist names

namespace Listed

theorem nil : Listed [] names := List.nil_sublist names

/-- A field that is written. -/
theorem field {name : String} {v : Json} (later : Listed ms names) :
    Listed ((name, v) :: ms) (name :: names) := List.Sublist.cons_cons name later

/-- A field that is left out. -/
theorem skip {name : String} (later : Listed ms names) : Listed ms (name :: names) :=
  List.Sublist.cons name later

theorem mem_names (listed : Listed ms names) {m : String × Json} (hm : m ∈ ms) : m.1 ∈ names :=
  List.Sublist.mem (List.mem_map_of_mem hm) listed

theorem lookup_eq_none (listed : Listed ms names) {name : String} (other : name ∉ names) :
    ms.lookup name = none := by
  rw [List.lookup_eq_none_iff]
  intro m hm
  have apart : name ≠ m.1 := fun same => other (same ▸ listed.mem_names hm)
  simpa using apart

end Listed

/-! ## 2. One record among others -/

namespace Record

/-- The reader of one record finds its members in an object, and no others. -/
theorem of?_between (before after : List (String × Json)) (own : Listed ms names)
    (distinct : names.Nodup) (foreignBefore : ∀ m ∈ before, m.1 ∉ names)
    (foreignAfter : ∀ m ∈ after, m.1 ∉ names) :
    of? names (.object (before ++ (ms ++ after))) = some ⟨false, ms⟩ := by
  have kept : ms.filter (fun m => names.contains m.1) = ms :=
    List.filter_eq_self.2 fun m hm => List.contains_iff_mem.2 (own.mem_names hm)
  have dropped {others : List (String × Json)} (foreign : ∀ m ∈ others, m.1 ∉ names) :
      others.filter (fun m => names.contains m.1) = [] :=
    List.filter_eq_nil_iff.2 fun m hm known => foreign m hm (List.contains_iff_mem.1 known)
  have once : (ms.map (·.1)).Nodup := List.Sublist.nodup own distinct
  simp only [of?, List.filter_append, kept, dropped foreignBefore, dropped foreignAfter,
    List.nil_append, List.append_nil, if_pos once]

/-! ## 3. Fields -/

variable {α : Type} {r : Record} {name : String} {read : Json → Option α} {write : α → Json}

@[simp] theorem get?_nil {positional : Bool} : (⟨positional, []⟩ : Record).get? name = none := rfl

@[simp] theorem get?_field {positional : Bool} {key : String} {v : Json} :
    (⟨positional, (name, v) :: ms⟩ : Record).get? key =
      if key = name then some v else (⟨positional, ms⟩ : Record).get? key := by
  by_cases same : key = name
  · subst same
    rw [get?, List.lookup_cons_self, if_pos rfl]
  · rw [get?, List.lookup_cons, beq_false_of_ne same, if_neg same]
    rfl

theorem defaulted_of_get? {v : Json} {absent : α} (found : r.get? name = some v) :
    r.defaulted name absent read = read v := by
  rw [defaulted, found]

/-- An optional field comes back, left out or written. -/
theorem lenient_of_get? {o : Option α} (found : r.get? name = o.map write)
    (back : ∀ a ∈ o, nullable read (write a) = some (some a)) : r.lenient name read = some o := by
  rw [lenient, defaulted, found]
  cases o with
  | none => rfl
  | some a => exact back a rfl

/-- An optional field comes back, `null` or not. -/
theorem lenient_of_get?_ofOption {o : Option α} (found : r.get? name = some (ofOption write o))
    (back : ∀ a ∈ o, nullable read (write a) = some (some a)) : r.lenient name read = some o := by
  rw [lenient, defaulted_of_get? found]
  cases o with
  | none => rfl
  | some a => exact back a rfl

end Record

/-! ## 4. Tags -/

/-- The tag of an object is its one member `type`, wherever it stands. -/
theorem tagged?_between {buffered : Bool} {kinds : List String} {tag : Json}
    {before after : List (String × Json)} (untaggedBefore : ∀ m ∈ before, m.1 ≠ "type")
    (untaggedAfter : ∀ m ∈ after, m.1 ≠ "type") :
    tagged? buffered kinds (.object (before ++ ("type", tag) :: after)) =
      (tag? buffered kinds tag).map fun kind =>
        (kind, .object (before ++ ("type", tag) :: after)) := by
  have dropped {others : List (String × Json)} (untagged : ∀ m ∈ others, m.1 ≠ "type") :
      others.filter (·.1 == "type") = [] :=
    List.filter_eq_nil_iff.2 fun m hm tagged => untagged m hm (beq_iff_eq.1 tagged)
  simp only [tagged?, List.filter_append, List.filter_cons, dropped untaggedBefore,
    dropped untaggedAfter, BEq.rfl, ↓reduceIte, List.nil_append]

end TaskReplay.Json
