import TaskReplay.Proofs.Action.Fields

/-!
# Scripts are read back as they were written

* `nodup_names` -- header, kind and fields of a step share one object, and no name belongs to two of
  them; so each reader finds exactly its own members (`assemble?_members`);
* `confidences` -- the confidences in a script, the only numbers that are rounded on their way;
* `ofJson?_toJson`, `itemsOf?_listJson` -- by induction over the tree of steps, **a step comes back
  as it was written**;
* `script_reads_back` -- so does a script out of its text, unless it nests too deeply for a reader.
-/

namespace TaskReplay

open Json (ExactSingle Record)

namespace Action

/-! ## 1. The members of a step -/

/-- The place of a step's kind in `kinds`. -/
def place : Action → Nat
  | simple _ d => d.place
  | condition .. => 9
  | loop .. => 10

/-- The fields of a step, header and kind left aside. -/
def fields (a : Action) : List (String × Json) := a.kindMembers.tail

theorem kindMembers_eq (a : Action) :
    a.kindMembers = ("type", .string (kinds.getD a.place "")) :: a.fields := by
  cases a with
  | simple h d => exact d.members_eq
  | condition h t a b => rfl
  | loop h r b => rfl

theorem place_lt (a : Action) : a.place < 11 := by
  cases a with
  | simple h d => exact Nat.lt_of_lt_of_le d.place_lt (by decide)
  | _ => simp [place]

theorem listed_fields (a : Action) : Json.Listed a.fields (fieldNames a.place) := by
  cases a with
  | simple h d => exact d.listed_fields
  | condition h t a b =>
    simp only [fields, kindMembers, Test.members, List.append_assoc, List.cons_append,
      List.tail_cons]
    exact .field (listed_unlessNone_append (listed_unlessNone_append (listed_unlessNone_append
      (.field (.field .nil)))))
  | loop h r b =>
    simp only [fields, kindMembers, LoopRule.members, List.append_assoc, List.cons_append,
      List.tail_cons]
    exact .field (listed_unlessNone_append (listed_unlessNone_append (listed_unlessNone_append
      (.field .nil))))

/-- A header, a kind and the fields of that kind share one object without sharing a name. -/
theorem nodup_names : ∀ kind < 11, (headerNames ++ "type" :: fieldNames kind).Nodup := by decide

theorem place?_kinds : ∀ kind < 11, Json.place? kinds (kinds.getD kind "") = some kind := by decide

/-- An object of a step is taken apart into header, kind and fields of the kind. -/
theorem assemble?_members (a : Action) (bodies : List (String × Option (List Action))) :
    assemble? (a.header.members ++ a.kindMembers) bodies =
      ofFields? a.header a.place ⟨false, a.fields⟩ (innerOf bodies) := by
  obtain ⟨headerOnce, kindOnce, apart⟩ := List.nodup_append.1 (nodup_names a.place a.place_lt)
  obtain ⟨untagged, fieldsOnce⟩ := List.nodup_cons.1 kindOnce
  have ownHeader := a.header.listed_members
  have ownFields := a.listed_fields
  have header : Json.Record.of? headerNames (.object (a.header.members ++ a.kindMembers)) =
      some ⟨false, a.header.members⟩ := by
    refine Record.of?_between [] _ ownHeader headerOnce (List.forall_mem_nil _) ?_
    rw [kindMembers_eq]
    refine List.forall_mem_cons.2 ⟨fun known => apart _ known _ (.head _) rfl, ?_⟩
    exact fun m hm known => apart _ known _ (.tail _ (ownFields.mem_names hm)) rfl
  have kind : Json.tagged? true kinds (.object (a.header.members ++ a.kindMembers)) =
      some (a.place, .object (a.header.members ++ a.kindMembers)) := by
    have word : Json.tag? true kinds (.string (kinds.getD a.place "")) = some a.place :=
      place?_kinds a.place a.place_lt
    rw [kindMembers_eq, Json.tagged?_between, word, Option.map_some]
    · exact fun m hm tag => apart _ (ownHeader.mem_names hm) _ (.head _) tag
    · exact fun m hm tag => untagged (tag ▸ ownFields.mem_names hm)
  have fields : Json.Record.of? (fieldNames a.place)
      (.object (a.header.members ++ a.kindMembers)) = some ⟨false, a.fields⟩ := by
    have foreign : ∀ m ∈ a.header.members ++ [("type", .string (kinds.getD a.place ""))],
        m.1 ∉ fieldNames a.place := by
      refine List.forall_mem_append.2 ⟨?_, List.forall_mem_singleton.2 untagged⟩
      exact fun m hm known => apart _ (ownHeader.mem_names hm) _ (.tail _ known) rfl
    have own := Record.of?_between _ [] ownFields fieldsOnce foreign (List.forall_mem_nil _)
    rwa [List.append_nil, List.append_assoc, List.singleton_append, ← kindMembers_eq] at own
  simp only [assemble?, Json.Record.ofMembers?, header, kind, fields, Header.header?_members,
    Option.bind_eq_bind, Option.bind_some]

theorem lookup_bodiesOf (ms : List (String × Json)) (name : String) :
    (bodiesOf ms).lookup name = (ms.lookup name).map listOf? := by
  induction ms with
  | nil => rfl
  | cons m ms ih =>
    obtain ⟨key, v⟩ := m
    rw [bodiesOf, List.lookup_cons, List.lookup_cons, ih]
    cases name == key <;> rfl

/-- The steps inside a step are read out of the member of their name. -/
theorem innerOf_bodiesOf {h : Header} {ms : List (String × Json)} {name : String}
    {steps : List Action} (other : name ∉ headerNames)
    (found : (⟨false, ms⟩ : Record).get? name = some (.array (listJson steps)))
    (back : itemsOf? (listJson steps) = some steps) :
    innerOf (bodiesOf (h.members ++ ms)) name = some steps := by
  have here : (h.members ++ ms).lookup name = some (.array (listJson steps)) := by
    rw [List.lookup_append, h.listed_members.lookup_eq_none other, Option.none_or]
    exact found
  rw [innerOf, lookup_bodiesOf, here, Option.map_some, listOf?, back]

/-! ## 2. The confidences of a script -/

/-- The confidence that a step names itself, inner steps left aside. -/
def confidence? : Action → Option Float32
  | simple _ d => d.confidence?
  | condition .. | loop .. => none

/-- The confidences that a step and all steps inside it name. -/
def confidencesOf (a : Action) : List Float32 := a.walk.filterMap confidence?

/-- The confidences that a sequence of steps names, at any depth. -/
def confidences (as : List Action) : List Float32 := (walkAll as).filterMap confidence?

theorem mem_confidencesOf_simple {c : Float32} {h : Header} {d : Deed} :
    c ∈ confidencesOf (simple h d) ↔ c ∈ d.confidence? := by
  simp [confidencesOf, walk, confidence?]

theorem confidencesOf_condition {h : Header} {t : Test} {a b : List Action} :
    confidencesOf (condition h t a b) = confidences a ++ confidences b := by
  rw [confidencesOf, walk, List.filterMap_cons_none rfl, List.filterMap_append]
  rfl

theorem confidencesOf_loop {h : Header} {r : LoopRule} {b : List Action} :
    confidencesOf (loop h r b) = confidences b := by
  rw [confidencesOf, walk, List.filterMap_cons_none rfl]
  rfl

theorem confidences_cons {a : Action} {rest : List Action} :
    confidences (a :: rest) = confidencesOf a ++ confidences rest := by
  simp [confidencesOf, confidences, walkAll]

theorem confidencesOf_subset {a : Action} {as : List Action} (ha : a ∈ as) :
    ∀ c ∈ confidencesOf a, c ∈ confidences as := by
  induction as with
  | nil => cases ha
  | cons b rest ih =>
    intro c hc
    rw [confidences_cons, List.mem_append]
    obtain rfl | later := List.mem_cons.1 ha
    · exact .inl hc
    · exact .inr (ih later c hc)

/-! ## 3. Steps read back -/

/-- A step without inner steps comes back if its fields do. -/
theorem ofJson?_simple {h : Header} {d : Deed}
    (read : deed? d.place ⟨false, d.fields⟩ = some d) :
    ofJson? (simple h d).toJson = some (simple h d) := by
  have small := d.place_lt
  refine (assemble?_members (simple h d) _).trans ?_
  change ofFields? h d.place ⟨false, d.fields⟩ _ = _
  unfold ofFields?
  split
  · omega
  · omega
  · simp [read]

/-- A condition comes back if its branches do. -/
theorem ofJson?_condition {h : Header} {t : Test} {a b : List Action}
    (first : itemsOf? (listJson a) = some a) (second : itemsOf? (listJson b) = some b) :
    ofJson? (condition h t a b).toJson = some (condition h t a b) := by
  have test : test? ⟨false, (condition h t a b).fields⟩ = some t :=
    t.test?_members _ (.field (.field .nil))
  have thens : innerOf (bodiesOf (h.members ++ (condition h t a b).kindMembers)) "then_actions" =
      some a :=
    innerOf_bodiesOf (by decide) (by simp [kindMembers, Test.members]) first
  have elses : innerOf (bodiesOf (h.members ++ (condition h t a b).kindMembers)) "else_actions" =
      some b :=
    innerOf_bodiesOf (by decide) (by simp [kindMembers, Test.members]) second
  refine (assemble?_members (condition h t a b) _).trans ?_
  simp only [place, ofFields?, test, header, thens, elses, Option.bind_eq_bind, Option.bind_some,
    Option.pure_def]

/-- A loop comes back if its body does. -/
theorem ofJson?_loop {h : Header} {r : LoopRule} {b : List Action}
    (body : itemsOf? (listJson b) = some b) : ofJson? (loop h r b).toJson = some (loop h r b) := by
  have rule : rule? ⟨false, (loop h r b).fields⟩ = some r := r.rule?_members _ (.field .nil)
  have steps : innerOf (bodiesOf (h.members ++ (loop h r b).kindMembers)) "actions" = some b :=
    innerOf_bodiesOf (by decide) (by simp [kindMembers, LoopRule.members]) body
  refine (assemble?_members (loop h r b) _).trans ?_
  simp only [place, ofFields?, rule, header, steps, Option.bind_eq_bind, Option.bind_some,
    Option.pure_def]

mutual

/-- **A step is read back as it was written.** -/
theorem ofJson?_toJson : ∀ a : Action, (∀ c ∈ confidencesOf a, ExactSingle c) →
    ofJson? a.toJson = some a
  | simple h d, exact =>
      ofJson?_simple (Deed.deed?_fields fun c hc => exact c (mem_confidencesOf_simple.2 hc))
  | condition h t a b, exact => by
      rw [confidencesOf_condition, List.forall_mem_append] at exact
      exact ofJson?_condition (itemsOf?_listJson a exact.1) (itemsOf?_listJson b exact.2)
  | loop h r b, exact => by
      rw [confidencesOf_loop] at exact
      exact ofJson?_loop (itemsOf?_listJson b exact)

theorem itemsOf?_listJson : ∀ as : List Action, (∀ c ∈ confidences as, ExactSingle c) →
    itemsOf? (listJson as) = some as
  | [], _ => rfl
  | a :: rest, exact => by
      rw [confidences_cons, List.forall_mem_append] at exact
      have first := ofJson?_toJson a exact.1
      have later := itemsOf?_listJson rest exact.2
      rw [toJson] at first
      simp only [listJson, itemsOf?, first, later]

end

/-! ## 4. Scripts in a text -/

mutual

theorem legible_kindMembers : ∀ a : Action, (∀ c ∈ confidencesOf a, ExactSingle c) →
    ∀ m ∈ a.kindMembers, Json.Legible m.2
  | simple _ _, exact => Deed.legible fun c hc => exact c (mem_confidencesOf_simple.2 hc)
  | condition _ t a b, exact => by
      rw [confidencesOf_condition, List.forall_mem_append] at exact
      simp only [kindMembers, List.cons_append, List.forall_mem_cons, List.forall_mem_append]
      exact ⟨.string _, t.legible, .array (legible_listJson a exact.1),
        .array (legible_listJson b exact.2), List.forall_mem_nil _⟩
  | loop _ r b, exact => by
      rw [confidencesOf_loop] at exact
      simp only [kindMembers, List.cons_append, List.forall_mem_cons, List.forall_mem_append]
      exact ⟨.string _, r.legible, .array (legible_listJson b exact), List.forall_mem_nil _⟩

theorem legible_listJson : ∀ as : List Action, (∀ c ∈ confidences as, ExactSingle c) →
    ∀ v ∈ listJson as, Json.Legible v
  | [], _ => List.forall_mem_nil _
  | a :: rest, exact => by
      rw [confidences_cons, List.forall_mem_append] at exact
      refine List.forall_mem_cons.2 ⟨.object ?_, legible_listJson rest exact.2⟩
      exact List.forall_mem_append.2 ⟨a.header.legible, legible_kindMembers a exact.1⟩

end

theorem legible_toJson {a : Action} (exact : ∀ c ∈ confidencesOf a, ExactSingle c) :
    Json.Legible a.toJson :=
  .object (List.forall_mem_append.2 ⟨a.header.legible, legible_kindMembers a exact⟩)

/-- **Scripts are read back as they were written**, step by step and as a whole: as values at any
depth, and as texts that nest at most 127 arrays and objects. Printing and parsing a finite
confidence is taken to be without loss. -/
theorem script_reads_back (as : List Action) (finite : ∀ c ∈ confidences as, c.isFinite = true)
    (exact : ∀ c ∈ confidences as, c.isFinite = true → ExactSingle c) :
    (∀ a ∈ as, ofJson? a.toJson = some a ∧
      (Json.depth a.toJson ≤ 127 → Json.readAs? .whole ofJson? a.toJson.print = some a)) ∧
    listOf? (.array (listJson as)) = some as ∧
    (Json.depth (.array (listJson as)) ≤ 127 →
      Json.readAs? .whole listOf? (Json.array (listJson as)).print = some as) := by
  have lossless : ∀ c ∈ confidences as, ExactSingle c := fun c hc => exact c hc (finite c hc)
  have inside {a : Action} (ha : a ∈ as) : ∀ c ∈ confidencesOf a, ExactSingle c :=
    fun c hc => lossless c (confidencesOf_subset ha c hc)
  have list : listOf? (.array (listJson as)) = some as := itemsOf?_listJson as lossless
  refine ⟨fun a ha => ⟨ofJson?_toJson a (inside ha), fun shallow => ?_⟩, list, fun shallow => ?_⟩
  · rw [Json.readAs?_print (legible_toJson (inside ha)) shallow, ofJson?_toJson a (inside ha)]
  · rw [Json.readAs?_print (.array (legible_listJson as lossless)) shallow, list]

/-- A search with a confidence inside a branch, a wait without a length inside a loop beside it. -/
def nestedScript : List Action :=
  [condition (.named "outer") ⟨.imageVisible, some "button \"ok\"", none, none⟩
    [simple (.named "find") (.findImage "ok" (some 0.9) (some ⟨-5, 0, 10, 10⟩) none)]
    [loop (.named "again") ⟨.count, some 3, none, none⟩ [simple (.named "pause") (.wait none 7)]]]

/-- The script of this example comes back out of its text. -/
theorem script_reads_back_nested :
    confidences nestedScript = [0.9] ∧ (0.9 : Float32).isFinite = true ∧ ExactSingle 0.9 ∧
    Json.depth (.array (listJson nestedScript)) ≤ 127 ∧
    Json.readAs? .whole listOf? (Json.array (listJson nestedScript)).print =
      some nestedScript := by
  have named : confidences nestedScript = [0.9] := rfl
  have finite : (0.9 : Float32).isFinite = true := by decide +kernel
  have exact : ExactSingle 0.9 := by
    unfold ExactSingle
    decide +kernel
  have shallow : Json.depth (.array (listJson nestedScript)) ≤ 127 := by decide
  have back := script_reads_back nestedScript
    (named ▸ List.forall_mem_singleton.2 finite)
    (named ▸ List.forall_mem_singleton.2 fun _ => exact)
  exact ⟨named, finite, exact, shallow, back.2.2 shallow⟩

end Action
end TaskReplay
