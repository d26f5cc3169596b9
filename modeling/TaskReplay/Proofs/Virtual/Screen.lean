import TaskReplay.Proofs.Run.Clicking
import TaskReplay.Virtual.Screen

/-!
# What a simulated screen answers

The screen keeps three maps for all its templates, and still each template is served as if it were alone:

* `Region.Covers` -- the points of a region, in unbounded whole numbers; `covers_center` -- the middle of
  a region is one of them, also where the region reaches past the range of coordinates;
* `Slot` -- what one template is to a screen, and what a call that names it makes of that;
  `Slot.Answers` -- the answers that a search may get from it;
* `Reads` -- a screen reads as a slot, which every call keeps (`Reads.serve_named`,
  `Reads.serve_other`, `Reads.play`);
* `serves_per_template` -- **a search is answered by the slot of its template**, and answers queued for it
  are used up first in, first out;
* `region_edges` -- **a template over a region is found where it is**, and nowhere else.
-/

namespace TaskReplay

/-! ## 1. Points of a region -/

namespace Region

/-- **The points of a region**: a half-open box of whole numbers, wherever it ends. -/
structure Covers (r : Region) (p : Point) : Prop where
  left : r.x.toInt ≤ p.x.toInt
  right : p.x.toInt < r.x.toInt + r.width.toNat
  top : r.y.toInt ≤ p.y.toInt
  bottom : p.y.toInt < r.y.toInt + r.height.toNat

variable {r : Region} {p : Point}

theorem contains_iff : r.contains p = true ↔ r.Covers p := by
  simp only [contains, Bool.and_eq_true, decide_eq_true_eq]
  exact ⟨fun ⟨⟨⟨left, top⟩, right⟩, bottom⟩ => ⟨left, right, top, bottom⟩,
    fun ⟨left, right, top, bottom⟩ => ⟨⟨⟨left, top⟩, right⟩, bottom⟩⟩

/-- The middle of a region is half its size away from its corner, or at the end of the range. -/
theorem toInt_center (r : Region) :
    r.center.x.toInt = min Width.maxInt32 (r.x.toInt + r.width.toNat / 2) ∧
      r.center.y.toInt = min Width.maxInt32 (r.y.toInt + r.height.toNat / 2) := by
  obtain ⟨x, y⟩ := toInt_offset ⟨r.x, r.y⟩ (r.width.toNat / 2 : Nat) (r.height.toNat / 2 : Nat)
  have left := (toInt_bounds r.x).1
  have top := (toInt_bounds r.y).1
  rw [center, x, y]
  simp only [Width.clampInt32, Width.minInt32, Width.maxInt32] at left top ⊢
  omega

/-- **The middle of a region is in it.** -/
theorem covers_center (wide : 0 < r.width) (high : 0 < r.height) : r.Covers r.center := by
  obtain ⟨x, y⟩ := r.toInt_center
  have left := (toInt_bounds r.x).2
  have top := (toInt_bounds r.y).2
  have wide : 0 < r.width.toNat := wide
  have high : 0 < r.height.toNat := high
  simp only [Width.maxInt32] at left top x y
  constructor <;> omega

end Region

namespace Screen

/-! ## 2. Calls, and what they are to one template -/

/-- A call on a screen. -/
inductive Call where
  | command (c : Command)
  | find (template : String) (confidence : Option Float32) (area : Option Region)

/-- The template that a command names. -/
def Command.template : Command → String
  | .show template _ | .showAt template _ | .hide template | .script template _ => template

/-- The template that a call names. -/
def Call.template : Call → String
  | .command c => c.template
  | .find template _ _ => template

/-- Whether a call is a search for a template. -/
def Call.searches (template : String) : Call → Bool
  | .command _ => false
  | .find sought _ _ => sought == template

/-- The answers that a call queues for a template. -/
def Call.scripts (template : String) : Call → List Bool
  | .command (.script named answers) => if named = template then answers else []
  | _ => []

/-- Whether a call leaves what is shown of a template as it is. -/
def Call.spares (template : String) : Call → Bool
  | .command (.show named _) | .command (.showAt named _) | .command (.hide named) => named != template
  | .command (.script _ _) | .find _ _ _ => true

/-- The screen after a call. -/
def serve (s : Screen) : Call → Screen
  | .command c => s.apply c
  | .find template confidence area => (s.find template confidence area).2

/-- The screen after calls. -/
def play (s : Screen) (calls : List Call) : Screen := calls.foldl serve s

/-- **What one template is to a screen**: what is shown of it, the answers that are queued, and those that
were used. -/
structure Slot where
  shown : Option Match
  queued : List Bool
  used : List Bool

/-- A template that nothing was said about. -/
def Slot.blank : Slot := ⟨none, [], []⟩

/-- **What a call that names a template makes of it.** -/
def Slot.after (k : Slot) : Call → Slot
  | .command (.show _ area) => { k with shown := some (.foundIn area none) }
  | .command (.showAt _ point) => { k with shown := some (.foundAt point) }
  | .command (.hide _) => { k with shown := none }
  | .command (.script _ answers) => { k with queued := k.queued ++ answers }
  | .find _ _ _ => { k with queued := k.queued.tail, used := k.used ++ k.queued.head?.toList }

/-- What a template is after calls: only those that name it count. -/
def Slot.of (template : String) (calls : List Call) : Slot :=
  (calls.filter (·.template == template)).foldl Slot.after .blank

/-- **The match that a search comes upon**: what is shown, unless the answer that is due says no; the upper
left corner if that says yes and nothing is shown. -/
inductive Slot.Offers (k : Slot) : Match → Prop where
  | shown {m : Match} (shown : k.shown = some m) (due : k.queued.head? ≠ some false) : Offers k m
  | corner (shown : k.shown = none) (due : k.queued.head? = some true) : Offers k (.foundAt .origin)

/-- **The answers that a search may get.** -/
inductive Slot.Answers (k : Slot) (confidence : Option Float32) (area : Option Region) :
    Match → Prop where
  /-- The answer that is due says no. -/
  | refused (due : k.queued.head? = some false) : Answers k confidence area .notFound
  /-- No answer is due, and nothing is shown. -/
  | absent (none_due : k.queued = []) (shown : k.shown = none) : Answers k confidence area .notFound
  /-- The match is outside the region asked for. -/
  | outside {m : Match} {p : Point} {r : Region} (offered : k.Offers m) (point : m.point = some p)
      (asked : area = some r) (beyond : ¬ r.Covers p) : Answers k confidence area .notFound
  /-- The match is inside, and carries the confidence asked for. -/
  | found {m : Match} {p : Point} (offered : k.Offers m) (point : m.point = some p)
      (inside : ∀ r, area = some r → r.Covers p) : Answers k confidence area { m with confidence }

/-! ## 3. A screen reads as slots -/

/-- A match that was found somewhere. -/
structure Placed (m : Match) : Prop where
  found : m.found = true
  point : ∃ p, m.point = some p

/-- **A screen reads as a slot** where it keeps a template. -/
structure Reads (s : Screen) (template : String) (k : Slot) : Prop where
  shown : s.shown.get? template = k.shown
  queued : s.queue template = k.queued
  placed : ∀ m, k.shown = some m → Placed m

section Slots

variable {s : Screen} {t : String} {k : Slot} {confidence : Option Float32} {area : Option Region}
  {m m' : Match} {calls : List Call}

theorem placed_foundIn (area : Region) : Placed (.foundIn area none) := ⟨rfl, area.center, rfl⟩

theorem placed_foundAt (p : Point) : Placed (.foundAt p) := ⟨rfl, p, rfl⟩

theorem reads_blank (t : String) : blank.Reads t .blank := ⟨rfl, rfl, nofun⟩

theorem get?_set_self (shown : Assoc String Match) (t : String) (m : Match) :
    (shown.set t m).get? t = some m := (Assoc.get?_set ..).trans (if_pos (beq_self_eq_true t))

theorem apart_of_ne {named : String} (other : named ≠ t) : ¬ (t == named) = true :=
  fun same => other (eq_of_beq same).symm

theorem queue_set (s : Screen) (named t : String) (answers : List Bool) :
    queue { s with queued := s.queued.set named answers } t =
      if t == named then answers else s.queue t := by
  simp only [queue, Assoc.get?_set]
  split <;> rfl

theorem queue_searched (s : Screen) (named t : String) :
    (s.searched named).queue t = if t == named then (s.queue named).tail else s.queue t :=
  queue_set _ named t _

/-- **A call changes the template that it names**, as its slot says. -/
theorem Reads.serve_named (h : s.Reads t k) {c : Call} (named : c.template = t) :
    (s.serve c).Reads t (k.after c) := by
  subst named
  obtain ⟨shown, queued, placed⟩ := h
  cases c with
  | find template confidence area =>
      refine ⟨shown, ?_, placed⟩
      exact (queue_searched s template template).trans ((if_pos (beq_self_eq_true _)).trans
        (congrArg List.tail queued))
  | command c =>
      cases c with
      | «show» template area =>
          refine ⟨get?_set_self .., queued, ?_⟩
          rintro _ ⟨⟩
          exact placed_foundIn area
      | showAt template p =>
          refine ⟨get?_set_self .., queued, ?_⟩
          rintro _ ⟨⟩
          exact placed_foundAt p
      | hide template =>
          exact ⟨(Assoc.get?_erase ..).trans (if_pos (beq_self_eq_true _)), queued, nofun⟩
      | script template answers =>
          refine ⟨shown, ?_, placed⟩
          exact (queue_set s template template _).trans ((if_pos (beq_self_eq_true _)).trans
            (congrArg (· ++ answers) queued))

theorem Call.spares_of_ne {c : Call} (other : c.template ≠ t) : c.spares t = true := by
  cases c with
  | find template confidence area => rfl
  | command c =>
      cases c with
      | script template answers => rfl
      | «show» template area | showAt template p | hide template => exact bne_iff_ne.mpr other

theorem shown_serve (s : Screen) {c : Call} (spares : c.spares t = true) :
    (s.serve c).shown.get? t = s.shown.get? t := by
  cases c with
  | find template confidence area => rfl
  | command c =>
      cases c with
      | script template answers => rfl
      | «show» template area | showAt template p =>
          exact (Assoc.get?_set ..).trans (if_neg (apart_of_ne (bne_iff_ne.mp spares)))
      | hide template =>
          exact (Assoc.get?_erase ..).trans (if_neg (apart_of_ne (bne_iff_ne.mp spares)))

theorem queue_serve (s : Screen) {c : Call} (other : c.template ≠ t) :
    (s.serve c).queue t = s.queue t := by
  cases c with
  | find template confidence area =>
      exact (queue_searched s template t).trans (if_neg (apart_of_ne other))
  | command c =>
      cases c with
      | script template answers => exact (queue_set s template t _).trans (if_neg (apart_of_ne other))
      | _ => rfl

/-- **A call leaves the other templates alone.** -/
theorem Reads.serve_other (h : s.Reads t k) {c : Call} (other : c.template ≠ t) :
    (s.serve c).Reads t k where
  shown := (shown_serve s (Call.spares_of_ne other)).trans h.shown
  queued := (queue_serve s other).trans h.queued
  placed := h.placed

/-- **After calls the screen reads as the slot** that those of them make which name the template. -/
theorem Reads.play (h : s.Reads t k) (calls : List Call) :
    (s.play calls).Reads t ((calls.filter (·.template == t)).foldl Slot.after k) := by
  induction calls generalizing s k with
  | nil => exact h
  | cons c calls ih =>
      by_cases named : c.template = t
      · rw [List.filter_cons_of_pos (by simpa using named)]
        exact ih (h.serve_named named)
      · rw [List.filter_cons_of_neg (by simpa using named)]
        exact ih (h.serve_other named)

theorem reads_of (t : String) (calls : List Call) : (blank.play calls).Reads t (.of t calls) :=
  (reads_blank t).play calls

/-- What a call queues for its template comes behind what is left there. -/
theorem Slot.account_after (k : Slot) {c : Call} (named : c.template = t) :
    (k.after c).used ++ (k.after c).queued = k.used ++ k.queued ++ c.scripts t := by
  subst named
  obtain ⟨shown, queued, used⟩ := k
  cases c with
  | find template confidence area => cases queued <;> simp [after, Call.scripts]
  | command c => cases c <;> simp [after, Call.scripts, Call.template, Command.template]

theorem Call.scripts_other {c : Call} (other : c.template ≠ t) : c.scripts t = [] := by
  cases c with
  | find template confidence area => rfl
  | command c =>
      cases c with
      | script template answers => exact if_neg other
      | _ => rfl

/-- **First in, first out**: all answers that were queued are used or left, in their order. -/
theorem Slot.account (calls : List Call) (k : Slot) :
    let last := (calls.filter (·.template == t)).foldl Slot.after k
    last.used ++ last.queued = k.used ++ k.queued ++ calls.flatMap (Call.scripts t) := by
  induction calls generalizing k with
  | nil => exact (List.append_nil _).symm
  | cons c calls ih =>
      by_cases named : c.template = t
      · rw [List.filter_cons_of_pos (by simpa using named)]
        refine (ih (k.after c)).trans ?_
        rw [k.account_after named, List.append_assoc, List.flatMap_cons]
      · rw [List.filter_cons_of_neg (by simpa using named), List.flatMap_cons,
          Call.scripts_other named]
        exact ih k

theorem findCount_serve (s : Screen) (c : Call) (t : String) :
    (s.serve c).findCount t = s.findCount t + if c.searches t then 1 else 0 := by
  cases c with
  | find template confidence area =>
      simp only [serve, find, searched, findCount, Assoc.get?_set, Call.searches]
      by_cases same : t = template
      · subst same
        simp
      · have apart : ¬ template = t := fun h => same h.symm
        simp [same, apart]
  | command c => cases c <;> rfl

/-- Searches are counted, each for its template. -/
theorem findCount_play (s : Screen) (calls : List Call) (t : String) :
    (s.play calls).findCount t = s.findCount t + calls.countP (Call.searches t) := by
  induction calls generalizing s with
  | nil => rfl
  | cons c calls ih =>
      rw [List.countP_cons, Nat.add_comm (calls.countP _), ← Nat.add_assoc, ← findCount_serve]
      exact ih (s.serve c)

/-! ## 4. Searches -/

/-- What a search is offered is placed. -/
theorem Reads.placed_offered (h : s.Reads t k) (offered : k.Offers m) : Placed m := by
  cases offered with
  | shown shown due => exact h.placed m shown
  | corner shown due => exact placed_foundAt .origin

theorem Reads.answers_report (h : s.Reads t k) (offered : k.Offers m) :
    k.Answers confidence area (report confidence area m) := by
  obtain ⟨-, p, point⟩ := h.placed_offered offered
  obtain ⟨found, _, region, old⟩ := m
  obtain rfl : _ = some p := point
  cases area with
  | none => exact .found offered rfl nofun
  | some r =>
      show k.Answers confidence (some r) (if r.contains p then _ else _)
      by_cases inside : r.contains p = true
      · rw [if_pos inside]
        refine .found offered rfl ?_
        rintro _ ⟨⟩
        exact Region.contains_iff.mp inside
      · rw [if_neg inside]
        exact .outside offered rfl rfl fun covers => inside (Region.contains_iff.mpr covers)

/-- **The answer of a screen** is one that the slot has. -/
theorem Reads.answers_look (h : s.Reads t k) (confidence : Option Float32) (area : Option Region) :
    k.Answers confidence area (s.look t confidence area) := by
  rw [look, h.queued, h.shown]
  cases due : k.queued.head? with
  | none =>
      cases shown : k.shown with
      | none => exact .absent (List.head?_eq_none_iff.mp due) shown
      | some m => exact h.answers_report (.shown shown (by rw [due]; nofun))
  | some answer =>
      cases answer with
      | false => exact .refused due
      | true =>
          cases shown : k.shown with
          | none => exact h.answers_report (.corner shown due)
          | some m => exact h.answers_report (.shown shown (by rw [due]; nofun))

theorem Slot.Offers.unique (h : k.Offers m) (h' : k.Offers m') : m = m' := by
  cases h with
  | shown shown due =>
      cases h' with
      | shown shown' due' => exact Option.some.inj (shown.symm.trans shown')
      | corner shown' due' => cases shown.symm.trans shown'
  | corner shown due =>
      cases h' with
      | shown shown' due' => cases shown.symm.trans shown'
      | corner shown' due' => rfl

/-- A search finds nothing exactly if it is offered nothing inside the region asked for. -/
theorem Slot.Answers.cases (h : k.Answers confidence area m) :
    (m = .notFound ∧ ∀ o p, k.Offers o → o.point = some p → ∃ r, area = some r ∧ ¬ r.Covers p) ∨
      ∃ o p, k.Offers o ∧ o.point = some p ∧ (∀ r, area = some r → r.Covers p) ∧
        m = { o with confidence } := by
  cases h with
  | refused due =>
      refine .inl ⟨rfl, fun o p offered point => ?_⟩
      cases offered with
      | shown shown due' => exact absurd due due'
      | corner shown due' => cases due.symm.trans due'
  | absent none_due shown =>
      refine .inl ⟨rfl, fun o p offered point => ?_⟩
      cases offered with
      | shown shown' due => cases shown.symm.trans shown'
      | corner shown' due =>
          rw [none_due] at due
          cases due
  | outside offered point asked beyond =>
      refine .inl ⟨rfl, fun o p offered' point' => ?_⟩
      cases offered.unique offered'
      cases point.symm.trans point'
      exact ⟨_, asked, beyond⟩
  | found offered point inside => exact .inr ⟨_, _, offered, point, inside, rfl⟩

/-- **A slot has one answer** to a search. -/
theorem Slot.Answers.unique (h : k.Answers confidence area m) (h' : k.Answers confidence area m') :
    m = m' := by
  obtain ⟨rfl, lost⟩ | ⟨o, p, offered, point, inside, rfl⟩ := h.cases
  · obtain ⟨rfl, -⟩ | ⟨o, p, offered, point, inside, -⟩ := h'.cases
    · rfl
    · obtain ⟨r, asked, beyond⟩ := lost o p offered point
      exact absurd (inside r asked) beyond
  · obtain ⟨-, lost⟩ | ⟨o', p', offered', -, -, rfl⟩ := h'.cases
    · obtain ⟨r, asked, beyond⟩ := lost o p offered point
      exact absurd (inside r asked) beyond
    · rw [offered.unique offered']

/-- What is found is inside the region asked for and carries the confidence asked for. -/
theorem Slot.Answers.of_found (h : k.Answers confidence area m) (found : m.found = true) :
    m.confidence = confidence ∧ ∃ p, m.point = some p ∧ ∀ r, area = some r → r.Covers p := by
  obtain ⟨rfl, -⟩ | ⟨o, p, -, point, inside, rfl⟩ := h.cases
  · cases found
  · exact ⟨rfl, p, point, inside⟩

/-! ## 5. One template among many -/

/-- **A template is served as if it were alone.** Whatever calls went before, a search for it gets the one
answer that its slot has, which is made by the calls alone that name it; it uses up one queued answer, if
one is left, and those queued by all calls come in their order; what is found is inside the region asked
for and carries the confidence asked for; and searches are counted. -/
theorem serves_per_template (calls : List Call) (t : String) (confidence : Option Float32)
    (area : Option Region) :
    let s := blank.play calls
    let k := Slot.of t calls
    let answer := (s.find t confidence area).1
    (∀ m, k.Answers confidence area m ↔ m = answer) ∧
      answer = ((blank.play (calls.filter (·.template == t))).find t confidence area).1 ∧
      (s.queue t = k.queued ∧ k.used ++ k.queued = calls.flatMap (Call.scripts t) ∧
        (s.find t confidence area).2.queue t = (s.queue t).tail) ∧
      (answer.found = true →
        answer.confidence = confidence ∧ ∃ p, answer.point = some p ∧ ∀ r, area = some r → r.Covers p) ∧
      s.findCount t = calls.countP (Call.searches t) := by
  intro s k answer
  have reads : s.Reads t k := reads_of t calls
  have answered : k.Answers confidence area answer := reads.answers_look confidence area
  refine ⟨fun m => ⟨fun h => h.unique answered, fun h => h ▸ answered⟩, ?_, ⟨reads.queued, ?_, ?_⟩,
    answered.of_found, ?_⟩
  · have alone := reads_of t (calls.filter (·.template == t))
    have same : Slot.of t (calls.filter (·.template == t)) = k := by
      rw [Slot.of, List.filter_filter]
      simp only [Bool.and_self]
      rfl
    rw [same] at alone
    exact answered.unique (alone.answers_look confidence area)
  · exact Slot.account calls .blank
  · exact (queue_searched s t t).trans (if_pos (beq_self_eq_true t))
  · exact (findCount_play blank calls t).trans (Nat.zero_add _)

/-! ## 6. A template over a region -/

theorem shown_play (s : Screen) (spared : ∀ c ∈ calls, c.spares t = true) :
    (s.play calls).shown.get? t = s.shown.get? t := by
  induction calls generalizing s with
  | nil => rfl
  | cons c calls ih =>
      obtain ⟨first, later⟩ := List.forall_mem_cons.mp spared
      exact (ih (s.serve c) later).trans (shown_serve s first)

/-- A search without a queued answer, inside a region. -/
theorem look_unscripted {r : Region} (unscripted : s.queue t = [])
    (shown : s.shown.get? t = some (.foundIn r none)) (confidence : Option Float32) (area : Region) :
    s.look t confidence (some area) =
      if area.contains r.center then .foundIn r confidence else .notFound := by
  rw [look, unscripted, shown]
  rfl

/-- **Regions at their edges.** A region contains the points of a box of unbounded whole numbers, and its
middle is one of them if it is not empty, wherever it lies. So a template that is shown over it, by
whatever screen, and that nothing is queued for, is found at its middle by every search in a region that
has all its points, and by none in a region that does not have its middle. -/
theorem region_edges (s : Screen) (r : Region) {t : String} {later : List Call}
    (spared : ∀ c ∈ later, c.spares t = true)
    (unscripted : ((s.apply (.show t r)).play later).queue t = []) (confidence : Option Float32) :
    (∀ p, r.contains p = true ↔ r.Covers p) ∧
      (0 < r.width → 0 < r.height → r.Covers r.center ∧
        ∀ area : Region, (∀ p, r.Covers p → area.Covers p) →
          (((s.apply (.show t r)).play later).find t confidence (some area)).1.location =
            some r.center) ∧
      ∀ area : Region, ¬ area.Covers r.center →
        (((s.apply (.show t r)).play later).find t confidence (some area)).1 = .notFound := by
  have shown : ((s.apply (.show t r)).play later).shown.get? t = some (.foundIn r none) :=
    (shown_play _ spared).trans (get?_set_self ..)
  refine ⟨fun p => Region.contains_iff, fun wide high => ?_, fun area beyond => ?_⟩
  · have middle := Region.covers_center wide high
    refine ⟨middle, fun area within => ?_⟩
    have found := (look_unscripted unscripted shown confidence area).trans
      (if_pos (Region.contains_iff.mpr (within _ middle)))
    exact congrArg Match.location found
  · exact (look_unscripted unscripted shown confidence area).trans
      (if_neg fun inside => beyond (Region.contains_iff.mp inside))

/-- A region that begins where the coordinates end. -/
def farRegion : Region := ⟨2147483647, -2147483648, 4294967295, 1⟩

/-- A screen that will once say no. -/
def reluctant : Screen := blank.apply (.script "x" [false])

/-- It is asked once, and shows something else. -/
def askedOnce : List Call := [.find "x" none none, .command (.showAt "y" .origin)]

/-- Its template is found at the end of the range and not in the corner. -/
theorem region_edges_far :
    ((reluctant.apply (.show "x" farRegion)).play askedOnce).queue "x" = [] ∧
      (((reluctant.apply (.show "x" farRegion)).play askedOnce).find "x" none (some farRegion)).1.location =
        some ⟨2147483647, -2147483648⟩ ∧
      (((reluctant.apply (.show "x" farRegion)).play askedOnce).find "x" none (some ⟨0, 0, 9, 9⟩)).1 =
        .notFound := by
  have unscripted : ((reluctant.apply (.show "x" farRegion)).play askedOnce).queue "x" = [] := by decide
  have spared : ∀ c ∈ askedOnce, c.spares "x" = true := by decide
  obtain ⟨contains, found, lost⟩ := region_edges reluctant farRegion spared unscripted none
  refine ⟨unscripted, (found (by decide) (by decide)).2 farRegion fun p => id, lost _ fun covers => ?_⟩
  exact absurd (Region.contains_iff.mpr covers) (by decide)

end Slots
end Screen
end TaskReplay
