import TaskReplay.Proofs.Run.Takes

/-!
# Where a click lands

A click asks where its target is, moves that point by a fixed and a random offset and makes one call. On film:

* `toInt_coordinate`, `toInt_offset` -- moved coordinates stop at the ends of their range and never wrap;
  `clampInt32_near` -- so they come no further than they were to be moved;
* `ClickTarget.At`, `ClickTarget.Misses` -- the point that a target stands for, or why there is none;
  `play_resolve` -- a target is looked up with one search, one look at a variable, or nothing;
* `play_scatter` -- the random offset: two lots, unless there is none;
* `click_law` -- **a click makes one call exactly if its target stands for a point**, as near to that as
  its offsets say.
-/

namespace TaskReplay

open Script

/-! ## 1. Coordinates -/

namespace Width

theorem clampInt32_bounds (n : Int) : minInt32 ≤ clampInt32 n ∧ clampInt32 n ≤ maxInt32 := by
  simp only [clampInt32, minInt32, maxInt32]
  omega

/-- A coordinate comes no further than it is to be moved. -/
theorem clampInt32_near {a d : Int} (h : minInt32 ≤ a ∧ a ≤ maxInt32) :
    (clampInt32 (a + d) - a).natAbs ≤ d.natAbs := by
  unfold clampInt32
  omega

end Width

/-- The coordinate nearest to a number is that number, but for the ends of the range. -/
theorem toInt_coordinate (n : Int) : (coordinate n).toInt = Width.clampInt32 n := by
  obtain ⟨low, high⟩ := Width.clampInt32_bounds n
  exact Int32.toInt_ofInt_of_le low (Int.lt_add_one_of_le high)

theorem toInt_bounds (n : Int32) : Width.minInt32 ≤ n.toInt ∧ n.toInt ≤ Width.maxInt32 :=
  ⟨n.le_toInt, Int.le_of_lt_add_one n.toInt_lt⟩

/-- A point that is moved stops at the ends of the range. -/
theorem toInt_offset (p : Point) (dx dy : Int) :
    (p.offset dx dy).x.toInt = Width.clampInt32 (p.x.toInt + dx) ∧
      (p.offset dx dy).y.toInt = Width.clampInt32 (p.y.toInt + dy) :=
  ⟨toInt_coordinate _, toInt_coordinate _⟩

example : (Point.mk 2147483647 (-2147483648)).offset 1 (-1) = ⟨2147483647, -2147483648⟩ := by decide

/-- A random offset in pixels is in the range of coordinates and no larger than what was drawn. -/
theorem pixels_bounds (n : Int) :
    Width.minInt32 ≤ pixels n ∧ pixels n ≤ Width.maxInt32 ∧ (pixels n).natAbs ≤ n.natAbs := by
  simp only [pixels, Width.minInt32, Width.maxInt32]
  split <;> omega

/-- A draw for an offset of 32 bits has the whole of that range. -/
theorem drawRange_toUInt64 (n : UInt32) : Delay.drawRange n.toUInt64 = n.toNat := by
  have narrow : n.toNat < 2 ^ 32 := n.toNat_lt
  exact Nat.min_eq_left (Nat.le_of_lt (Nat.lt_trans narrow (by decide)))

/-! ## 2. Targets -/

/-- What is asked to find a target. -/
def ClickTarget.asks (s : Settings) : ClickTarget → List Request
  | .coordinates _ _ => []
  | .image template => [.search template s.confidence s.captureRegion]
  | .stored name => [.read name]

/-- **The point that a target stands for**, out of what a search for its template shows and what the
variables hold. -/
def ClickTarget.At (shows : Except Failure Match) (scope : Scope) (p : Point) : ClickTarget → Prop
  | .coordinates x y => p = ⟨x, y⟩
  | .image _ => ∃ m, shows = .ok m ∧ m.found = true ∧ m.point = some p
  | .stored name => scope.get? name = some (.point p)

/-- **Why a target stands for no point.** -/
def ClickTarget.Misses (shows : Except Failure Match) (scope : Scope) (e : StepError) :
    ClickTarget → Prop
  | .coordinates _ _ => False
  | .image template => (∃ f, shows = .error f ∧ e = .dispatch f) ∨
      ∃ m, shows = .ok m ∧ (m.found = false ∨ m.point = none) ∧ e = .targetNotFound template
  | .stored name => (∀ p, scope.get? name ≠ some (.point p)) ∧ e = .invalidVariable name

/-- What a search for the template of a target shows, if one is made now. -/
def ClickTarget.shows (w : Surroundings) (f : Film) (s : Settings) : ClickTarget → Except Failure Match
  | .image template => f.glance w (.search template s.confidence s.captureRegion) 0
  | _ => .ok .notFound

/-- What becomes of a target. -/
def ClickTarget.Resolved (shows : Except Failure Match) (scope : Scope) (target : ClickTarget) :
    Except StepError Point → Prop
  | .ok p => target.At shows scope p
  | .error e => target.Misses shows scope e

/-- A match is somewhere exactly if it was found with a point. -/
theorem location_eq_some {m : Match} {p : Point} :
    m.location = some p ↔ m.found = true ∧ m.point = some p := by
  simp [Match.location]

theorem location_eq_none {m : Match} : m.location = none ↔ m.found = false ∨ m.point = none := by
  cases found : m.found <;> simp [Match.location, found]

/-- A target stands for one point at most. -/
theorem ClickTarget.At.unique {shows : Except Failure Match} {scope : Scope} {target : ClickTarget}
    {p q : Point} (hp : target.At shows scope p) (hq : target.At shows scope q) : p = q := by
  cases target with
  | coordinates x y => exact Eq.trans hp (Eq.symm hq)
  | image template =>
      obtain ⟨m, rfl, -, point⟩ := hp
      obtain ⟨m', same, -, point'⟩ := hq
      cases same
      exact Option.some.inj (point.symm.trans point')
  | stored name =>
      have same : some (Value.point p) = some (.point q) := Eq.trans (Eq.symm hp) hq
      cases same
      rfl

/-- A target that misses stands for no point. -/
theorem ClickTarget.Misses.not_at {shows : Except Failure Match} {scope : Scope} {target : ClickTarget}
    {e : StepError} {p : Point} (h : target.Misses shows scope e) : ¬ target.At shows scope p := by
  cases target with
  | coordinates x y => exact fun _ => h
  | image template =>
      rintro ⟨m, rfl, found, point⟩
      obtain ⟨f, same, -⟩ | ⟨m', same, lost, -⟩ := h
      · cases same
      · cases same
        rcases lost with lost | lost
        · rw [lost] at found
          cases found
        · rw [lost] at point
          cases point
  | stored name => exact h.1 p

section Film

variable (w : Surroundings) (plan : Plan) (f : Film) (s : Settings)

/-- **A target is looked up.** -/
theorem play_resolve (target : ClickTarget) :
    ∃ r, f.play w plan (target.resolve s).quiet.run = (some r, f.takes w plan (target.asks s)) ∧
      target.Resolved (target.shows w f s) f.scene.context.scope r := by
  cases target with
  | coordinates x y => exact ⟨.ok ⟨x, y⟩, rfl, rfl⟩
  | image template =>
      let search : Request := .search template s.confidence s.captureRegion
      have searched := play_searchFor w plan f s template none none
      cases shows : f.glance w search 0 with
      | error e =>
          refine ⟨.error (.dispatch e), ?_, .inl ⟨e, shows, rfl⟩⟩
          refine play_orElse (g := f.take w plan search) (searched.trans ?_)
          exact congrArg (fun x => (some (x.mapError StepError.dispatch), _)) shows
      | ok m =>
          have searched' : f.play w plan (searchFor s template none none).quiet.run =
              (some (.ok m), f.take w plan search) :=
            searched.trans (congrArg (fun x => (some (x.mapError StepError.dispatch), _)) shows)
          rw [ClickTarget.resolve, play_andThen searched']
          cases place : m.location with
          | some p => exact ⟨.ok p, rfl, m, shows, location_eq_some.mp place⟩
          | none =>
              exact ⟨.error (.targetNotFound template), rfl, .inr ⟨m, shows, location_eq_none.mp place, rfl⟩⟩
  | stored name =>
      have looked : f.play w plan (Script.ask (.read name)).quiet.run =
          (some (.ok ((f.take w plan (.read name)).scene.context.scope.get? name)),
            f.take w plan (.read name)) := play_ask rfl
      have same : (f.take w plan (.read name)).scene.context.scope.get? name =
          f.scene.context.scope.get? name := rfl
      rw [ClickTarget.resolve, play_andThen looked, same]
      cases held : f.scene.context.scope.get? name with
      | none =>
          refine ⟨.error (.invalidVariable name), rfl, fun p => ?_, rfl⟩
          rw [held]
          nofun
      | some v =>
          cases v with
          | point p => exact ⟨.ok p, rfl, held⟩
          | _ =>
              refine ⟨.error (.invalidVariable name), rfl, fun p => ?_, rfl⟩
              rw [held]
              nofun

/-! ## 3. Clicks -/

/-- **A coordinate of a click**: in its range, and no further from the target's coordinate, moved by the fixed
offset and stopped at the ends of that range, than the random offset. -/
structure Near (target fixed : Int32) (random : UInt32) (n : Int32) : Prop where
  inRange : Width.minInt32 ≤ n.toInt ∧ n.toInt ≤ Width.maxInt32
  near : (n.toInt - Width.clampInt32 (target.toInt + fixed.toInt)).natAbs ≤ random.toNat
  still : random = 0 → n.toInt = Width.clampInt32 (target.toInt + fixed.toInt)

/-- A point where a click on a point may land. -/
structure Click.Lands (c : Click) (p q : Point) : Prop where
  x : Near p.x c.offsetX c.randomOffset q.x
  y : Near p.y c.offsetY c.randomOffset q.y

/-- **No number of a click wraps**: the lots have their whole range, which fits 64 bits on both sides; their
pixels fit 32 bits; and a point that is moved is nearest to where it was to be moved. -/
structure Click.Exact (c : Click) : Prop where
  range : Delay.drawRange c.randomOffset.toUInt64 = c.randomOffset.toNat
  wide : Width.minInt64 ≤ -(c.randomOffset.toNat : Int) ∧ c.randomOffset.toNat ≤ Width.maxInt64
  narrow (n : Delay.Draw (Delay.drawRange c.randomOffset.toUInt64)) :
    Width.minInt32 ≤ pixels n ∧ pixels n ≤ Width.maxInt32
  moved (p : Point) (dx dy : Int) : (p.offset dx dy).x.toInt = Width.clampInt32 (p.x.toInt + dx) ∧
    (p.offset dx dy).y.toInt = Width.clampInt32 (p.y.toInt + dy)

theorem Click.exact (c : Click) : c.Exact := by
  have narrow : c.randomOffset.toNat < 2 ^ 32 := c.randomOffset.toNat_lt
  refine ⟨drawRange_toUInt64 _, ?_, fun n => ?_, toInt_offset⟩
  · simp only [Width.minInt64, Width.maxInt64]
    omega
  · obtain ⟨low, high, -⟩ := pixels_bounds n
    exact ⟨low, high⟩

/-- A coordinate that is moved by a lot comes no further than the lot's range. -/
theorem scatter_near (n : Int32) {range : UInt32} (lot : Delay.Draw (Delay.drawRange range.toUInt64)) :
    ((coordinate (n.toInt + pixels lot)).toInt - n.toInt).natAbs ≤ range.toNat := by
  have moved : (Width.clampInt32 (n.toInt + pixels lot) - n.toInt).natAbs ≤ (pixels lot).natAbs :=
    Width.clampInt32_near (toInt_bounds n)
  obtain ⟨-, -, small⟩ := pixels_bounds lot
  obtain ⟨low, high⟩ := lot.property
  have whole : Delay.drawRange range.toUInt64 = range.toNat := drawRange_toUInt64 range
  rw [toInt_coordinate]
  omega

/-- The lots of a random offset. -/
def scattering (range : UInt32) : List Request := drawn range.toUInt64 ++ drawn range.toUInt64

/-- A lot is no call. -/
theorem calls_scattering (range : UInt32) : (scattering range).filter Request.isCall = [] := by
  by_cases none : range.toUInt64 = 0 <;> simp [scattering, drawn, none, Request.isCall]

/-- A random offset moves both coordinates within its range. -/
theorem play_scatter (range : UInt32) (p : Point) :
    ∃ q : Point, f.play w plan (scatter range p).quiet.run =
        (some (.ok q), f.takes w plan (scattering range)) ∧
      (range = 0 → q = p) ∧
      (q.x.toInt - p.x.toInt).natAbs ≤ range.toNat ∧ (q.y.toInt - p.y.toInt).natAbs ≤ range.toNat := by
  by_cases none : range = 0
  · subst none
    exact ⟨p, rfl, fun _ => rfl, by simp, by simp⟩
  · have first := play_draw w plan f range.toUInt64
    have second := play_draw w plan (f.takes w plan (drawn range.toUInt64)) range.toUInt64
    refine ⟨p.offset (pixels (f.lot w range.toUInt64))
      (pixels ((f.takes w plan (drawn range.toUInt64)).lot w range.toUInt64)), ?_, (absurd · none),
      scatter_near .., scatter_near ..⟩
    rw [scatter, if_neg none, play_andThen first, play_andThen second, scattering, takes_append]
    rfl

/-- **A click makes one call exactly if its target stands for a point**: of its own kind, as near to that
point, moved by the fixed offset, as the random offset says; and no number wraps on the way. -/
theorem click_law (w : Surroundings) (plan : Plan) (s : Settings) (h : Header) (kind : ClickKind)
    (c : Click) (f : Film) :
    let x := f.play w plan ((Action.simple h (.click kind c)).execute s).quiet.run
    let shows := c.target.shows w f s
    let scope := f.scene.context.scope
    c.Exact ∧ ∃ (lots : List Request) (made : List DeviceCall),
      x.2 = f.takes w plan (c.target.asks s ++ lots ++ made.map .device) ∧
      x.2.calls = f.calls ++ (c.target.asks s).filter Request.isCall ++ made.map .device ∧
      ((∃ p, c.target.At shows scope p) ↔ made.length = 1) ∧
      (∀ p, c.target.At shows scope p → lots = scattering c.randomOffset ∧
        ∃ q, made = [.click kind (some q)] ∧ c.Lands p q ∧
          x.1 = some ((w.device x.2.calls).mapError .dispatch)) ∧
      ((∀ p, ¬ c.target.At shows scope p) → lots = [] ∧ made = [] ∧
        ∃ e, c.target.Misses shows scope e ∧ x.1 = some (.error e)) := by
  intro x shows scope
  refine ⟨c.exact, ?_⟩
  obtain ⟨r, resolved, right⟩ := play_resolve w plan f s c.target
  cases r with
  | error e =>
      have missed : c.target.Misses shows scope e := right
      have played : x = (some (.error e), f.takes w plan (c.target.asks s)) := play_orElse resolved
      refine ⟨[], [], ?_, ?_, ?_, fun p at_p => absurd at_p missed.not_at, fun _ => ⟨rfl, rfl, e, missed, ?_⟩⟩
      · simp [played]
      · simp [played, calls_takes]
      · exact ⟨fun ⟨p, at_p⟩ => absurd at_p missed.not_at, nofun⟩
      · rw [played]
  | ok p =>
      have at_p : c.target.At shows scope p := right
      let target := p.offset c.offsetX.toInt c.offsetY.toInt
      let g := f.takes w plan (c.target.asks s)
      obtain ⟨q, scattered, same, near_x, near_y⟩ :=
        play_scatter w plan g c.randomOffset target
      have clicked := play_device w plan (g.takes w plan (scattering c.randomOffset))
        (.click kind (some q))
      have played : x = _ := (play_andThen resolved).trans ((play_andThen scattered).trans clicked)
      have film : x.2 = f.takes w plan (c.target.asks s ++ scattering c.randomOffset ++
          [.device (.click kind (some q))]) := by
        rw [played, takes_append, takes_append]
        rfl
      have calls : x.2.calls = f.calls ++ (c.target.asks s).filter Request.isCall ++
          [.device (.click kind (some q))] := by
        rw [film, calls_takes, List.filter_append, List.filter_append, calls_scattering, List.append_nil,
          List.append_assoc]
        rfl
      refine ⟨scattering c.randomOffset, [.click kind (some q)], film, calls,
        ⟨fun _ => rfl, fun _ => ⟨p, at_p⟩⟩, fun p' at_p' => ⟨rfl, q, rfl, ?_, ?_⟩, fun nowhere => absurd at_p (nowhere p)⟩
      · cases at_p.unique at_p'
        obtain ⟨x_moved, y_moved⟩ := toInt_offset p c.offsetX.toInt c.offsetY.toInt
        exact ⟨⟨toInt_bounds _, x_moved ▸ near_x, fun none => same none ▸ x_moved⟩,
          ⟨toInt_bounds _, y_moved ▸ near_y, fun none => same none ▸ y_moved⟩⟩
      · rw [played, Film.calls_take]
        rfl

end Film

end TaskReplay
