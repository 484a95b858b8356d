import Machining.Proofs.Regular

namespace Machining

/-- Which further parts of two machines are compared. -/
structure Scope where
  axes : Axis → Prop
  groups : ModalGroup → Prop
  /-- The position before, the signs of zero shifts, and the variables. -/
  trail : Prop
  /-- Feed and speed. -/
  settings : Prop
  x : axes .x
  y : axes .y
  z : axes .z
  /-- A position that is left becomes the position before, on all axes. -/
  whole : trail → ∀ i, axes i

namespace Machine
variable {σ : Scope} {m n : Machine Number}

/-- An axis shifted by a zero of either sign makes no difference, unless the tool is at the negative
zero. -/
structure Unshifted (m : Machine Number) (i : Axis) : Prop where
  zero : Binary64.IsZero (m.shift.get i).real
  position : (m.position.get i).real ≠ -0.0

def Idle (m : Machine Number) : Prop := m.speed.holds .le (.int 0) = .ok true

/-- Two machines that do the same under codes of texts, as far as feed and speed allow. -/
structure Agree (σ : Scope) (m n : Machine Number) : Prop where
  left : m.Regular
  right : n.Regular
  position : ∀ i, σ.axes i → m.position.get i = n.position.get i
  shift : ∀ i, σ.axes i → m.shift.get i = n.shift.get i ∨ ¬ σ.trail ∧ m.Unshifted i ∧ n.Unshifted i
  groups : ∀ g, σ.groups g → m.modes.get g = n.modes.get g
  plane : m.plane = n.plane
  absolute : m.isAbsolute = n.isAbsolute
  trail : σ.trail → m.previous = n.previous ∧ m.named = n.named ∧ m.numbered = n.numbered
  feed : σ.settings → m.feed = n.feed
  speed : σ.settings → m.speed = n.speed ∨ m.Idle ∧ n.Idle

theorem Regular.agree (h : m.Regular) (σ : Scope) : m.Agree σ m where
  left := h
  right := h
  position _ _ := rfl
  shift _ _ := .inl rfl
  groups _ _ := rfl
  plane := rfl
  absolute := rfl
  trail _ := ⟨rfl, rfl, rfl⟩
  feed _ := rfl
  speed _ := .inl rfl

theorem Unshifted.here {i : Axis} (h : m.Unshifted i) : m.here i = (m.position.get i).real := by
  rw [Machine.here, Binary64.sub_zero_of_ne h.position (.inl rfl),
    Binary64.sub_zero_of_ne h.position h.zero]

theorem Unshifted.there {i : Axis} (h : m.Unshifted i) (x : Float) : m.there i x = x + 0.0 := by
  rw [Machine.there, Binary64.add_zero_of_ne (Binary64.add_zero_ne x) h.zero]

theorem Agree.here {i : Axis} (h : m.Agree σ n) (hi : σ.axes i) : m.here i = n.here i := by
  rcases h.shift i hi with hs | ⟨-, hm, hn⟩
  · rw [Machine.here, Machine.here, h.position i hi, hs]
  · rw [hm.here, hn.here, h.position i hi]

theorem Agree.there {i : Axis} (h : m.Agree σ n) (hi : σ.axes i) (x : Float) :
    m.there i x = n.there i x := by
  rcases h.shift i hi with hs | ⟨-, hm, hn⟩
  · rw [Machine.there, Machine.there, hs]
  · rw [hm.there, hn.there]

/-- Only positions and shifts count for shifts that make no difference. -/
theorem Agree.shift_congr (h : m.Agree σ n) {m' n' : Machine Number}
    (hm : m'.shift = m.shift ∧ m'.position = m.position)
    (hn : n'.shift = n.shift ∧ n'.position = n.position) (i : Axis) (hi : σ.axes i) :
    m'.shift.get i = n'.shift.get i ∨ ¬ σ.trail ∧ m'.Unshifted i ∧ n'.Unshifted i := by
  rw [hm.1, hn.1]
  refine (h.shift i hi).imp_right fun ⟨ht, hm', hn'⟩ => ⟨ht, ⟨?_, ?_⟩, ⟨?_, ?_⟩⟩
  · rw [hm.1]
    exact hm'.zero
  · rw [hm.2]
    exact hm'.position
  · rw [hn.1]
    exact hn'.zero
  · rw [hn.2]
    exact hn'.position

/-- The tools go to the same place. -/
theorem Agree.moveTo (h : m.Agree σ n) {f g : Axis → Float} (hfg : ∀ i, σ.axes i → f i = g i) :
    (m.moveTo (.ofFn fun i => .float (m.there i (f i)))).Agree σ
      (n.moveTo (.ofFn fun i => .float (n.there i (g i)))) where
  left := { h.left with
    position := fun i => by simpa [Machine.moveTo] using Number.isFloat_float _ }
  right := { h.right with
    position := fun i => by simpa [Machine.moveTo] using Number.isFloat_float _ }
  position i hi := by simp [Machine.moveTo, hfg i hi, h.there hi]
  shift i hi := by
    rcases h.shift i hi with hs | ⟨ht, hm, hn⟩
    · exact .inl hs
    · refine .inr ⟨ht, ⟨hm.zero, ?_⟩, ⟨hn.zero, ?_⟩⟩
      · simp [Machine.moveTo, Number.real, hm.there, Binary64.add_zero_ne]
      · simp [Machine.moveTo, Number.real, hn.there, Binary64.add_zero_ne]
  groups := h.groups
  plane := h.plane
  absolute := h.absolute
  trail ht := by
    refine ⟨?_, (h.trail ht).2⟩
    apply Axes.ext_get
    intro i
    exact h.position i (σ.whole ht i)
  feed := h.feed
  speed := h.speed

theorem Regular.setMode (h : m.Regular) {g : ModalGroup} {code : Number}
    (hs : g ≠ .coordinateSystem) (ha : g ≠ .arcDistance)
    (hp : g = .plane → (m.setMode g code).plane ∈ [.xy, .xz, .yz]) :
    (m.setMode g code).Regular := by
  refine { h with system := ?_, arcs := ?_, plane := ?_ }
  · cases g <;> first | exact absurd rfl hs | exact h.system
  · cases g <;> first | exact absurd rfl ha | exact h.arcs
  · cases g with
    | plane => simpa using hp rfl
    | _ => exact h.plane

/-- A mode that both machines take leaves them in agreement, unless it is one of those that codes of
texts never touch. -/
theorem Agree.setMode (h : m.Agree σ n) {g : ModalGroup} {code : Number}
    (hs : g ≠ .coordinateSystem) (ha : g ≠ .arcDistance)
    (hp : g = .plane → Plane.ofCode code ∈ [.xy, .xz, .yz]) :
    (m.setMode g code).Agree σ (n.setMode g code) := by
  have hplane : ∀ k : Machine Number, g = .plane → (k.setMode g code).plane ∈ [.xy, .xz, .yz] := by
    rintro k rfl
    exact hp rfl
  refine { h with
    left := h.left.setMode hs ha (hplane m), right := h.right.setMode hs ha (hplane n),
    groups := ?_, plane := ?_, absolute := ?_, shift := ?_ }
  · exact h.shift_congr ⟨rfl, rfl⟩ ⟨rfl, rfl⟩
  · intro k hk
    simp only [Machine.setMode, Modes.get_set, h.groups k hk]
  · cases g with
    | plane => rfl
    | _ => exact h.plane
  · cases g with
    | distance => rfl
    | _ => exact h.absolute

theorem Agree.setFeed (h : m.Agree σ n) {f : Number} (hf : f.IsFloat) :
    ({ m with feed := f } : Machine Number).Agree σ { n with feed := f } :=
  { h with
    left := { h.left with feed := hf }
    right := { h.right with feed := hf }
    shift := h.shift_congr ⟨rfl, rfl⟩ ⟨rfl, rfl⟩
    feed := fun _ => rfl }

/-- Both shifts of an axis are set. -/
theorem Agree.setShift (h : m.Agree σ n) (i : Axis) {v w : Number} (hv : v.IsFloat) (hw : w.IsFloat)
    (hvw : σ.axes i → v = w) : (m.setShift i v).Agree σ (n.setShift i w) := by
  refine { h with
    left := { h.left with shift := ?_ }, right := { h.right with shift := ?_ }, shift := ?_ }
  · intro j
    simp only [Machine.setShift, Axes.get_set]
    split
    · exact hv
    · exact h.left.shift j
  · intro j
    simp only [Machine.setShift, Axes.get_set]
    split
    · exact hw
    · exact h.right.shift j
  · intro j hj
    by_cases hji : j = i
    · subst hji
      exact .inl (by simp [Machine.setShift, hvw hj])
    · rcases h.shift j hj with hs | ⟨ht, hm, hn⟩
      · exact .inl (by simp [Machine.setShift, hji, hs])
      · refine .inr ⟨ht, ⟨?_, hm.position⟩, ⟨?_, hn.position⟩⟩
        · simpa [Machine.setShift, hji] using hm.zero
        · simpa [Machine.setShift, hji] using hn.zero

end Machine

def Segment.unfed (s : Segment Number) : Segment Number := { s with feed := none }

/-- Two paths that differ at most in the feeds of their segments, and not even there where settings
are compared. -/
structure Toolpath.Agree (σ : Scope) (p q : Toolpath Number) : Prop where
  segments : p.segments.map Segment.unfed = q.segments.map Segment.unfed
  byLine : p.byLine = q.byLine
  nextId : p.nextId = q.nextId
  totalLength : p.totalLength = q.totalLength
  rapidLength : p.rapidLength = q.rapidLength
  feedLength : p.feedLength = q.feedLength
  feeds : σ.settings → p.segments = q.segments

inductive Toolpath.Added (σ : Scope) :
    Except Fault (Toolpath Number) → Except Fault (Toolpath Number) → Prop where
  | ok {p q : Toolpath Number} (agree : p.Agree σ q) : Added σ (.ok p) (.ok q)
  | error (f : Fault) : Added σ (.error f) (.error f)

namespace Toolpath
variable {σ : Scope} {p q : Toolpath Number}

theorem agree_refl (σ : Scope) (p : Toolpath Number) : p.Agree σ p :=
  ⟨rfl, rfl, rfl, rfl, rfl, rfl, fun _ => rfl⟩

/-- Agreeing paths with the same segments are the same. -/
theorem Agree.eq (h : p.Agree σ q) (hs : p.segments = q.segments) : p = q := by
  obtain ⟨-, byLine, nextId, total, rapid, feed, -⟩ := h
  cases p
  cases q
  simp_all

/-- The feed of a segment is not asked for when it is added. -/
theorem Agree.push (h : p.Agree σ q) (s : Segment Number) {f f' : Option Number}
    (hf : σ.settings → f = f') (share : Share) :
    Added σ (p.push { s with feed := f } share) (q.push { s with feed := f' } share) := by
  have hm : Segment.measure ({ s with id := q.nextId, feed := f } : Segment Number) =
      Segment.measure ({ s with id := q.nextId, feed := f' } : Segment Number) := rfl
  simp only [Toolpath.push_bind, Segment.measured, h.nextId, h.byLine, h.totalLength, h.rapidLength,
    h.feedLength, hm, bind, Except.bind, pure, Except.pure]
  cases Segment.measure ({ s with id := q.nextId, feed := f' } : Segment Number) with
  | error e => exact .error e
  | ok len =>
    simp only [Segment.travel]
    generalize Scalar.add q.totalLength _ = total
    generalize Scalar.add q.rapidLength _ = rapid
    generalize Scalar.add q.feedLength _ = fed
    -- the lengths are the same on both sides, so only the two segments remain to be compared
    have hadded : ∀ total rapid fed, Added σ
        (.ok ⟨p.segments ++ [{ s with id := q.nextId, feed := f, length := some len }],
          q.byLine.put s.line ((q.byLine.get? s.line).getD [] ++ [q.nextId]), q.nextId + 1,
          total, rapid, fed⟩)
        (.ok ⟨q.segments ++ [{ s with id := q.nextId, feed := f', length := some len }],
          q.byLine.put s.line ((q.byLine.get? s.line).getD [] ++ [q.nextId]), q.nextId + 1, total,
          rapid, fed⟩) := by
      intro total rapid fed
      refine .ok ⟨?_, rfl, rfl, rfl, rfl, rfl, ?_⟩
      · simp [h.segments, Segment.unfed]
      · intro hs
        simp [h.feeds hs, hf hs]
    cases total with
    | error e => exact .error e
    | ok total =>
      cases share with
      | rapid =>
        cases rapid with
        | error e => exact .error e
        | ok rapid => exact hadded total rapid _
      | feed =>
        cases fed with
        | error e => exact .error e
        | ok fed => exact hadded total _ fed
      | neither => exact hadded total _ _

theorem Agree.addLinear (h : p.Agree σ q) (start stop : Point Number) (line : Int) (kind : MoveKind)
    {f f' : Option Number} (hf : σ.settings → f = f') :
    Added σ (p.addLinear start stop line kind f) (q.addLinear start stop line kind f') := by
  exact h.push ⟨0, line, kind, start, stop, none, none, none, none, none, none,
    none⟩ hf (linearShare kind)

theorem Agree.addArc (h : p.Agree σ q) (start stop center : Point Number) (line : Int)
    (kind : MoveKind) (plane : String) {f f' : Option Number} (hf : σ.settings → f = f') :
    Added σ (p.addArc start stop center line kind plane f)
      (q.addArc start stop center line kind plane f') := by
  rw [Toolpath.addArc_bind, Toolpath.addArc_bind]
  cases ArcShape.ofPoints start stop center plane with
  | error e => exact .error e
  | ok shape =>
    simp only [bind, Except.bind]
    exact h.push ⟨0, line, kind, start, stop, some center, some shape.radius, some shape.startAngle,
      some shape.endAngle, some plane, none, none⟩ hf .feed

end Toolpath

structure Controller.Agree (σ : Scope) (c d : Controller Number) : Prop where
  machine : c.machine.Agree σ d.machine
  path : c.path.Agree σ d.path
  reports : c.reports = d.reports

def GCode.asksFeed : GCode → Bool
  | .linear | .arcCw | .arcCcw => true
  | _ => false

namespace Motion
variable {σ : Scope} {c d : Controller Number} {b : Block Number}

structure Result.Agree (σ : Scope) (r s : Result Number) : Prop where
  controller : r.controller.Agree σ s.controller
  outcome : r.outcome = s.outcome

theorem done_agree (h : c.Agree σ d) : (done c).Agree σ (done d) := ⟨h, rfl⟩

theorem refuse_agree (h : c.Agree σ d) (b : Block Number) (message : String) :
    (refuse c b message).Agree σ (refuse d b message) :=
  ⟨⟨h.machine, h.path, by simp [refuse, Controller.report, h.reports]⟩, rfl⟩

/-- Places that are the same on the compared axes are the same point. -/
theorem point_eq {p q : Axes Number} (h : ∀ i, σ.axes i → p.get i = q.get i) :
    p.point = q.point := by
  have hx := h .x σ.x
  have hy := h .y σ.y
  have hz := h .z σ.z
  simp only [Axes.get] at hx hy hz
  simp only [Axes.point, hx, hy, hz]

theorem destination_point {m n : Machine Number} (h : m.Agree σ n) {f g : Axis → Float}
    (hfg : ∀ i, σ.axes i → f i = g i) :
    (Axes.ofFn fun i => Number.float (m.there i (f i))).point =
      (Axes.ofFn fun i => Number.float (n.there i (g i))).point := by
  apply point_eq (σ := σ)
  intro i hi
  rw [Axes.get_ofFn, Axes.get_ofFn, hfg i hi, h.there hi]

/-- A path that is added to ends a move. -/
theorem added_agree (h : c.Agree σ d) {v w : Except Fault (Toolpath Number)}
    (hvw : Toolpath.Added σ v w) {f g : Axis → Float} (hfg : ∀ i, σ.axes i → f i = g i) :
    Result.Agree σ
      (Result.of c v fun path => done { c with
        path, machine := c.machine.moveTo (.ofFn fun i => .float (c.machine.there i (f i))) })
      (Result.of d w fun path => done { d with
        path, machine := d.machine.moveTo (.ofFn fun i => .float (d.machine.there i (g i))) }) := by
  cases hvw with
  | ok agree =>
    simp only [Result.of]
    exact done_agree ⟨h.machine.moveTo hfg, agree, h.reports⟩
  | error e =>
    simp only [Result.of]
    exact ⟨h, rfl⟩

theorem position_point (h : c.Agree σ d) : c.machine.position.point = d.machine.position.point :=
  point_eq h.machine.position

/-- Both go to the same place. -/
theorem travel_agree (h : c.Agree σ d) {f g : Axis → Float} (hfg : ∀ i, σ.axes i → f i = g i)
    (line : Int) (kind : MoveKind) {feed feed' : Option Number} (hf : σ.settings → feed = feed') :
    (travel c line (.ofFn fun i => .float (c.machine.there i (f i))) kind feed).Agree σ
      (travel d line (.ofFn fun i => .float (d.machine.there i (g i))) kind feed') := by
  have hpoint := destination_point h.machine hfg
  unfold travel
  rw [position_point h, hpoint]
  exact added_agree h (h.path.addLinear _ _ line kind hf) hfg

theorem aim_agree (h : c.Agree σ d) (b : Block Number) (i : Axis) (hi : σ.axes i) :
    aim c.machine b i = aim d.machine b i := by
  unfold aim
  rw [h.machine.absolute, h.machine.here hi]

theorem rapid_agree (h : c.Agree σ d) (hb : b.Written) : (rapid b c).Agree σ (rapid b d) := by
  have h' : (c.setMode .motion (.int 0)).Agree σ (d.setMode .motion (.int 0)) :=
    ⟨h.machine.setMode (by decide) (by decide) (by simp), h.path, h.reports⟩
  simp only [rapid]
  split
  · rw [destination_eq h'.machine.left hb, destination_eq h'.machine.right hb]
    simp only [Result.of]
    exact travel_agree h' (aim_agree h' b) b.line .rapid fun _ => rfl
  · exact done_agree h'

/-- Without a feed word it is the feed of the machine that counts: both have one, or neither has. -/
def SameFeed (b : Block Number) (c d : Controller Number) : Prop :=
  b.param .f = none → Scalar.holdsOfZero .le c.machine.feed = Scalar.holdsOfZero .le d.machine.feed

theorem withFeed_agree (h : c.Agree σ d) (hb : b.Written) (hf : SameFeed b c d) (code : Int)
    {next : Controller Number → Result Number}
    (hnext : ∀ c d, c.Agree σ d → (next c).Agree σ (next d)) :
    (withFeed code b c next).Agree σ (withFeed code b d next) := by
  unfold withFeed
  cases hp : b.param .f with
  | some f =>
    simp only
    cases Scalar.holdsOfZero .le f with
    | error e => exact ⟨h, rfl⟩
    | ok nonpositive =>
      cases nonpositive with
      | true => exact refuse_agree h b _
      | false => exact hnext _ _ ⟨h.machine.setFeed (hb.params .f f hp), h.path, h.reports⟩
  | none =>
    simp only
    rw [hf hp]
    cases Scalar.holdsOfZero .le d.machine.feed with
    | error e => exact ⟨h, rfl⟩
    | ok nonpositive =>
      cases nonpositive with
      | true => exact refuse_agree h b _
      | false => exact hnext c d h

theorem linear_agree (h : c.Agree σ d) (hb : b.Written) (hf : SameFeed b c d) :
    (linear b c).Agree σ (linear b d) := by
  have h' : (c.setMode .motion (.int 1)).Agree σ (d.setMode .motion (.int 1)) :=
    ⟨h.machine.setMode (by decide) (by decide) (by simp), h.path, h.reports⟩
  apply withFeed_agree h' hb hf
  intro c d h
  split
  · rw [destination_eq h.machine.left hb, destination_eq h.machine.right hb]
    simp only [Result.of]
    exact travel_agree h (aim_agree h b) b.line .feed fun hs => by rw [h.machine.feed hs]
  · exact done_agree h

/-- The centres of arcs are the same. -/
theorem center_point (h : c.Agree σ d) (hb : b.Written) :
    ∃ p q, center c.machine b = .ok p ∧ center d.machine b = .ok q ∧ p.point = q.point := by
  refine ⟨_, _, center_eq h.machine.left hb, center_eq h.machine.right hb, ?_⟩
  rw [h.machine.plane]
  have hplane : ∀ i, i = d.machine.plane.first ∨ i = d.machine.plane.second → σ.axes i := by
    rcases h.machine.right.plane with hp | hp | hp <;> rw [hp] <;> rintro i (rfl | rfl)
    · exact σ.x
    · exact σ.y
    · exact σ.x
    · exact σ.z
    · exact σ.y
    · exact σ.z
  have hfirst := h.machine.position _ (hplane _ (.inl rfl))
  have hsecond := h.machine.position _ (hplane _ (.inr rfl))
  apply point_eq (σ := σ)
  intro i hi
  simp only [Axes.get_set, hfirst, hsecond, h.machine.position i hi]

theorem arc_agree (h : c.Agree σ d) (hb : b.Written) (hf : SameFeed b c d) (kind : MoveKind)
    (code : Int) : (arc kind code b c).Agree σ (arc kind code b d) := by
  have h' : (c.setMode .motion (.int code)).Agree σ (d.setMode .motion (.int code)) :=
    ⟨h.machine.setMode (by decide) (by decide) (by simp), h.path, h.reports⟩
  apply withFeed_agree h' hb hf
  intro c d h
  split
  · obtain ⟨p, q, hp, hq, hpq⟩ := center_point h hb
    rw [destination_eq h.machine.left hb, destination_eq h.machine.right hb, hp, hq]
    simp only [Result.of]
    rw [position_point h, destination_point h.machine (aim_agree h b), hpq, h.machine.plane]
    exact added_agree h (h.path.addArc _ _ _ b.line kind _ fun hs => by rw [h.machine.feed hs])
      (aim_agree h b)
  · exact done_agree h

theorem dwell_agree (h : c.Agree σ d) (b : Block Number) : (dwell b c).Agree σ (dwell b d) := by
  unfold dwell
  split
  · rename_i p _
    cases Scalar.holdsOfZero .lt p with
    | error e => exact ⟨h, rfl⟩
    | ok negative =>
      cases negative with
      | true => exact refuse_agree h b _
      | false => exact done_agree h
  · exact refuse_agree h b _

theorem home_agree (h : c.Agree σ d) (b : Block Number) : (home b c).Agree σ (home b d) := by
  have hp : ∀ i, ((Axes.fill (0 : Number)).get i).IsFloat := by
    intro i
    rw [Axes.fill, Axes.get_ofFn]
    exact Number.isFloat_zero
  unfold home
  rw [h.machine.left.absolute hp, h.machine.right.absolute hp]
  simp only [Result.of]
  exact travel_agree h (fun _ _ => rfl) b.line .rapid fun _ => rfl

theorem shiftAxes_agree (h : c.Agree σ d) (hb : b.Written) (is : List Axis) :
    (shiftAxes b is c).Agree σ (shiftAxes b is d) := by
  induction is generalizing c d with
  | nil => exact done_agree h
  | cons i rest ih =>
    unfold shiftAxes
    cases hv : b.axis i with
    | none => exact ih h
    | some v =>
      have hf := hb.axes i v hv
      simp only
      rw [Number.sub_float (h.machine.left.position i) hf,
        Number.sub_float (h.machine.right.position i) hf]
      simp only [Result.of]
      apply ih
      refine ⟨h.machine.setShift i (Number.isFloat_float _) (Number.isFloat_float _) ?_,
        h.path, h.reports⟩
      intro hi
      rw [h.machine.position i hi]

theorem shift_agree (h : c.Agree σ d) (hb : b.Written) : (shift b c).Agree σ (shift b d) := by
  unfold shift
  split
  · exact shiftAxes_agree h hb Axis.all
  · exact refuse_agree h b _

theorem setMode_agree (h : c.Agree σ d) {g : ModalGroup} {code : Number}
    (hs : g ≠ .coordinateSystem) (ha : g ≠ .arcDistance)
    (hp : g = .plane → Plane.ofCode code ∈ [.xy, .xz, .yz]) :
    (done (c.setMode g code)).Agree σ (done (d.setMode g code)) :=
  done_agree ⟨h.machine.setMode hs ha hp, h.path, h.reports⟩

/-- One code does the same on both, provided that both have a feed where it asks for one. -/
theorem perform_agree (h : c.Agree σ d) (hb : b.Written) (g : GCode)
    (hf : g.asksFeed → SameFeed b c d) : (perform g b c).Agree σ (perform g b d) := by
  cases g with
  | rapid => exact rapid_agree h hb
  | linear => exact linear_agree h hb (hf rfl)
  | arcCw => exact arc_agree h hb (hf rfl) .arcCw 2
  | arcCcw => exact arc_agree h hb (hf rfl) .arcCcw 3
  | dwell => exact dwell_agree h b
  | offsetData => exact refuse_agree h b _
  | home => exact home_agree h b
  | shift => exact shift_agree h hb
  | planeXY | planeXZ | planeYZ => exact setMode_agree h (by decide) (by decide) (by decide)
  | inches | millimeters => exact setMode_agree h (by decide) (by decide) (by decide)
  | absolute | incremental => exact setMode_agree h (by decide) (by decide) (by decide)

theorem execute_agree (h : c.Agree σ d) (hb : b.Written) (code : Number)
    (hf : ∀ g, GCode.ofNumber? code = some g → g.asksFeed → SameFeed b c d) :
    (execute code b c).1 = (execute code b d).1 ∧
    (execute code b c).2.Agree σ (execute code b d).2 := by
  unfold execute
  cases hg : GCode.ofNumber? code with
  | none => exact ⟨rfl, h.machine, h.path, by simp [Controller.report, h.reports]⟩
  | some g =>
    have hp := perform_agree h hb g (hf g hg)
    simp only [hp.outcome]
    cases (perform g b d).outcome with
    | ok ok => exact ⟨rfl, hp.controller⟩
    | error f =>
      have hc := hp.controller
      exact ⟨rfl, hc.machine, hc.path, by simp [Controller.report, hc.reports]⟩

/-- Two runs that go through the same codes in lockstep. -/
theorem executeAll_agree (h : c.Agree σ d) (hb : b.Written) (hf : SameFeed b c d)
    (codes : List Number) :
    (executeAll b codes c).1 = (executeAll b codes d).1 ∧
      (executeAll b codes c).2.Agree σ (executeAll b codes d).2 := by
  induction codes generalizing c d with
  | nil => exact ⟨rfl, h⟩
  | cons code rest ih =>
    obtain ⟨hflag, hagree⟩ := execute_agree h hb code fun _ _ _ => hf
    have hfed : SameFeed b (execute code b c).2 (execute code b d).2 := by
      intro hnone
      have hc := (execute_effect code b c).fed.eq hnone
      have hd := (execute_effect code b d).fed.eq hnone
      simp only at hc hd
      rw [hc, hd]
      exact hf hnone
    have hih := ih hagree hfed
    unfold executeAll
    generalize execute code b c = x at hflag hih hagree
    generalize execute code b d = y at hflag hih hagree
    obtain ⟨okx, c'⟩ := x
    obtain ⟨oky, d'⟩ := y
    cases hflag
    cases okx with
    | true => exact hih
    | false => exact ⟨rfl, hagree⟩

/-- Without a feed, a code that asks for one is refused. -/
theorem execute_unfed {code : Number} {g : GCode} (hg : GCode.ofNumber? code = some g)
    (hask : g.asksFeed) (hnone : b.param .f = none)
    (hle : Scalar.holdsOfZero .le c.machine.feed = .ok true) :
    ∃ c' e, execute code b c = (false, c') ∧ c'.reports = c.reports ++ [e] ∧
      e.opening = some 'N' := by
  have hwith : ∀ (n : Int) (next : Controller Number → Result Number),
      withFeed n b (c.setMode .motion (.int n)) next =
        refuse (c.setMode .motion (.int n)) b s!"No feed rate specified for G{n} move" := by
    intro n next
    have hle' : Scalar.holdsOfZero .le (c.setMode .motion (.int n)).machine.feed = .ok true := hle
    simp only [withFeed, hnone, hle', Result.of, ↓reduceIte]
  have hperform : ∃ n, perform g b c =
      refuse (c.setMode .motion (.int n)) b s!"No feed rate specified for G{n} move" := by
    cases g with
    | linear => exact ⟨1, by rw [perform, linear, hwith]⟩
    | arcCw => exact ⟨2, by rw [perform, arc, hwith]⟩
    | arcCcw => exact ⟨3, by rw [perform, arc, hwith]⟩
    | _ => cases hask
  obtain ⟨n, hn⟩ := hperform
  let e := Diagnostic.onLine b.line .semantic s!"No feed rate specified for G{n} move"
  have hop : e.opening = some 'N' :=
    Diagnostic.opening_append (Diagnostic.opening_append (by decide))
  refine ⟨(c.setMode .motion (.int n)).report e, e, ?_, rfl, hop⟩
  simp only [execute, hg, hn, refuse]
  rfl

/-- With a feed, no code asks for one. -/
theorem executeAll_fed (hnone : b.param .f = none)
    (hle : Scalar.holdsOfZero .le c.machine.feed ≠ .ok true) (codes : List Number) :
    ∃ more, (executeAll b codes c).2.reports = c.reports ++ more ∧
      ∀ e ∈ more, e.opening ≠ some 'N' := by
  have h := executeAll_keeps (b := b)
    (P := fun d => d.machine.feed = c.machine.feed ∧
      ∃ more, d.reports = c.reports ++ more ∧ ∀ e ∈ more, e.opening ≠ some 'N')
    ?_ codes c ⟨rfl, [], by simp, by simp⟩
  · exact h.2
  · rintro code d ⟨hfeed, more, hmore, hno⟩
    have heffect := execute_effect code b d
    obtain ⟨new, hnew, hrefusal⟩ := heffect.newReports
    have hfed := heffect.fed.eq hnone
    refine ⟨hfed.trans hfeed, more ++ new, ?_, ?_⟩
    · rw [← List.append_assoc, ← hmore]
      exact hnew
    · intro e he hop
      rcases List.mem_append.mp he with he | he
      · exact hno e he hop
      · have := ((hrefusal e he).feed hop).2
        rw [hfeed] at this
        exact hle this

theorem le_zero_float {v : Number} (h : v.IsFloat) : ∃ t, Scalar.holdsOfZero .le v = .ok t := by
  obtain ⟨x, rfl⟩ := h
  exact ⟨_, rfl⟩

/-- A code that asks for a feed which only one of two controllers has shows in the reports. -/
theorem executeAll_unfed (h : c.reports = d.reports) {code : Number} {g : GCode}
    (hg : GCode.ofNumber? code = some g) (hask : g.asksFeed) (hnone : b.param .f = none)
    (hc : Scalar.holdsOfZero .le c.machine.feed = .ok true)
    (hd : Scalar.holdsOfZero .le d.machine.feed ≠ .ok true) (rest : List Number) :
    (executeAll b (code :: rest) c).2.reports ≠ (executeAll b (code :: rest) d).2.reports := by
  obtain ⟨c', e, hexec, hreports, hop⟩ := execute_unfed hg hask hnone hc
  obtain ⟨more, hmore, hno⟩ := executeAll_fed hnone hd (code :: rest)
  intro heq
  rw [hmore, executeAll, hexec, hreports, h] at heq
  have hmem : e ∈ more := by
    rw [← List.append_cancel_left heq]
    exact List.mem_singleton_self e
  exact hno e hmem hop

/-- Two runs through the same codes that make the same reports are in lockstep. -/
theorem executeAll_same (h : c.Agree σ d) (hb : b.Written) (codes : List Number)
    (hr : (executeAll b codes c).2.reports = (executeAll b codes d).2.reports) :
    (executeAll b codes c).1 = (executeAll b codes d).1 ∧
      (executeAll b codes c).2.Agree σ (executeAll b codes d).2 := by
  by_cases hf : SameFeed b c d
  · exact executeAll_agree h hb hf codes
  · obtain ⟨hnone, hne⟩ := Classical.not_imp.mp hf
    induction codes generalizing c d with
    | nil => exact ⟨rfl, h⟩
    | cons code rest ih =>
      have hquiet : ∀ g, GCode.ofNumber? code = some g → g.asksFeed → SameFeed b c d := by
        intro g hg hask
        obtain ⟨x, hx⟩ := le_zero_float h.machine.left.feed
        obtain ⟨y, hy⟩ := le_zero_float h.machine.right.feed
        rw [hx, hy] at hne
        exfalso
        cases x <;> cases y
        · exact hne rfl
        · exact executeAll_unfed h.reports.symm hg hask hnone hy (by rw [hx]; simp) rest hr.symm
        · exact executeAll_unfed h.reports hg hask hnone hx (by rw [hy]; simp) rest hr
        · exact hne rfl
      obtain ⟨hflag, hagree⟩ := execute_agree h hb code hquiet
      have hc := (execute_effect code b c).fed.eq hnone
      have hd := (execute_effect code b d).fed.eq hnone
      simp only at hc hd
      unfold executeAll at hr ⊢
      generalize execute code b c = x at *
      generalize execute code b d = y at *
      obtain ⟨okx, c'⟩ := x
      obtain ⟨oky, d'⟩ := y
      cases hflag
      cases okx with
      | true =>
        apply ih hagree hr
        · rw [SameFeed, hc, hd]
          exact hf
        · rw [hc, hd]
          exact hne
      | false => exact ⟨rfl, hagree⟩

end Motion
end Machining
