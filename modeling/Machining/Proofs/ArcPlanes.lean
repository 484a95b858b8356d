import Machining.Proofs.Exact
import Machining.Proofs.Landing

namespace Machining

/-- Exact scalars on which the functions of plane geometry are total. Squares do not see the sign
and nothing but zero counts as zero; otherwise the functions may be any. -/
class PlaneScalar (α : Type) extends ExactScalar α where
  squared : α → α
  halved : α → α
  root : α → α
  angle : α → α → α
  negative : α → Bool
  square_eq (a : α) : square a = .ok (squared a)
  half_eq (a : α) : half a = .ok (halved a)
  sqrt_eq (a : α) : sqrt a = .ok (root a)
  atan2_eq (y x : α) : atan2 y x = .ok (angle y x)
  holds_lt_zero (a : α) : holds .lt a 0 = .ok (negative a)
  squared_neg (a : α) : squared (-a) = squared a
  eq_zero_of_isZero (a : α) : isZero a = true → a = 0

namespace PlaneScalar

noncomputable instance : PlaneScalar ℝ where
  squared a := a * a
  halved a := a / (1 + 1)
  root := Real.sqrt
  angle y x := Complex.arg ⟨x, y⟩
  negative a := decide (a < 0)
  square_eq _ := rfl
  half_eq a := by rw [one_add_one_eq_two]; rfl
  sqrt_eq _ := rfl
  atan2_eq _ _ := rfl
  holds_lt_zero _ := rfl
  squared_neg a := neg_mul_neg a a
  eq_zero_of_isZero _ h := of_decide_eq_true h

variable {α : Type} [PlaneScalar α]

def reach (x y : α) : α := root (squared x + squared y)

def wrapped (a : α) : α := if negative a then a + ExactScalar.turn else a

theorem reach_neg (x y : α) : reach (-x) (-y) = reach x y := by
  rw [reach, squared_neg, squared_neg, reach]

theorem orZero_eq (o : Option α) : Scalar.orZero o = o.getD 0 := by
  cases o with
  | none => rfl
  | some v =>
    simp only [Scalar.orZero, Option.getD_some]
    split
    · rename_i h
      exact (eq_zero_of_isZero v h).symm
    · rfl

end PlaneScalar

namespace ArcShape
open PlaneScalar
variable {α : Type} [PlaneScalar α]

theorem arm_exact (p c : α × α) : arm p c = .ok (reach (p.1 - c.1) (p.2 - c.2)) := by
  have hsquare (a : α) : Scalar.square a = .ok (squared a) := square_eq a
  simp only [arm, ExactScalar.sub_eq, ExactScalar.add_eq, hsquare, bind, Except.bind]
  exact sqrt_eq _

theorem direction_exact (p c : α × α) :
    direction p c = .ok (angle (p.2 - c.2) (p.1 - c.1)) := atan2_eq _ _

theorem normalize_exact (a : α) : normalize a = .ok (wrapped a) := by
  have hlt : Scalar.holdsOfZero .lt a = .ok (negative a) := holds_lt_zero a
  simp only [normalize, hlt, bind, Except.bind, wrapped]
  split <;> rfl

/-- Every arc has a shape. -/
theorem ofPoints_exact (start stop center : Point α) (plane : String) :
    ofPoints start stop center plane =
      let p := planeCoordinates plane start
      let q := planeCoordinates plane stop
      let c := planeCoordinates plane center
      .ok ⟨halved (reach (p.1 - c.1) (p.2 - c.2) + reach (q.1 - c.1) (q.2 - c.2)),
        wrapped (angle (p.2 - c.2) (p.1 - c.1)), wrapped (angle (q.2 - c.2) (q.1 - c.1))⟩ := by
  have hhalf (a : α) : Scalar.half a = .ok (halved a) := half_eq a
  simp only [ofPoints, arm_exact, ExactScalar.add_eq, hhalf, direction_exact, normalize_exact,
    bind, Except.bind]
  rfl

end ArcShape

/-- Of the two angles between two directions the smaller one is taken. -/
theorem Segment.sweep_real (a b : ℝ) : sweep a b = .ok (min |b - a| (2 * Real.pi - |b - a|)) := by
  have hsweep : sweep a b =
      if decide (Real.pi < |b - a|) = true then .ok (2 * Real.pi - |b - a|) else .ok |b - a| := rfl
  rw [hsweep]
  by_cases h : Real.pi < |b - a|
  · rw [if_pos (decide_eq_true h), min_eq_right (by linarith)]
  · rw [if_neg (by simpa using h), min_eq_left (by linarith)]

theorem Segment.measure_real (s : Segment ℝ) : ∃ len, s.measure = .ok len := by
  unfold measure
  split
  · split
    · rw [sweep_real]
      exact ⟨_, rfl⟩
    · exact ⟨_, rfl⟩
  · exact ⟨_, rfl⟩

theorem Toolpath.addArc_real (t : Toolpath ℝ) (start stop center : Point ℝ) (line : Int)
    (kind : MoveKind) (plane : String) (feed : Option ℝ) :
    ∃ t', t.addArc start stop center line kind plane feed = .ok t' := by
  rw [addArc_bind, ArcShape.ofPoints_exact]
  simp only [bind, Except.bind, push_bind, Segment.measured]
  obtain ⟨len, hlen⟩ := Segment.measure_real
    ⟨t.nextId, line, kind, start, stop, some center, _, _, _, some plane, feed, none⟩
  rw [hlen]
  exact ⟨_, rfl⟩

/-- A plane that arcs lie in: the code that selects it, its name, its two axes, and of the words I,
J and K those that place a centre along the axes and the one that is left over. -/
structure ArcPlane where
  code : Int
  name : String
  first : Axis
  second : Axis
  across : Param
  up : Param
  idle : Param

namespace ArcPlane

def xy : ArcPlane := ⟨17, "XY", .x, .y, .i, .j, .k⟩

def xz : ArcPlane := ⟨18, "XZ", .x, .z, .i, .k, .j⟩

def yz : ArcPlane := ⟨19, "YZ", .y, .z, .j, .k, .i⟩

def all : List ArcPlane := [xy, xz, yz]

theorem cases_all {l : ArcPlane} (hl : l ∈ all) : l = xy ∨ l = xz ∨ l = yz := by
  simpa [all] using hl

theorem first_ne_second : ∀ l ∈ all, l.first ≠ l.second := by decide

theorem idle_ne : ∀ l ∈ all, l.idle ≠ .f ∧ l.idle ≠ l.across ∧ l.idle ≠ l.up := by decide

structure Describes (l : ArcPlane) (p : Plane) : Prop where
  name : p.name = l.name
  first : p.first = l.first
  second : p.second = l.second
  words : ∀ {α : Type} [Scalar α] (b : Block α),
    Motion.centerWords p b = (Scalar.orZero (b.param l.across), Scalar.orZero (b.param l.up))

variable {α : Type} {l : ArcPlane}

theorem describes_plane (hl : l ∈ all) {m : Machine α} (h : (m.modes.plane == .int l.code) = true) :
    l.Describes m.plane := by
  -- the table of planes is searched by code, so the codes before the one in force have to differ
  -- from it
  have hvalue := Number.beq_int_iff.mp h
  have hsame : (Number.int l.code == m.modes.plane) = true := Number.int_beq_iff.mpr hvalue
  have hother (n : Int) (hn : n ≠ l.code) : (Number.int n == m.modes.plane) = false := by
    rw [Bool.eq_false_iff]
    intro heq
    rw [Number.int_beq_iff, hvalue] at heq
    exact hn (by exact_mod_cast (Option.some.inj heq).symm)
  rcases cases_all hl with rfl | rfl | rfl
  · have hplane : m.plane = .xy := by
      have hfound : (Number.int 17 == m.modes.plane) = true := hsame
      simp [Machine.plane, Plane.ofCode, Plane.codes, hfound]
    rw [hplane]
    exact ⟨by decide, rfl, rfl, fun b => rfl⟩
  · have hplane : m.plane = .xz := by
      have hfound : (Number.int 18 == m.modes.plane) = true := hsame
      simp [Machine.plane, Plane.ofCode, Plane.codes, List.find?, hfound, hother 17 (by decide)]
    rw [hplane]
    exact ⟨by decide, rfl, rfl, fun b => rfl⟩
  · have hplane : m.plane = .yz := by
      have hfound : (Number.int 19 == m.modes.plane) = true := hsame
      simp [Machine.plane, Plane.ofCode, Plane.codes, List.find?, hfound, hother 17 (by decide),
        hother 18 (by decide)]
    rw [hplane]
    exact ⟨by decide, rfl, rfl, fun b => rfl⟩

/-- The geometry takes the name of a plane for the same two axes. -/
theorem planeCoordinates_eq (hl : l ∈ all) (p : Axes α) :
    planeCoordinates l.name p.point = (p.get l.first, p.get l.second) := by
  have hupper : "XY".toUpper = "XY" ∧ "XZ".toUpper = "XZ" ∧ "YZ".toUpper = "YZ" := by decide +kernel
  rcases cases_all hl with rfl | rfl | rfl <;> simp [planeCoordinates, hupper, xy, xz, yz,
    Axes.point, Axes.get]

def offset [Zero α] (l : ArcPlane) (b : Block α) : α × α :=
  ((b.param l.across).getD 0, (b.param l.up).getD 0)

def move [Add α] (l : ArcPlane) (p : Axes α) (d : α × α) : Axes α :=
  .ofFn fun i => if i = l.first then p.get i + d.1
    else if i = l.second then p.get i + d.2 else p.get i

theorem get_move_first [Add α] (l : ArcPlane) (p : Axes α) (d : α × α) :
    (l.move p d).get l.first = p.get l.first + d.1 := by
  simp [move]

theorem get_move_second [Add α] (hl : l ∈ all) (p : Axes α) (d : α × α) :
    (l.move p d).get l.second = p.get l.second + d.2 := by
  simp [move, (first_ne_second l hl).symm]

end ArcPlane

def Block.setParam {α : Type} (b : Block α) (d : Param) (w : Option α) : Block α :=
  { b with params := b.params.set d w }

theorem Block.param_setParam_of_ne {α : Type} {b : Block α} {d e : Param}
    {w : Option α} (h : d ≠ e) : (b.setParam d w).param e = b.param e := by
  simp [setParam, param, h.symm]

namespace Motion

section
variable {α : Type} [Scalar α] {b : Block α} {c : Controller α} {l : ArcPlane}

/-- Of the block, the check of the feed goes by line and feed word. -/
theorem withFeed_congr {n : Int} (b b' : Block α) {next next' : Controller α → Result α}
    (hline : b'.line = b.line) (hf : b'.param .f = b.param .f)
    (h : ∀ f, next' (feeding c f) = next (feeding c f)) :
    withFeed n b' c next' = withFeed n b c next := by
  have hsame : next' c = next c := h c.machine.feed
  unfold withFeed refuse
  rw [hf, hline, hsame]
  cases b.param .f with
  | none => rfl
  | some f =>
    have htaken := h f
    rw [feeding] at htaken
    simp only [htaken]

theorem center_congr {m : Machine α} {b' : Block α}
    (h : centerWords m.plane b' = centerWords m.plane b) : center m b' = center m b := by
  unfold center
  simp only [h]

/-- The word that is left over does nothing to an arc. -/
theorem arc_setParam_idle {kind : MoveKind} {n : Int} (hl : l ∈ ArcPlane.all)
    (hplane : l.Describes c.machine.plane) (w : Option α) :
    arc kind n (b.setParam l.idle w) c = arc kind n b c := by
  obtain ⟨hf, hacross, hup⟩ := ArcPlane.idle_ne l hl
  have hwords : centerWords c.machine.plane (b.setParam l.idle w) =
      centerWords c.machine.plane b := by
    rw [hplane.words, hplane.words, Block.param_setParam_of_ne hacross,
      Block.param_setParam_of_ne hup]
  refine withFeed_congr b (b.setParam l.idle w) rfl (Block.param_setParam_of_ne hf) fun f => ?_
  have hcenter : center (feeding (c.setMode .motion (.int n)) f).machine (b.setParam l.idle w) =
      center (feeding (c.setMode .motion (.int n)) f).machine b := center_congr hwords
  rw [hcenter]
  rfl

end

open PlaneScalar
variable {α : Type} [PlaneScalar α] {b : Block α} {c : Controller α} {l : ArcPlane} {g : GCode}
    {code : Number}

theorem center_move (hl : l ∈ ArcPlane.all) {m : Machine α} (hplane : l.Describes m.plane)
    (hmode : m.isArcAbsolute = false) : center m b = .ok (l.move m.position (l.offset b)) := by
  have hne := ArcPlane.first_ne_second l hl
  rw [center_exact hmode, hplane.first, hplane.second, hplane.words, orZero_eq, orZero_eq,
    Except.ok.injEq]
  ext i
  simp only [Axes.get_set, ArcPlane.move, ArcPlane.offset, Axes.get_ofFn]
  by_cases hfirst : i = l.first
  · simp [hfirst, hne]
  · by_cases hsecond : i = l.second
    · simp [hsecond, hne.symm]
    · simp [hfirst, hsecond]

/-- What the arc of a block is drawn as: from the place before it to the place after it, about a
centre that is off the start by the block's words. -/
structure Drawn (l : ArcPlane) (b : Block α) (m m' : Machine α) (s : Segment α) : Prop where
  plane : s.plane = some l.name
  start : s.start = m.position.point
  stop : s.stop = m'.position.point
  center : s.center = some (l.move m.position (l.offset b)).point
  radius : s.radius = some (halved (reach (l.offset b).1 (l.offset b).2 +
    reach (m'.position.get l.first - (l.move m.position (l.offset b)).get l.first)
      (m'.position.get l.second - (l.move m.position (l.offset b)).get l.second)))
  startAngle : s.startAngle = some (wrapped (angle (-(l.offset b).2) (-(l.offset b).1)))

theorem arc_drawn {kind : MoveKind} {n : Int} (hl : l ∈ ArcPlane.all)
    (hplane : l.Describes c.machine.plane) (hmode : c.machine.isArcAbsolute = false)
    (haxes : b.hasAxes = true) (h : (arc kind n b c).outcome = .ok true) :
    ∃ s, (arc kind n b c).controller.path.segments = c.path.segments ++ [s] ∧
      Drawn l b c.machine (arc kind n b c).controller.machine s := by
  obtain ⟨f, p, q, hp, hq, hpath, hmachine⟩ := arc_true haxes h
  rw [center_move hl hplane hmode, Except.ok.injEq] at hq
  subst hq
  obtain ⟨shape, len, hshape, hsegments⟩ := Toolpath.addArc_eq hpath
  rw [hplane.name] at hshape hsegments
  simp only [ArcShape.ofPoints_exact, ArcPlane.planeCoordinates_eq hl, Except.ok.injEq] at hshape
  -- seen from the centre, the start is off by the words the other way
  have hfirst : c.machine.position.get l.first -
      (l.move c.machine.position (l.offset b)).get l.first =
      -(l.offset b).1 := by
    rw [ArcPlane.get_move_first, sub_add_cancel_left]
  have hsecond : c.machine.position.get l.second -
      (l.move c.machine.position (l.offset b)).get l.second =
      -(l.offset b).2 := by
    rw [ArcPlane.get_move_second hl, sub_add_cancel_left]
  rw [hfirst, hsecond, reach_neg] at hshape
  rw [hmachine]
  refine ⟨_, hsegments, rfl, rfl, rfl, rfl, ?_, ?_⟩
  · rw [← hshape]
    rfl
  · rw [← hshape]

theorem of_ok_true {c : Controller ℝ} {β : Type} {v : Except Fault β} {next : β → Result ℝ}
    (hv : ∃ x, v = .ok x) (h : ∀ x, (next x).outcome = .ok true) :
    (Result.of c v next).outcome = .ok true := by
  obtain ⟨x, rfl⟩ := hv
  exact h x

/-- Over the real numbers nothing but a feed is needed to make an arc. -/
theorem arc_real {b : Block ℝ} {c : Controller ℝ} {kind : MoveKind} {n : Int} {f : ℝ}
    (hf : b.param .f = some f) (hpos : 0 < f) (hmode : c.machine.isArcAbsolute = false) :
    (arc kind n b c).outcome = .ok true := by
  have hle : Scalar.holdsOfZero .le f = .ok (decide (f ≤ 0)) := rfl
  unfold arc withFeed
  rw [hf]
  simp only [hle, Result.of, decide_eq_false (not_le.mpr hpos), Bool.false_eq_true, if_false]
  split
  · apply of_ok_true ⟨_, destination_exact⟩
    intro p
    apply of_ok_true ⟨_, center_exact hmode⟩
    intro q
    exact of_ok_true (Toolpath.addArc_real _ _ _ _ _ _ _ _) fun _ => rfl
  · rfl

/-- An arc in the plane of G17, G18 or G19 is drawn in that plane: with its name, about the centre
that the two words of the plane give, with the radius and the start angle of those words. The third
word does nothing. -/
theorem execute_arc_planar (hl : l ∈ ArcPlane.all)
    (hplane : (c.machine.modes.plane == .int l.code) = true)
    (hmode : c.machine.isArcAbsolute = false) (hcode : GCode.ofNumber? code = some g)
    (hg : g.isArc = true) :
    (b.hasAxes = true → (execute code b c).1 = true →
      ∃ s, (execute code b c).2.path.segments = c.path.segments ++ [s] ∧
        Drawn l b c.machine (execute code b c).2.machine s) ∧
      ∀ w, execute code (b.setParam l.idle w) c = execute code b c := by
  have hdescribes := ArcPlane.describes_plane hl hplane
  obtain ⟨kind, n, harc⟩ : ∃ kind n, ∀ b : Block α, perform g b = arc kind n b := by
    cases g with
    | arcCw => exact ⟨.arcCw, 2, fun _ => rfl⟩
    | arcCcw => exact ⟨.arcCcw, 3, fun _ => rfl⟩
    | _ => cases hg
  constructor
  · intro haxes hok
    obtain ⟨hiff, hpath, hmachine⟩ := execute_move hcode b c
    rw [hiff, harc] at hok
    rw [hpath, hmachine, harc]
    exact arc_drawn hl hdescribes hmode haxes hok
  · intro w
    simp only [execute, hcode, harc, arc_setParam_idle hl hdescribes]
    rfl

noncomputable def tilted : Controller ℝ :=
  { Controller.initial with
    machine := { Machine.initial.setMode .plane (.int 19) with position := .fill 1 } }

noncomputable def tiltedArc : Block ℝ :=
  { (Block.empty 1 : Block ℝ) with
    axes := ((Axes.fill none).set .y (some 7)).set .z (some 9)
    params :=
      ((((Params.fill none).set .i (some 7)).set .j (some 3)).set .k (some 4)).set .f (some 1) }

theorem execute_arc_planar_tilted :
    ∃ s, (execute (.int 3) tiltedArc tilted).2.path.segments = [s] ∧ s.plane = some "YZ" ∧
      s.center = some ⟨1, 4, 5⟩ ∧ s.radius = some 5 ∧
      s.startAngle = some (Complex.arg ⟨-3, -4⟩ + 2 * Real.pi) ∧
      execute (.int 3) (tiltedArc.setParam .i none) tilted = execute (.int 3) tiltedArc tilted := by
  have hcode : GCode.ofNumber? (.int 3) = some .arcCcw := by decide
  have hyz : ArcPlane.yz ∈ ArcPlane.all := by simp [ArcPlane.all]
  have hok : (execute (.int 3) tiltedArc tilted).1 = true :=
    (execute_move hcode _ _).1.mpr (arc_real rfl one_pos (by decide))
  obtain ⟨hdrawn, hidle⟩ :=
    execute_arc_planar (b := tiltedArc) (c := tilted) hyz (by decide) (by decide) hcode rfl
  obtain ⟨s, hs, h⟩ := hdrawn rfl hok
  have hlands := (execute_goes (by decide) rfl hok).lands
  have hy : (execute (.int 3) tiltedArc tilted).2.machine.position.get .y - (1 + 3) = 3 := by
    rw [hlands.absolute (by decide) .y 7 rfl]
    change (7 : ℝ) + 0 + 0 - (1 + 3) = 3
    norm_num
  have hz : (execute (.int 3) tiltedArc tilted).2.machine.position.get .z - (1 + 4) = 4 := by
    rw [hlands.absolute (by decide) .z 9 rfl]
    change (9 : ℝ) + 0 + 0 - (1 + 4) = 4
    norm_num
  have hreach : PlaneScalar.reach (3 : ℝ) 4 = 5 := by
    change √(3 * 3 + 4 * 4) = 5
    rw [show (3 * 3 + 4 * 4 : ℝ) = 5 ^ 2 by norm_num, Real.sqrt_sq (by norm_num)]
  have hneg : Complex.arg ⟨-3, -4⟩ < 0 := Complex.arg_neg_iff.mpr (by norm_num)
  refine ⟨s, hs, h.plane, ?_, ?_, ?_, hidle none⟩
  · rw [h.center]
    change some (⟨1, 1 + 3, 1 + 4⟩ : Point ℝ) = _
    norm_num
  · have hradius : s.radius = some ((PlaneScalar.reach (3 : ℝ) 4 + PlaneScalar.reach
        ((execute (.int 3) tiltedArc tilted).2.machine.position.get .y - (1 + 3))
        ((execute (.int 3) tiltedArc tilted).2.machine.position.get .z - (1 + 4))) /
          (1 + 1)) := h.radius
    rw [hradius, hy, hz, hreach]
    norm_num
  · rw [h.startAngle]
    exact congrArg some (if_pos (decide_eq_true hneg))

end Motion
end Machining
