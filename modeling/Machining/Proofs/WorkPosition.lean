import Mathlib.Tactic.Abel
import Machining.Proofs.Landing

namespace Machining

theorem Block.hasAxes_of_axis {α : Type} {b : Block α} {i : Axis} {v : α} (h : b.axis i = some v) :
    b.hasAxes = true :=
  List.any_eq_true.mpr ⟨i, Axis.mem_all i, by rw [h]; rfl⟩

namespace Motion
variable {α : Type} [ExactScalar α] {b : Block α} {c d : Controller α} {code : Number}

/-- Each axis that a block names reads the block's word less `off`, and a move to that word,
after G90, takes the axis `off` further. The tool stays where it is and the other axes keep their
shift. -/
structure SetsPosition (off : Axes α) (b : Block α) (c d : Controller α) : Prop where
  position : d.machine.position = c.machine.position
  reads : ∀ i v, b.axis i = some v → d.machine.relative i = .ok (v - off.get i)
  follows : ∀ i v, b.axis i = some v → ∀ (n k : Number) (mode move : Block α),
    GCode.ofNumber? n = some .absolute →
    k.makesMove = true → move.axis i = some v → (execute k move (execute n mode d).2).1 = true →
    (execute k move (execute n mode d).2).2.machine.position.get i =
      d.machine.position.get i + off.get i
  unnamed : ∀ i, b.axis i = none → d.machine.shift.get i = c.machine.shift.get i

/-- What is off on the named axes alone counts. -/
theorem SetsPosition.congr {off off' : Axes α} (h : SetsPosition off b c d)
    (hoff : ∀ i v, b.axis i = some v → off'.get i = off.get i) : SetsPosition off' b c d := by
  refine ⟨h.position, fun i v hv => ?_, fun i v hv n k mode move hn hk hmove hok => ?_, h.unnamed⟩
  · rw [hoff i v hv]
    exact h.reads i v hv
  · rw [hoff i v hv]
    exact h.follows i v hv n k mode move hn hk hmove hok

/-- The shift that a block asks for: on each named axis, from its word to the tool. -/
def newShift (b : Block α) (m : Machine α) : Axes α :=
  .ofFn fun i => ((b.axis i).map (m.position.get i - ·)).getD (m.shift.get i)

theorem newShift_some {m : Machine α} {i : Axis} {v : α} (h : b.axis i = some v) :
    (newShift b m).get i = m.position.get i - v := by
  simp [newShift, h]

theorem newShift_none {m : Machine α} {i : Axis} (h : b.axis i = none) :
    (newShift b m).get i = m.shift.get i := by
  simp [newShift, h]

/-- In exact arithmetic nothing keeps coordinates from being shifted. -/
theorem execute_shift (hcode : GCode.ofNumber? code = some .shift) (haxes : b.hasAxes = true)
    (c : Controller α) : execute code b c = (true, shifted c (newShift b c.machine)) := by
  have hdifference : ∀ i v, b.axis i = some v →
      Scalar.sub (c.machine.position.get i) v =
        .ok (c.machine.position.get i - (b.axis i).getD 0) := by
    intro i v hv
    rw [hv]
    rfl
  have hshift : shift b c = done (shifted c (newShift b c.machine)) := by
    rw [shift, if_pos haxes, shiftAxes_eq b Axis.all c hdifference]
    refine congrArg (fun s => done (shifted c s)) ?_
    ext i
    cases hv : b.axis i with
    | none => simp [newShift, hv]
    | some v => simp [newShift, hv, Axis.mem_all]
  simp only [execute, hcode, perform, hshift, done]

theorem execute_absolute {n : Number} (hn : GCode.ofNumber? n = some .absolute) (mode : Block α)
    (c : Controller α) : execute n mode c = (true, c.setMode .distance (.int 90)) := by
  simp only [execute, hn, perform, done]

/-- The new shift leaves the offsets of the active coordinate system out of account. -/
theorem shifted_setsPosition (b : Block α) (c : Controller α) :
    SetsPosition c.machine.offsets b c (shifted c (newShift b c.machine)) := by
  refine ⟨rfl, fun i v hv => ?_, fun i v hv n k mode move hn hk hmove hok => ?_,
    fun i hi => newShift_none hi⟩
  · rw [Machine.relative_exact, Except.ok.injEq]
    change c.machine.position.get i - c.machine.offsets.get i - (newShift b c.machine).get i = _
    rw [newShift_some hv]
    abel
  · rw [execute_absolute hn] at hok ⊢
    have hlands := (execute_goes hk (Block.hasAxes_of_axis hmove) hok).lands
    rw [hlands.absolute rfl i v hmove]
    change v + c.machine.offsets.get i + (newShift b c.machine).get i = c.machine.position.get i + _
    rw [newShift_some hv]
    abel

/-- Setting the work position always succeeds, and leaves each named axis off by what the active
coordinate system is offset there. So the axes read their words if and only if none of those named
has an offset. -/
theorem execute_setsPosition_iff (hcode : GCode.ofNumber? code = some .shift)
    (haxes : b.hasAxes = true) :
    (execute code b c).1 = true ∧ SetsPosition c.machine.offsets b c (execute code b c).2 ∧
      (SetsPosition (.fill 0) b c (execute code b c).2 ↔
        ∀ i v, b.axis i = some v → c.machine.offsets.get i = 0) := by
  have hzero (i : Axis) : (Axes.fill (0 : α)).get i = 0 := Axes.get_ofFn _ i
  have hsets := shifted_setsPosition b c
  rw [execute_shift hcode haxes]
  refine ⟨rfl, hsets, fun h i v hv => ?_, fun h => ?_⟩
  · have hreads := (hsets.reads i v hv).symm.trans (h.reads i v hv)
    rw [hzero, Except.ok.injEq, sub_right_inj] at hreads
    exact hreads
  · exact hsets.congr fun i v hv => by rw [hzero, h i v hv]

/-- One off the origin, in a coordinate system one off as well, X3 makes the axis read 2. Without an
offset it reads 3. -/
theorem execute_setsPosition_iff_offCentre :
    (execute (.int 92) (alongX 3) (offCentre (.int 90))).2.machine.relative .x = .ok 2 ∧
    ¬ SetsPosition (.fill 0) (alongX 3) (offCentre (.int 90))
      (execute (.int 92) (alongX 3) (offCentre (.int 90))).2 ∧
    SetsPosition (.fill 0) (alongX 3) .initial (execute (.int 92) (alongX 3) .initial).2 := by
  have hcode : GCode.ofNumber? (.int 92) = some .shift := by decide
  have hx : (alongX 3).axis .x = some 3 := rfl
  have hone : (offCentre (.int 90)).machine.offsets.get .x = 1 := rfl
  obtain ⟨-, hsets, hiff⟩ :=
    execute_setsPosition_iff (c := offCentre (.int 90)) hcode (Block.hasAxes_of_axis hx)
  refine ⟨?_, fun h => ?_, ?_⟩
  · rw [hsets.reads .x 3 hx, hone]
    norm_num
  · have hnone := hiff.mp h .x 3 hx
    rw [hone] at hnone
    exact one_ne_zero hnone
  · refine (execute_setsPosition_iff hcode (Block.hasAxes_of_axis hx)).2.2.mpr fun i v _ => ?_
    have hfill : (Controller.initial : Controller ℝ).machine.offsets = .fill 0 := rfl
    rw [hfill]
    exact Axes.get_ofFn _ i

end Motion
end Machining
