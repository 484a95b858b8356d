import Machining.Motion
import Mathlib.Analysis.SpecialFunctions.Complex.Arg

namespace Machining

/-- Scalars that add and subtract as a group does: nothing is rounded, and there is always a result.
The other operations may be any. -/
class ExactScalar (α : Type) extends AddCommGroup α where
  mul : α → α → Except Fault α
  half : α → Except Fault α
  magnitude : α → Except Fault α
  square : α → Except Fault α
  sqrt : α → Except Fault α
  atan2 : α → α → Except Fault α
  pi : α
  turn : α
  holds : Comparison → α → α → Except Fault Bool
  isZero : α → Bool

namespace ExactScalar
variable {α : Type} [ExactScalar α]

instance : Scalar α where
  add a b := .ok (a + b)
  sub a b := .ok (a - b)
  mul := mul
  half := half
  magnitude := magnitude
  square := square
  sqrt := sqrt
  atan2 := atan2
  pi := pi
  turn := turn
  holds := holds
  holdsOfZero op a := holds op a 0
  isZero := isZero

@[simp] theorem add_eq (a b : α) : Scalar.add a b = .ok (a + b) := rfl

@[simp] theorem sub_eq (a b : α) : Scalar.sub a b = .ok (a - b) := rfl

open Classical in
noncomputable instance : ExactScalar ℝ where
  mul a b := .ok (a * b)
  half a := .ok (a / 2)
  magnitude a := .ok |a|
  square a := .ok (a * a)
  sqrt a := .ok √a
  atan2 y x := .ok (Complex.arg ⟨x, y⟩)
  pi := Real.pi
  turn := 2 * Real.pi
  holds
    | .eq, a, b => .ok (a = b)
    | .ne, a, b => .ok (a ≠ b)
    | .lt, a, b => .ok (a < b)
    | .le, a, b => .ok (a ≤ b)
    | .gt, a, b => .ok (b < a)
    | .ge, a, b => .ok (b ≤ a)
  isZero a := a = 0

end ExactScalar

/-- The angle that an arc sweeps on its way from one direction to another; back to the same one it
is a full turn. -/
noncomputable def MoveKind.swept (kind : MoveKind) (a b : ℝ) : ℝ :=
  if a = b then 2 * Real.pi
  else if kind = .arcCw then toIcoMod Real.two_pi_pos 0 (a - b)
  else toIcoMod Real.two_pi_pos 0 (b - a)

namespace Axes
variable {α : Type} [Add α]

instance : Add (Axes α) := ⟨fun p q => ofFn fun i => p.get i + q.get i⟩

@[simp] theorem get_add (p q : Axes α) (i : Axis) :
    (p + q).get i = p.get i + q.get i := get_ofFn _ i

end Axes

variable {α : Type} [ExactScalar α]

namespace Machine
variable {m : Machine α}

theorem absolute_exact (p : Axes α) : m.absolute p = .ok (p + m.offsets + m.shift) := by
  simp only [absolute, ExactScalar.add_eq, bind, Except.bind, Axes.compute_ok, Except.ok.injEq]
  ext i
  simp

theorem relative_exact (i : Axis) :
    m.relative i = .ok (m.position.get i - m.offsets.get i - m.shift.get i) := by
  simp only [relative, ExactScalar.sub_eq, bind, Except.bind]

end Machine

namespace Motion
variable {m : Machine α} {b : Block α}

/-- Where a block leads, axis by axis: an axis that is not named stays, and a named one goes to the
place that its word names in the active coordinate system, or as far as the word says. -/
def endpoint (m : Machine α) (b : Block α) : Axes α :=
  .ofFn fun i =>
    match b.axis i with
    | some v => if m.isAbsolute then v + m.offsets.get i + m.shift.get i else m.position.get i + v
    | none => m.position.get i

theorem target_exact :
    target m b = .ok (.ofFn fun i => (endpoint m b).get i - m.offsets.get i - m.shift.get i) := by
  rw [target, ← Axes.compute_ok]
  congr 1
  funext i
  cases hb : b.axis i with
  | none => simp [endpoint, hb, Machine.relative_exact]
  | some v =>
    cases ha : m.isAbsolute with
    | true =>
      simp only [endpoint, hb, ha, if_true, Axes.get_ofFn, Except.ok.injEq]
      abel
    | false =>
      simp only [endpoint, hb, ha, Bool.false_eq_true, if_false, Axes.get_ofFn,
        Machine.relative_exact, ExactScalar.add_eq, bind, Except.bind, Except.ok.injEq]
      abel

theorem destination_exact : destination m b = .ok (endpoint m b) := by
  rw [destination, target_exact]
  change m.absolute _ = _
  rw [Machine.absolute_exact, Except.ok.injEq]
  ext i
  simp only [Axes.get_add, Axes.get_ofFn]
  abel

/-- The centre of an arc that is placed from the tool. -/
theorem center_exact (h : m.isArcAbsolute = false) :
    center m b = .ok ((m.position.set m.plane.first
        (m.position.get m.plane.first + (centerWords m.plane b).1)).set m.plane.second
        (m.position.get m.plane.second + (centerWords m.plane b).2)) := by
  simp only [center, h, Bool.false_eq_true, if_false, ExactScalar.add_eq, bind, Except.bind,
    pure, Except.pure]

end Motion
end Machining
