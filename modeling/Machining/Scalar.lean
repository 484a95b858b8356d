import Machining.Number

namespace Machining

/-- What the geometry asks of its numbers. The program computes with `Number`, where an operation
may have no result; statements about exact arithmetic read the same definitions over another
type. -/
class Scalar (α : Type) extends Zero α where
  add : α → α → Except Fault α
  sub : α → α → Except Fault α
  mul : α → α → Except Fault α
  half : α → Except Fault α
  magnitude : α → Except Fault α
  square : α → Except Fault α
  sqrt : α → Except Fault α
  /-- The angle of the direction `x` across and `y` up, as `atan2 y x`. -/
  atan2 : α → α → Except Fault α
  pi : α
  /-- A full turn. -/
  turn : α
  holds : Comparison → α → α → Except Fault Bool
  /-- Comparison with the whole number zero. -/
  holdsOfZero : Comparison → α → Except Fault Bool
  isZero : α → Bool

namespace Scalar
variable {α : Type} [Scalar α]

/-- A missing number, or a zero of either sign, counts as zero. -/
def orZero : Option α → α
  | none => 0
  | some v => if isZero v then 0 else v

/-- The smaller of two, the first one if they do not compare. -/
def least (a b : α) : Except Fault α := do return if ← holds .lt b a then b else a

/-- The larger of two, the first one if they do not compare. -/
def greatest (a b : α) : Except Fault α := do return if ← holds .gt b a then b else a

end Scalar

instance : Scalar Number where
  zero := .float 0.0
  add := Number.add
  sub := Number.sub
  mul := Number.mul
  half v := do return .float ((← v.toFloat) / 2.0)
  magnitude := Number.abs
  square := Number.square
  sqrt v := do return .float (← v.toFloat).sqrt
  atan2 y x := do
    let y ← y.toFloat
    let x ← x.toFloat
    return .float (Float.atan2 y x)
  pi := .float (Float.ofBits 0x400921FB54442D18)
  turn := .float (Float.ofBits 0x401921FB54442D18)
  holds := Number.holds
  holdsOfZero op v := v.holds op (.int 0)
  isZero := Number.isZero

end Machining
