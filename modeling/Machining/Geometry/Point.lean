import Machining.Axis
import Machining.Scalar

namespace Machining

structure Point (α : Type) where
  x : α
  y : α
  z : α
  deriving DecidableEq, Repr

namespace Point
variable {α : Type}

def toList (p : Point α) : List α := [p.x, p.y, p.z]

/-- The first three of a list of coordinates. -/
def ofList? : List α → Option (Point α)
  | x :: y :: z :: _ => some ⟨x, y, z⟩
  | _ => none

/-- Combine two points coordinate by coordinate. -/
def combine (p : Point α) (f : α → α → Except Fault α) (q : Point α) : Except Fault (Point α) := do
  return ⟨← f p.x q.x, ← f p.y q.y, ← f p.z q.z⟩

def distance [Scalar α] (p q : Point α) : Except Fault α := do
  let d ← p.combine Scalar.sub q
  let x ← Scalar.mul d.x d.x
  let y ← Scalar.mul d.y d.y
  let z ← Scalar.mul d.z d.z
  Scalar.sqrt (← Scalar.add (← Scalar.add x y) z)

end Point

/-- The linear axes of a position. -/
def Axes.point {α : Type} (p : Axes α) : Point α := ⟨p.x, p.y, p.z⟩

/-- The smallest box around points, by its two extreme corners. -/
structure Box (α : Type) where
  low : Point α
  high : Point α
  deriving DecidableEq, Repr

namespace Box
variable {α : Type} [Scalar α]

def ofEnds (p q : Point α) : Except Fault (Box α) := do
  return ⟨← p.combine Scalar.least q, ← p.combine Scalar.greatest q⟩

/-- The box grown to hold a point. -/
def add (b : Box α) (p : Point α) : Except Fault (Box α) := do
  return ⟨← b.low.combine Scalar.least p, ← b.high.combine Scalar.greatest p⟩

/-- The box grown to hold points, one after the other. -/
def addAll (b : Box α) : List (Point α) → Except Fault (Box α)
  | [] => .ok b
  | p :: ps => do addAll (← b.add p) ps

def size (b : Box α) : Except Fault (Point α) := b.high.combine Scalar.sub b.low

end Box
end Machining
