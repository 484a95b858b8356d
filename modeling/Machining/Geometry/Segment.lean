import Machining.Geometry.Point

namespace Machining

inductive MoveKind where
  | rapid
  | feed
  | arcCw
  | arcCcw
  deriving DecidableEq, Repr

namespace MoveKind

def all : List MoveKind := [rapid, feed, arcCw, arcCcw]

def name : MoveKind → String
  | rapid => "rapid"
  | feed => "feed"
  | arcCw => "arc_cw"
  | arcCcw => "arc_ccw"

def ofName? (s : String) : Option MoveKind := all.find? fun k => k.name = s

def isArc : MoveKind → Bool
  | arcCw | arcCcw => true
  | rapid | feed => false

/-- Anything but clockwise is counterclockwise. -/
def ofDirection (s : String) : MoveKind := if s.toUpper = "CW" then arcCw else arcCcw

end MoveKind

/-- The two coordinates of a point in a plane; names other than XZ and YZ mean XY. -/
def planeCoordinates {α : Type} (plane : String) (p : Point α) : α × α :=
  if plane.toUpper = "XZ" then (p.x, p.z)
  else if plane.toUpper = "YZ" then (p.y, p.z)
  else (p.x, p.y)

/-- Straight moves leave the fields of arcs empty. -/
structure Segment (α : Type) where
  id : Nat
  line : Int
  kind : MoveKind
  start : Point α
  stop : Point α
  center : Option (Point α)
  radius : Option α
  startAngle : Option α
  endAngle : Option α
  plane : Option String
  feed : Option α
  length : Option α
  deriving DecidableEq, Repr

namespace Segment
variable {α : Type} [Scalar α]

/-- The smaller of the two angles between two directions. -/
def sweep (a b : α) : Except Fault α := do
  let d ← Scalar.magnitude (← Scalar.sub b a)
  if ← Scalar.holds .gt d Scalar.pi then Scalar.sub Scalar.turn d else return d

/-- Arcs are measured by radius and angle, everything else from end to end. -/
def measure (s : Segment α) : Except Fault α :=
  if s.kind.isArc then
    match s.radius, s.startAngle, s.endAngle with
    | some r, some a, some b => do Scalar.mul r (← sweep a b)
    | _, _, _ => s.start.distance s.stop
  else s.start.distance s.stop

/-- Record the measured length. -/
def measured (s : Segment α) : Except Fault (Segment α) := do
  return { s with length := some (← s.measure) }

/-- The recorded length as it counts in sums. -/
def travel (s : Segment α) : α := Scalar.orZero s.length

/-- The box of a straight move; the extent of an arc is not computed. -/
def box? (s : Segment α) : Option (Except Fault (Box α)) :=
  if s.kind.isArc then none else some (Box.ofEnds s.start s.stop)

end Segment

/-- Radius and angles of an arc. -/
structure ArcShape (α : Type) where
  radius : α
  startAngle : α
  endAngle : α

namespace ArcShape
variable {α : Type} [Scalar α]

/-- A negative angle turns into the same direction one turn on. -/
def normalize (angle : α) : Except Fault α := do
  if ← Scalar.holdsOfZero .lt angle then Scalar.add angle Scalar.turn else return angle

/-- How far a point of the plane is from the centre. -/
def arm (p center : α × α) : Except Fault α := do
  let a ← Scalar.square (← Scalar.sub p.1 center.1)
  let b ← Scalar.square (← Scalar.sub p.2 center.2)
  Scalar.sqrt (← Scalar.add a b)

/-- The direction of a point of the plane, seen from the centre. -/
def direction (p center : α × α) : Except Fault α := do
  let y ← Scalar.sub p.2 center.2
  let x ← Scalar.sub p.1 center.1
  Scalar.atan2 y x

/-- The radius is the mean of the distances of both ends from the centre. -/
def ofPoints (start stop center : Point α) (plane : String) : Except Fault (ArcShape α) := do
  let p := planeCoordinates plane start
  let q := planeCoordinates plane stop
  let c := planeCoordinates plane center
  let r₁ ← arm p c
  let r₂ ← arm q c
  let radius ← Scalar.half (← Scalar.add r₁ r₂)
  let a ← direction p c
  let b ← direction q c
  return ⟨radius, ← normalize a, ← normalize b⟩

end ArcShape
end Machining
