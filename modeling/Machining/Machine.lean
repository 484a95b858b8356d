import Machining.Axis
import Machining.Modal
import Machining.Scalar
import Machining.Table

namespace Machining

/-- The planes that arcs lie in. -/
inductive Plane where
  | xy | xz | yz | uv | uw | vw
  deriving DecidableEq, Repr

namespace Plane

def first : Plane → Axis
  | xy | xz => .x
  | yz => .y
  | uv | uw => .u
  | vw => .v

def second : Plane → Axis
  | xy => .y
  | xz | yz => .z
  | uv => .v
  | uw | vw => .w

def name (p : Plane) : String := String.ofList [p.first.letter, p.second.letter]

def codes : List (Number × Plane) :=
  [(.int 17, xy), (.int 18, xz), (.int 19, yz), (.float 17.1, uv), (.float 18.1, uw),
    (.float 19.1, vw)]

/-- A code that selects no plane stands for XY. -/
def ofCode (code : Number) : Plane := ((codes.find? fun e => e.1 == code).map (·.2)).getD xy

end Plane

structure Machine (α : Type) where
  position : Axes α
  previous : Axes α
  modes : Modes
  /-- Offsets of the coordinate systems by the code that selects them. -/
  systems : Table Number (Axes α)
  /-- The offset that applies in every coordinate system. -/
  shift : Axes α
  feed : α
  speed : α
  tool : Number
  named : Table String α
  numbered : Table Int α
  deriving Repr

namespace Machine
variable {α : Type} [Scalar α]

def initial : Machine α where
  position := .fill 0
  previous := .fill 0
  modes := .initial
  systems := ⟨ModalGroup.coordinateSystem.codes.map (·, .fill 0)⟩
  shift := .fill 0
  feed := 0
  speed := 0
  tool := .int 0
  named := .empty
  numbered := .empty

def setMode (m : Machine α) (group : ModalGroup) (code : Number) : Machine α :=
  { m with modes := m.modes.set group code }

/-- The offsets in force; a code without a coordinate system means the first one. -/
def offsets (m : Machine α) : Axes α :=
  (m.systems.get? m.modes.coordinateSystem).getD ((m.systems.get? (.int 54)).getD (.fill 0))

def plane (m : Machine α) : Plane := .ofCode m.modes.plane

def isAbsolute (m : Machine α) : Bool := m.modes.distance == .int 90

def isArcAbsolute (m : Machine α) : Bool := m.modes.arcDistance == .float 90.1

def isPerMinute (m : Machine α) : Bool := m.modes.feedMode == .int 94

/-- Machine coordinates of a point given in the active coordinate system. -/
def absolute (m : Machine α) (p : Axes α) : Except Fault (Axes α) :=
  Axes.compute fun i => do Scalar.add (← Scalar.add (p.get i) (m.offsets.get i)) (m.shift.get i)

/-- Where the tool is on an axis of the active coordinate system. -/
def relative (m : Machine α) (i : Axis) : Except Fault α := do
  Scalar.sub (← Scalar.sub (m.position.get i) (m.offsets.get i)) (m.shift.get i)

def moveTo (m : Machine α) (p : Axes α) : Machine α :=
  { m with previous := m.position, position := p }

def setOffset (m : Machine α) (system : Number) (i : Axis) (v : α) : Machine α :=
  { m with systems := m.systems.modify system fun o => o.set i v }

def setShift (m : Machine α) (i : Axis) (v : α) : Machine α := { m with shift := m.shift.set i v }

def clearShift (m : Machine α) : Machine α := { m with shift := .fill 0 }

end Machine
end Machining
