import Machining.Number

namespace Machining

inductive ModalGroup where
  | motion
  | plane
  | distance
  | arcDistance
  | feedMode
  | units
  | cutterComp
  | toolLength
  | coordinateSystem
  | pathControl
  | returnMode
  deriving DecidableEq, Repr

namespace ModalGroup

def all : List ModalGroup :=
  [motion, plane, distance, arcDistance, feedMode, units, cutterComp, toolLength, coordinateSystem,
    pathControl, returnMode]

def name : ModalGroup → String
  | motion => "motion"
  | plane => "plane"
  | distance => "distance"
  | arcDistance => "arc_distance"
  | feedMode => "feed_rate_mode"
  | units => "units"
  | cutterComp => "cutter_comp"
  | toolLength => "tool_length"
  | coordinateSystem => "coordinate_system"
  | pathControl => "path_control"
  | returnMode => "return_mode"

def ofName? (s : String) : Option ModalGroup := all.find? fun g => g.name = s

def codes : ModalGroup → List Number
  | motion => [0, 1, 2, 3, 33, 38, 73, 76, 80, 81, 82, 83, 84, 85, 86, 87, 88, 89].map .int
  | plane => [17, 18, 19].map .int
  | distance => [90, 91].map .int
  | arcDistance => [90.1, 91.1].map .float
  | feedMode => [93, 94, 95].map .int
  | units => [20, 21].map .int
  | cutterComp => [40, 41, 42].map .int
  | toolLength => [43, 49].map .int
  | coordinateSystem => [54, 55, 56, 57, 58, 59].map .int ++ [59.1, 59.2, 59.3].map .float
  | pathControl => [.int 61, .float 61.1, .int 64]
  | returnMode => [98, 99].map .int

end ModalGroup

/-- Codes that act in their block only. -/
def nonModalCodes : List Number :=
  [4, 10, 28, 30, 53, 92].map .int ++ [92.1, 92.2, 92.3].map .float

/-- The code in force in each modal group. -/
structure Modes where
  motion : Number
  plane : Number
  distance : Number
  arcDistance : Number
  feedMode : Number
  units : Number
  cutterComp : Number
  toolLength : Number
  coordinateSystem : Number
  pathControl : Number
  returnMode : Number
  deriving Repr

namespace Modes

/-- The modes a machine starts with. -/
def initial : Modes where
  motion := .int 1
  plane := .int 17
  distance := .int 90
  arcDistance := .float 91.1
  feedMode := .int 94
  units := .int 21
  cutterComp := .int 40
  toolLength := .int 49
  coordinateSystem := .int 54
  pathControl := .int 64
  returnMode := .int 98

def get (m : Modes) : ModalGroup → Number
  | .motion => m.motion
  | .plane => m.plane
  | .distance => m.distance
  | .arcDistance => m.arcDistance
  | .feedMode => m.feedMode
  | .units => m.units
  | .cutterComp => m.cutterComp
  | .toolLength => m.toolLength
  | .coordinateSystem => m.coordinateSystem
  | .pathControl => m.pathControl
  | .returnMode => m.returnMode

def set (m : Modes) (group : ModalGroup) (code : Number) : Modes :=
  match group with
  | .motion => { m with motion := code }
  | .plane => { m with plane := code }
  | .distance => { m with distance := code }
  | .arcDistance => { m with arcDistance := code }
  | .feedMode => { m with feedMode := code }
  | .units => { m with units := code }
  | .cutterComp => { m with cutterComp := code }
  | .toolLength => { m with toolLength := code }
  | .coordinateSystem => { m with coordinateSystem := code }
  | .pathControl => { m with pathControl := code }
  | .returnMode => { m with returnMode := code }

theorem get_set (m : Modes) (g h : ModalGroup) (code : Number) :
    (m.set g code).get h = if h = g then code else m.get h := by
  cases g <;> cases h <;> simp [get, set]

end Modes
end Machining
