import Machining.Block
import Machining.Diagnostic
import Machining.Geometry.Toolpath
import Machining.Machine

namespace Machining

/-- A machine with the toolpath it leaves and the reports about it. -/
structure Controller (α : Type) where
  machine : Machine α
  path : Toolpath α
  reports : List Diagnostic
  deriving Repr

namespace Controller
variable {α : Type} [Scalar α]

def initial : Controller α := ⟨.initial, .empty, []⟩

def report (c : Controller α) (d : Diagnostic) : Controller α :=
  { c with reports := c.reports ++ [d] }

def setMode (c : Controller α) (group : ModalGroup) (code : Number) : Controller α :=
  { c with machine := c.machine.setMode group code }

end Controller

/-- The supported G-codes. -/
inductive GCode where
  | rapid | linear | arcCw | arcCcw | dwell | offsetData | planeXY | planeXZ | planeYZ | inches
  | millimeters | home | absolute | incremental | shift
  deriving DecidableEq, Repr

namespace GCode

def all : List GCode :=
  [rapid, linear, arcCw, arcCcw, dwell, offsetData, planeXY, planeXZ, planeYZ, inches, millimeters,
    home, absolute, incremental, shift]

def number : GCode → Int
  | rapid => 0
  | linear => 1
  | arcCw => 2
  | arcCcw => 3
  | dwell => 4
  | offsetData => 10
  | planeXY => 17
  | planeXZ => 18
  | planeYZ => 19
  | inches => 20
  | millimeters => 21
  | home => 28
  | absolute => 90
  | incremental => 91
  | shift => 92

def ofNumber? (n : Number) : Option GCode := all.find? fun g => Number.int g.number == n

end GCode

namespace Motion
variable {α : Type} [Scalar α]

/-- What carrying out a code comes to: done or refused, or a fault on the way. The controller keeps
what happened before. -/
structure Result (α : Type) where
  controller : Controller α
  outcome : Except Fault Bool

def done (c : Controller α) : Result α := ⟨c, .ok true⟩

/-- Refuse a code with a report on the block's line. -/
def refuse (c : Controller α) (b : Block α) (message : String) : Result α :=
  ⟨c.report (.onLine b.line .semantic message), .ok false⟩

/-- Go on with a value, or end with the fault that it has in its place. -/
def Result.of {β : Type} (c : Controller α) (v : Except Fault β) (next : β → Result α) : Result α :=
  match v with
  | .ok v => next v
  | .error f => ⟨c, .error f⟩

/-- Where the block's axis words lead, in the active coordinate system. Axes without a word stay. -/
def target (m : Machine α) (b : Block α) : Except Fault (Axes α) :=
  Axes.compute fun i =>
    match b.axis i with
    | some v => if m.isAbsolute then .ok v else do Scalar.add (← m.relative i) v
    | none => m.relative i

/-- Where the block's axis words lead, in machine coordinates. -/
def destination (m : Machine α) (b : Block α) : Except Fault (Axes α) := do
  m.absolute (← target m b)

/-- A straight move to a place in machine coordinates. -/
def travel (c : Controller α) (line : Int) (p : Axes α) (kind : MoveKind)
    (feed : Option α) : Result α :=
  .of c (c.path.addLinear c.machine.position.point p.point line kind feed) fun path =>
    done { c with path, machine := c.machine.moveTo p }

def rapid (b : Block α) (c : Controller α) : Result α :=
  let c := c.setMode .motion (.int 0)
  if b.hasAxes then
    .of c (destination c.machine b) fun p => travel c b.line p .rapid none
  else done c

/-- Take the block's feed rate, or see that there is one; then go on. -/
def withFeed (code : Int) (b : Block α) (c : Controller α)
    (next : Controller α → Result α) : Result α :=
  match b.param .f with
  | some f =>
    .of c (Scalar.holdsOfZero .le f) fun nonpositive =>
      if nonpositive then refuse c b s!"Feed rate must be positive for G{code}"
      else next { c with machine := { c.machine with feed := f } }
  | none =>
    .of c (Scalar.holdsOfZero .le c.machine.feed) fun nonpositive =>
      if nonpositive then refuse c b s!"No feed rate specified for G{code} move" else next c

def linear (b : Block α) (c : Controller α) : Result α :=
  withFeed 1 b (c.setMode .motion (.int 1)) fun c =>
    if b.hasAxes then
      .of c (destination c.machine b) fun p => travel c b.line p .feed (some c.machine.feed)
    else done c

/-- The words that place the centre of an arc in a plane. -/
def centerWords (p : Plane) (b : Block α) : α × α :=
  match p with
  | .xz => (Scalar.orZero (b.param .i), Scalar.orZero (b.param .k))
  | .yz => (Scalar.orZero (b.param .j), Scalar.orZero (b.param .k))
  | _ => (Scalar.orZero (b.param .i), Scalar.orZero (b.param .j))

/-- The centre of an arc: from the tool, or from the origin in the absolute arc mode. -/
def center (m : Machine α) (b : Block α) : Except Fault (Axes α) :=
  let p := m.plane
  let (i, j) := centerWords p b
  if m.isArcAbsolute then .ok ((m.position.set p.first i).set p.second j)
  else do
    let u ← Scalar.add (m.position.get p.first) i
    let v ← Scalar.add (m.position.get p.second) j
    return (m.position.set p.first u).set p.second v

def arc (kind : MoveKind) (code : Int) (b : Block α) (c : Controller α) : Result α :=
  withFeed code b (c.setMode .motion (.int code)) fun c =>
    if b.hasAxes then
      .of c (destination c.machine b) fun p =>
      .of c (center c.machine b) fun center =>
      .of c (c.path.addArc c.machine.position.point p.point center.point b.line kind
          c.machine.plane.name (some c.machine.feed)) fun path =>
        done { c with path, machine := c.machine.moveTo p }
    else done c

def dwell (b : Block α) (c : Controller α) : Result α :=
  match b.param .p with
  | some p =>
    .of c (Scalar.holdsOfZero .lt p) fun negative =>
      if negative then refuse c b "G4 requires positive P value (seconds)" else done c
  | none => refuse c b "G4 requires positive P value (seconds)"

/-- A rapid move to the origin of the active coordinate system. -/
def home (b : Block α) (c : Controller α) : Result α :=
  .of c (c.machine.absolute (.fill 0)) fun p => travel c b.line p .rapid none

/-- Shift the coordinates of the named axes by what the tool is off the given values, one axis after
the other. -/
def shiftAxes (b : Block α) : List Axis → Controller α → Result α
  | [], c => done c
  | i :: rest, c =>
    match b.axis i with
    | none => shiftAxes b rest c
    | some v =>
      .of c (Scalar.sub (c.machine.position.get i) v) fun d =>
        shiftAxes b rest { c with machine := c.machine.setShift i d }

def shift (b : Block α) (c : Controller α) : Result α :=
  if b.hasAxes then shiftAxes b Axis.all c
  else refuse c b "G92 requires at least one axis word"

def perform (g : GCode) (b : Block α) (c : Controller α) : Result α :=
  match g with
  | .rapid => rapid b c
  | .linear => linear b c
  | .arcCw => arc .arcCw 2 b c
  | .arcCcw => arc .arcCcw 3 b c
  | .dwell => dwell b c
  | .offsetData => refuse c b "G10 not yet implemented"
  | .planeXY => done (c.setMode .plane (.int 17))
  | .planeXZ => done (c.setMode .plane (.int 18))
  | .planeYZ => done (c.setMode .plane (.int 19))
  | .inches => done (c.setMode .units (.int 20))
  | .millimeters => done (c.setMode .units (.int 21))
  | .home => home b c
  | .absolute => done (c.setMode .distance (.int 90))
  | .incremental => done (c.setMode .distance (.int 91))
  | .shift => shift b c

/-- Carry out a code: whether it succeeded, and the controller after it. -/
def execute (code : Number) (b : Block α) (c : Controller α) : Bool × Controller α :=
  match GCode.ofNumber? code with
  | none => (false, c.report (.onLine b.line .semantic s!"Unsupported G-code: G{code.text}"))
  | some g =>
    let r := perform g b c
    match r.outcome with
    | .ok ok => (ok, r.controller)
    | .error f =>
      (false, r.controller.report
        (.onLine b.line .runtime s!"Error executing G{code.text}: {f.message}"))

/-- Carry out codes until one fails. -/
def executeAll (b : Block α) : List Number → Controller α → Bool × Controller α
  | [], c => (true, c)
  | code :: rest, c =>
    match execute code b c with
    | (true, c) => executeAll b rest c
    | (false, c) => (false, c)

end Motion
end Machining
