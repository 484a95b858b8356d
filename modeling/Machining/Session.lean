import Machining.Interpreter

namespace Machining

structure Session where
  interpreter : Interpreter
  /-- The text given last. -/
  text : String
  succeeded : Bool

namespace Session

def initial : Session := ⟨.initial, "", false⟩

/-- A fault leaves the verdict of the program before. -/
def process (text : String) (s : Session) : Session × Except Fault Bool :=
  let (interpreter, verdict) := s.interpreter.process text
  let succeeded := match verdict with
    | .ok ok => ok
    | .error _ => s.succeeded
  (⟨interpreter, text, succeeded⟩, verdict)

def validate (text : String) (s : Session) : Session × Except Fault Bool :=
  let (interpreter, verdict) := s.interpreter.validate text
  ({ s with interpreter }, verdict)

def reset (s : Session) : Session := ⟨s.interpreter.reset, "", false⟩

/-- In program order. -/
def reports (s : Session) : List Diagnostic := Diagnostic.sorted s.interpreter.reports

def reportsFor (s : Session) (line : Int) : List Diagnostic :=
  Diagnostic.forLine s.interpreter.reports line

def hasErrors (s : Session) : Bool := Diagnostic.hasErrors s.interpreter.reports

def hasFatal (s : Session) : Bool := Diagnostic.hasFatal s.interpreter.reports

def path (s : Session) : Toolpath Number := s.interpreter.path

/-- The ids of the segments that a line made. -/
def idsFor (s : Session) (line : Int) : List Nat := (s.path.forLine line).map (·.id)

/-- The line that made a segment. -/
def lineOf? (s : Session) (id : Int) : Option Int :=
  (s.path.segments.find? fun g => g.id = id).map (·.line)

/-- Clockwise arcs, then counterclockwise ones. -/
def arcs (s : Session) : List (Segment Number) := s.path.ofKind .arcCw ++ s.path.ofKind .arcCcw

/-- A toolpath at a glance: its lengths, the box around it, and how many moves of each kind it
has. -/
structure Summary where
  totalLength : Number
  rapidLength : Number
  feedLength : Number
  segments : Nat
  box : Box Number
  size : Point Number
  rapids : Nat
  feeds : Nat
  arcs : Nat
  deriving Repr

def summary (s : Session) : Except Fault Summary := do
  let known := s.interpreter.statistics.path
  let box ← s.path.box
  return {
    totalLength := known.totalLength
    rapidLength := known.rapidLength
    feedLength := known.feedLength
    segments := known.segments
    box
    size := ← box.size
    rapids := known.rapids
    feeds := known.feeds
    arcs := known.arcs }

end Session
end Machining
