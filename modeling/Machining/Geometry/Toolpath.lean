import Machining.Geometry.Segment
import Machining.Table

namespace Machining

structure Toolpath (α : Type) where
  segments : List (Segment α)
  /-- For each line the positions of its segments. -/
  byLine : Table Int (List Nat)
  /-- The id that the next segment takes. -/
  nextId : Nat
  totalLength : α
  rapidLength : α
  feedLength : α
  deriving Repr

namespace Toolpath
variable {α : Type} [Scalar α]

def empty : Toolpath α := ⟨[], .empty, 0, 0, 0, 0⟩

def count (t : Toolpath α) : Nat := t.segments.length

/-- Which of the running lengths a segment counts in, besides the total. -/
inductive Share where
  | rapid
  | feed
  | neither
  deriving DecidableEq, Repr

/-- Go on from a path with a value; without one the path stays as it is. -/
def given {β γ : Type} (t : Toolpath α) (v : Except Fault β)
    (next : β → Toolpath α × Except Fault γ) : Toolpath α × Except Fault γ :=
  match v with
  | .ok x => next x
  | .error f => (t, .error f)

/-- Count a length in the total, then in its share. -/
def credit (t : Toolpath α) (share : Share) (length : α) : Toolpath α × Except Fault Unit :=
  t.given (Scalar.add t.totalLength length) fun totalLength =>
    let t := { t with totalLength }
    match share with
    | .rapid => t.given (Scalar.add t.rapidLength length) fun rapidLength =>
      ({ t with rapidLength }, .ok ())
    | .feed => t.given (Scalar.add t.feedLength length) fun feedLength =>
      ({ t with feedLength }, .ok ())
    | .neither => (t, .ok ())

/-- Append a segment, then list its id for its line; only then is the next id due. -/
def file (t : Toolpath α) (s : Segment α) : Toolpath α :=
  let t := { t with segments := t.segments ++ [s] }
  let t := { t with byLine := t.byLine.put s.line ((t.byLine.get? s.line).getD [] ++ [t.nextId]) }
  { t with nextId := t.nextId + 1 }

/-- Add a segment, which takes the next free id, and give that id back. Its length is counted before
it is filed, and what was done before a fault stays done. -/
def insert (t : Toolpath α) (s : Segment α) (share : Share) : Toolpath α × Except Fault Nat :=
  t.given { s with id := t.nextId }.measured fun s =>
    match t.credit share s.travel with
    | (t, .ok ()) => (t.file s, .ok s.id)
    | (t, .error f) => (t, .error f)

/-- A straight move labelled as an arc counts in the total only. -/
def linearShare : MoveKind → Share
  | .rapid => .rapid
  | .feed => .feed
  | .arcCw | .arcCcw => .neither

def insertLinear (t : Toolpath α) (start stop : Point α) (line : Int) (kind : MoveKind)
    (feed : Option α) : Toolpath α × Except Fault Nat :=
  t.insert ⟨0, line, kind, start, stop, none, none, none, none, none, feed, none⟩ (linearShare kind)

/-- An arc; none is added if its shape leaves the range of numbers. -/
def insertArc (t : Toolpath α) (start stop center : Point α) (line : Int) (kind : MoveKind)
    (plane : String) (feed : Option α) : Toolpath α × Except Fault Nat :=
  t.given (ArcShape.ofPoints start stop center plane) fun shape =>
    t.insert ⟨0, line, kind, start, stop, some center, some shape.radius, some shape.startAngle,
      some shape.endAngle, some plane, feed, none⟩ .feed

/-- The path that a call leaves, if it succeeds. -/
def succeeded (r : Toolpath α × Except Fault Nat) : Except Fault (Toolpath α) :=
  r.2.map fun _ => r.1

def addLinear (t : Toolpath α) (start stop : Point α) (line : Int) (kind : MoveKind)
    (feed : Option α) : Except Fault (Toolpath α) :=
  succeeded (t.insertLinear start stop line kind feed)

def addArc (t : Toolpath α) (start stop center : Point α) (line : Int) (kind : MoveKind)
    (plane : String) (feed : Option α) : Except Fault (Toolpath α) :=
  succeeded (t.insertArc start stop center line kind plane feed)

def forLine (t : Toolpath α) (line : Int) : List (Segment α) :=
  ((t.byLine.get? line).getD []).filterMap (t.segments[·]?)

def ofKind (t : Toolpath α) (kind : MoveKind) : List (Segment α) :=
  t.segments.filter (·.kind = kind)

/-- Both ends of every segment. -/
def ends (t : Toolpath α) : List (Point α) := t.segments.flatMap fun s => [s.start, s.stop]

/-- A segment by position; negative positions count from the end. -/
def position? (t : Toolpath α) (i : Int) : Option Nat :=
  let i := if i < 0 then i + t.count else i
  if 0 ≤ i ∧ i < t.count then some i.toNat else none

def modify (t : Toolpath α) (i : Nat) (f : Segment α → Segment α) : Toolpath α :=
  { t with segments := t.segments.modify i f }

structure Statistics (α : Type) where
  segments : Nat
  rapids : Nat
  feeds : Nat
  arcs : Nat
  totalLength : α
  rapidLength : α
  feedLength : α
  lines : Nat
  deriving Repr

def statistics (t : Toolpath α) : Statistics α where
  segments := t.count
  rapids := (t.ofKind .rapid).length
  feeds := (t.ofKind .feed).length
  arcs := (t.ofKind .arcCw).length + (t.ofKind .arcCcw).length
  totalLength := t.totalLength
  rapidLength := t.rapidLength
  feedLength := t.feedLength
  lines := t.byLine.size

/-- The box around the ends of all segments; around none it is the whole number zero. -/
def box (t : Toolpath Number) : Except Fault (Box Number) :=
  if t.segments.isEmpty then
    .ok ⟨⟨.int 0, .int 0, .int 0⟩, ⟨.int 0, .int 0, .int 0⟩⟩
  else
    let above := Number.float Binary64.posInf
    let below := Number.float Binary64.negInf
    Box.addAll ⟨⟨above, above, above⟩, ⟨below, below, below⟩⟩ t.ends

end Toolpath
end Machining
