import Machining.Number
import Machining.Table
import Machining.Token

namespace Machining

/-- One value for each parameter letter. -/
structure Params (α : Type) where
  i : α
  j : α
  k : α
  l : α
  p : α
  q : α
  r : α
  h : α
  f : α
  s : α
  deriving DecidableEq, Repr

namespace Params
variable {α : Type}

def get (ps : Params α) : Param → α
  | .i => ps.i | .j => ps.j | .k => ps.k | .l => ps.l | .p => ps.p
  | .q => ps.q | .r => ps.r | .h => ps.h | .f => ps.f | .s => ps.s

def ofFn (v : Param → α) : Params α :=
  ⟨v .i, v .j, v .k, v .l, v .p, v .q, v .r, v .h, v .f, v .s⟩

@[simp] theorem get_ofFn (v : Param → α) (d : Param) : (ofFn v).get d = v d := by cases d <;> rfl

def fill (v : α) : Params α := ofFn fun _ => v

def set (ps : Params α) (d : Param) (v : α) : Params α :=
  ofFn fun e => if e = d then v else ps.get e

@[simp] theorem get_set (ps : Params α) (d e : Param) (v : α) :
    (ps.set d v).get e = if e = d then v else ps.get e := by simp [set]

end Params

/-- Codes are kept in the order they were first named. A code may be spelled in two ways, as with
the zeros of either sign: the first spelling is the key, the last one the value. -/
structure Block (α : Type) where
  line : Int
  g : Table Number Number
  m : Table Number Number
  oWord : Option String
  axes : Axes (Option α)
  params : Params (Option α)
  tool : Option Number
  label : Option Number
  comment : Option String
  message : Option String
  debug : Option String
  script : Option String
  tokens : List Token
  deriving Repr

namespace Block
variable {α : Type}

def empty (line : Int) : Block α where
  line
  g := .empty
  m := .empty
  oWord := none
  axes := .fill none
  params := .fill none
  tool := none
  label := none
  comment := none
  message := none
  debug := none
  script := none
  tokens := []

def axis (b : Block α) (i : Axis) : Option α := b.axes.get i

def param (b : Block α) (d : Param) : Option α := b.params.get d

/-- The codes that move the tool. -/
def motionCodes : List Number :=
  [0, 1, 2, 3, 5, 33, 38, 73, 76, 80, 81, 82, 83, 84, 85, 86, 87, 88, 89].map .int

def hasMotion (b : Block α) : Bool := b.g.keys.any motionCodes.contains

def hasAxes (b : Block α) : Bool := Axis.all.any fun i => (b.axis i).isSome

def axisWords (b : Block α) : List (Axis × α) :=
  Axis.all.filterMap fun i => (b.axis i).map (i, ·)

end Block
end Machining
