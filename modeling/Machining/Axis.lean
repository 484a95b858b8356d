namespace Machining

inductive Axis where
  | x | y | z | a | b | c | u | v | w
  deriving DecidableEq, Repr

namespace Axis

def all : List Axis := [x, y, z, a, b, c, u, v, w]

theorem mem_all (i : Axis) : i ∈ all := by cases i <;> decide

def letter : Axis → Char
  | x => 'X' | y => 'Y' | z => 'Z'
  | a => 'A' | b => 'B' | c => 'C'
  | u => 'U' | v => 'V' | w => 'W'

def ofLetter? (l : Char) : Option Axis := all.find? fun i => i.letter = l

/-- Axes are named by their letter in either case. -/
def ofName? (s : String) : Option Axis :=
  match s.toList with
  | [l] => ofLetter? l.toUpper
  | _ => none

end Axis

/-- One value for each axis. -/
structure Axes (α : Type) where
  x : α
  y : α
  z : α
  a : α
  b : α
  c : α
  u : α
  v : α
  w : α
  deriving DecidableEq, Repr

namespace Axes
variable {α β : Type}

def get (p : Axes α) : Axis → α
  | .x => p.x | .y => p.y | .z => p.z
  | .a => p.a | .b => p.b | .c => p.c
  | .u => p.u | .v => p.v | .w => p.w

def ofFn (f : Axis → α) : Axes α :=
  ⟨f .x, f .y, f .z, f .a, f .b, f .c, f .u, f .v, f .w⟩

@[simp] theorem get_ofFn (f : Axis → α) (i : Axis) : (ofFn f).get i = f i := by cases i <;> rfl

@[ext] theorem ext_get {p q : Axes α} (h : ∀ i, p.get i = q.get i) : p = q := by
  have hx := h .x; have hy := h .y; have hz := h .z
  have ha := h .a; have hb := h .b; have hc := h .c
  have hu := h .u; have hv := h .v; have hw := h .w
  cases p; cases q
  simp_all [get]

def fill (v : α) : Axes α := ofFn fun _ => v

def set (p : Axes α) (i : Axis) (v : α) : Axes α :=
  ofFn fun j => if j = i then v else p.get j

@[simp] theorem get_set (p : Axes α) (i j : Axis) (v : α) :
    (p.set i v).get j = if j = i then v else p.get j := by simp [set]

def map (f : α → β) (p : Axes α) : Axes β := ofFn fun i => f (p.get i)

/-- The values that a computation gives, axis after axis; the first one that fails ends it. -/
def compute {ε : Type} (f : Axis → Except ε α) : Except ε (Axes α) := do
  return ⟨← f .x, ← f .y, ← f .z, ← f .a, ← f .b, ← f .c, ← f .u, ← f .v, ← f .w⟩

@[simp] theorem compute_ok {ε : Type} (f : Axis → α) :
    compute (fun i => (.ok (f i) : Except ε α)) = .ok (ofFn f) := rfl

def toList (p : Axes α) : List α := Axis.all.map p.get

end Axes
end Machining
