import Machining.Proofs.Program
import Machining.Proofs.Run
import Machining.Proofs.SignedZero

namespace Machining

deriving instance DecidableEq for Number

namespace Number
variable {v w : Number}

/-- The binary64 value; zero stands for numbers that are none. -/
def real : Number → Float
  | float x => x
  | _ => 0.0

theorem IsFloat.eq (h : v.IsFloat) : v = .float v.real := by
  obtain ⟨x, rfl⟩ := h
  rfl

theorem isFloat_float (x : Float) : (Number.float x).IsFloat := ⟨x, rfl⟩

theorem isFloat_zero : (0 : Number).IsFloat := ⟨0.0, rfl⟩

theorem add_float (hv : v.IsFloat) (hw : w.IsFloat) :
    Scalar.add v w = .ok (.float (v.real + w.real)) := by
  obtain ⟨x, rfl⟩ := hv
  obtain ⟨y, rfl⟩ := hw
  rfl

theorem sub_float (hv : v.IsFloat) (hw : w.IsFloat) :
    Scalar.sub v w = .ok (.float (v.real - w.real)) := by
  obtain ⟨x, rfl⟩ := hv
  obtain ⟨y, rfl⟩ := hw
  rfl

end Number

namespace Machine

structure Regular (m : Machine Number) : Prop where
  position : ∀ i, (m.position.get i).IsFloat
  shift : ∀ i, (m.shift.get i).IsFloat
  systems : m.systems = (initial : Machine Number).systems
  system : m.modes.coordinateSystem = .int 54
  arcs : m.modes.arcDistance = .float 91.1
  plane : m.plane = .xy ∨ m.plane = .xz ∨ m.plane = .yz
  feed : m.feed.IsFloat
  speed : m.speed.IsFloat

variable {m : Machine Number}

theorem regular_initial : (initial : Machine Number).Regular where
  position i := by cases i <;> exact Number.isFloat_zero
  shift i := by cases i <;> exact Number.isFloat_zero
  systems := rfl
  system := rfl
  arcs := rfl
  plane := .inl (by decide)
  feed := Number.isFloat_zero
  speed := Number.isFloat_zero

theorem Regular.offsets (h : m.Regular) : m.offsets = .fill 0 := by
  rw [Machine.offsets, h.systems, h.system]
  rfl

def here (m : Machine Number) (i : Axis) : Float :=
  (m.position.get i).real - 0.0 - (m.shift.get i).real

def there (m : Machine Number) (i : Axis) (x : Float) : Float := x + 0.0 + (m.shift.get i).real

theorem Regular.relative (h : m.Regular) (i : Axis) : m.relative i = .ok (.float (m.here i)) := by
  have hoff : (m.offsets.get i) = .float 0.0 := by rw [h.offsets]; cases i <;> rfl
  rw [Machine.relative, hoff, Number.sub_float (h.position i) (Number.isFloat_float 0.0)]
  exact Number.sub_float (Number.isFloat_float _) (h.shift i)

theorem Regular.absolute (h : m.Regular) {p : Axes Number} (hp : ∀ i, (p.get i).IsFloat) :
    m.absolute p = .ok (.ofFn fun i => .float (m.there i (p.get i).real)) := by
  have hoff : ∀ i, m.offsets.get i = .float 0.0 := by
    intro i
    rw [h.offsets]
    cases i <;> rfl
  rw [Machine.absolute, ← Axes.compute_ok]
  congr 1
  funext i
  rw [hoff, Number.add_float (hp i) (Number.isFloat_float 0.0)]
  exact Number.add_float (Number.isFloat_float _) (h.shift i)

end Machine

namespace Motion
variable {m : Machine Number} {b : Block Number}

def aim (m : Machine Number) (b : Block Number) (i : Axis) : Float :=
  match b.axis i with
  | some v => if m.isAbsolute then v.real else m.here i + v.real
  | none => m.here i

theorem target_eq (h : m.Regular) (hb : b.Written) :
    target m b = .ok (.ofFn fun i => .float (aim m b i)) := by
  rw [target, ← Axes.compute_ok]
  congr 1
  funext i
  unfold aim
  cases hv : b.axis i with
  | none => exact h.relative i
  | some v =>
    have hf := hb.axes i v hv
    simp only
    split
    · rw [← hf.eq]
    · rw [h.relative i]
      exact Number.add_float (Number.isFloat_float _) hf

/-- Every destination of a block can be worked out. -/
theorem destination_eq (h : m.Regular) (hb : b.Written) :
    destination m b = .ok (.ofFn fun i => .float (m.there i (aim m b i))) := by
  have hp : ∀ i, ((Axes.ofFn fun i => Number.float (aim m b i)).get i).IsFloat := by
    intro i
    rw [Axes.get_ofFn]
    exact Number.isFloat_float _
  rw [destination, target_eq h hb]
  refine (h.absolute hp).trans ?_
  simp only [Axes.get_ofFn, Number.real]

theorem orZero_float {o : Option Number} (h : ∀ v, o = some v → v.IsFloat) :
    (Scalar.orZero o).IsFloat := by
  cases o with
  | none => exact Number.isFloat_zero
  | some v =>
    simp only [Scalar.orZero]
    split
    · exact Number.isFloat_zero
    · exact h v rfl

theorem centerWords_float (p : Plane) (hb : b.Written) :
    (centerWords p b).1.IsFloat ∧ (centerWords p b).2.IsFloat := by
  have h : ∀ d, (Scalar.orZero (b.param d)).IsFloat := fun d => orZero_float (hb.params d)
  unfold centerWords
  split <;> exact ⟨h _, h _⟩

/-- Every centre of an arc can be worked out. -/
theorem center_eq (h : m.Regular) (hb : b.Written) :
    center m b = .ok ((m.position.set m.plane.first
        (.float ((m.position.get m.plane.first).real + (centerWords m.plane b).1.real))).set
          m.plane.second
        (.float ((m.position.get m.plane.second).real + (centerWords m.plane b).2.real))) := by
  obtain ⟨hi, hj⟩ := centerWords_float m.plane hb
  have hmode : m.isArcAbsolute = false := by
    rw [Machine.isArcAbsolute, h.arcs]
    decide +kernel
  simp only [center, hmode, Bool.false_eq_true, ↓reduceIte]
  rw [Number.add_float (h.position _) hi]
  simp only [bind, Except.bind]
  rw [Number.add_float (h.position _) hj]
  rfl

end Motion

namespace Toolpath

/-- The running lengths are binary64 values. -/
structure Summed (t : Toolpath Number) : Prop where
  total : t.totalLength.IsFloat
  rapid : t.rapidLength.IsFloat
  feed : t.feedLength.IsFloat

theorem summed_empty : (empty : Toolpath Number).Summed :=
  ⟨Number.isFloat_zero, Number.isFloat_zero, Number.isFloat_zero⟩

/-- A segment that has a length is added: the lengths of others do not stand in the way. -/
theorem Summed.insert {t : Toolpath Number} {s : Segment Number} {len : Number} (h : t.Summed)
    (share : Share) (hm : s.measure = .ok len) (hl : len.IsFloat) :
    ∃ t', t.insert s share = (t', .ok t.nextId) ∧ t'.Summed := by
  have hid : ({ s with id := t.nextId } : Segment Number).measure = .ok len := hm
  have htravel : (Scalar.orZero (some len)).IsFloat := by
    apply Motion.orZero_float
    rintro v ⟨⟩
    exact hl
  simp only [Toolpath.insert, Toolpath.given, Toolpath.credit, Segment.measured, hid, bind,
    Except.bind, pure, Except.pure, Segment.travel, Number.add_float h.total htravel,
    Number.add_float h.rapid htravel,
    Number.add_float h.feed htravel]
  cases share with
  | rapid => exact ⟨_, rfl, ⟨_, rfl⟩, ⟨_, rfl⟩, h.feed⟩
  | feed => exact ⟨_, rfl, ⟨_, rfl⟩, h.rapid, ⟨_, rfl⟩⟩
  | neither => exact ⟨_, rfl, ⟨_, rfl⟩, h.rapid, h.feed⟩

theorem Summed.push {t : Toolpath Number} {s : Segment Number} {len : Number} (h : t.Summed)
    (share : Share) (hm : s.measure = .ok len) (hl : len.IsFloat) :
    ∃ t', t.push s share = .ok t' ∧ t'.Summed := by
  obtain ⟨t', ht', hsum⟩ := h.insert share hm hl
  refine ⟨t', ?_, hsum⟩
  rw [Toolpath.push, ht']
  rfl

end Toolpath
end Machining
