import Machining.Proofs.BlockStep
import Machining.Proofs.Continuity

namespace Machining

def Scope.shown : Scope where
  axes i := i ∈ [Axis.x, .y, .z]
  groups _ := False
  trail := False
  settings := True
  x := by decide
  y := by decide
  z := by decide
  whole h := h.elim

theorem Axis.forall_linear {P : Axis → Prop} (x : P .x) (y : P .y) (z : P .z) :
    ∀ i ∈ [Axis.x, .y, .z], P i := by
  simpa using ⟨x, y, z⟩

namespace Machine
variable {m : Machine Number}

/-- A machine like a new one, save for the distance mode. -/
structure Unused (m : Machine Number) : Prop where
  position : m.position.point = ⟨0, 0, 0⟩
  shift : ∀ i ∈ [Axis.x, .y, .z], m.shift.get i = .float 0.0 ∨ m.shift.get i = .float (-0.0)
  plane : m.plane = .xy
  feed : m.feed = 0
  idle : m.Idle

/-- A machine that no text can tell from a new one. -/
structure LooksNew (m : Machine Number) : Prop extends m.Unused where
  absolute : m.isAbsolute = true

theorem Unused.coordinate (h : m.Unused) :
    ∀ i ∈ [Axis.x, .y, .z], m.position.get i = .float 0.0 := by
  have hp := h.position
  simp only [Axes.point, Point.mk.injEq] at hp
  obtain ⟨hx, hy, hz⟩ := hp
  exact Axis.forall_linear hx hy hz

theorem initial_unshifted (i : Axis) : (initial : Machine Number).Unshifted i := by
  cases i <;> exact ⟨.inl rfl, by decide⟩

instance (m : Machine Number) : Decidable m.Idle :=
  inferInstanceAs (Decidable (m.speed.holds .le (.int 0) = .ok true))

theorem initial_idle : (initial : Machine Number).Idle := by decide +kernel

/-- An unused machine is in lockstep with a new one in the same distance mode. -/
theorem Unused.agree (h : m.Unused) (hm : m.Regular) {code : Number}
    (habs : m.isAbsolute = (code == .int 90)) :
    m.Agree .shown (initial.setMode .distance code) where
  left := hm
  right := regular_initial.setMode (by decide) (by decide) (by simp)
  position i hi := by
    rw [h.coordinate i hi]
    cases i <;> rfl
  shift i hi := by
    refine .inr ⟨not_false, ⟨?_, ?_⟩, ⟨(initial_unshifted i).zero, (initial_unshifted i).position⟩⟩
    · rcases h.shift i hi with hs | hs
      · exact .inl (by rw [hs]; rfl)
      · exact .inr (by rw [hs]; rfl)
    · rw [h.coordinate i hi]
      decide
  groups _ hg := hg.elim
  plane := h.plane
  absolute := habs
  trail ht := ht.elim
  feed _ := h.feed
  speed _ := .inr ⟨h.idle, initial_idle⟩

end Machine

structure Station.Usual (s : Station) : Prop where
  bare : s.Bare
  regular : s.machine.Regular
  feed : s.machine.feed = 0 ∨ Scalar.holdsOfZero .le s.machine.feed = .ok false

namespace Interpreter

inductive Request where
  | process (text : String)
  | validate (text : String)
  | reset

def after (t : Interpreter) : Request → Interpreter
  | .process text => (t.process text).1
  | .validate text => (t.validate text).1
  | .reset => t.reset

def afterAll (t : Interpreter) (requests : List Request) : Interpreter := requests.foldl after t

/-- Two ways to process a text that end alike, as far as it shows: in verdict, segments, reports and
statistics. -/
structure SameOutcome (p q : Interpreter × Except Fault Bool) : Prop where
  verdict : p.2 = q.2
  segments : p.1.path.segments = q.1.path.segments
  reports : p.1.reports = q.1.reports
  statistics : p.1.statistics = q.1.statistics

variable {t u : Interpreter} {text : String} {bs : List (Block Number)}

/-- A block leaves a usual station as one. -/
theorem carry_usual {s : Station} {b : Block Number} (h : s.Usual) (hb : b.Written) :
    (carry s b).Usual := by
  have hself : s.Agree .shown s :=
    ⟨⟨h.regular.agree _, Toolpath.agree_refl _ _, rfl⟩, h.bare, h.bare⟩
  have hstep := carry_settings hself trivial hb
  refine ⟨hstep.left, hstep.control.machine.left, ?_⟩
  have hkeeps := runCodes_keeps (b := b)
    (P := fun u => u.Bare ∧ (u.machine.feed = 0 ∨
      Scalar.holdsOfZero .le u.machine.feed = .ok false))
    ?_ ?_ (s := { s with printed := s.printed ++ announcements b }) ⟨h.bare, h.feed⟩
  · exact hkeeps.2
  · rintro code u ⟨hu, hf⟩
    refine ⟨(Auxiliary.execute_bare hu code b).rests.actions.trans hu, ?_⟩
    rw [execute_feed hu]
    exact hf
  · rintro code u ⟨hu, hf⟩
    refine ⟨hu, ?_⟩
    rcases (Motion.execute_effect code b u.control).fed.feed with heq | ⟨f, _, hle, heq⟩
    · simp only at heq
      simp only [Station.machine, heq]
      exact hf
    · simp only at heq
      simp only [Station.machine, heq]
      exact .inr hle

theorem foldl_carry_usual {s : Station} (h : s.Usual) (hb : ∀ b ∈ bs, b.Written) :
    (bs.foldl carry s).Usual := by
  induction bs generalizing s with
  | nil => exact h
  | cons b bs ih =>
    exact ih (carry_usual h (hb b List.mem_cons_self)) fun b' hb' =>
      hb b' (List.mem_cons_of_mem b hb')

/-- No request gives a station an action, an offset or a feed that is none. -/
theorem after_usual (h : t.station.Usual) (r : Request) : (t.after r).station.Usual := by
  cases r with
  | process text =>
    simp only [after]
    cases hbs : (Block.ofTokens (Token.scan text).1).blocks? with
    | none =>
      rw [process_eq_perform, hbs]
      exact ⟨h.bare, h.regular, h.feed⟩
    | some bs =>
      rw [process_eq hbs h.bare]
      exact foldl_carry_usual ⟨h.bare, h.regular, h.feed⟩ (Block.ofText_listed hbs).written
  | validate text =>
    simp only [after, validate]
    split
    · exact h
    · exact ⟨h.bare, h.regular, h.feed⟩
  | reset => exact ⟨h.bare, h.regular, h.feed⟩

theorem afterAll_usual (h : t.station.Usual) (rs : List Request) :
    (t.afterAll rs).station.Usual := by
  induction rs generalizing t with
  | nil => exact h
  | cons r rs ih => exact ih (after_usual h r)

theorem initial_usual : initial.station.Usual := ⟨rfl, Machine.regular_initial, .inl rfl⟩

/-- Machines in lockstep end a text alike. -/
theorem process_same (hbs : (Block.ofTokens (Token.scan text).1).blocks? = some bs)
    (ht : t.station.Bare) (hu : u.station.Bare)
    (h : t.station.machine.Agree .shown u.station.machine) :
    SameOutcome (t.process text) (u.process text) := by
  have hopen : (openedStation text bs t.station).Agree .shown (openedStation text bs u.station) :=
    ⟨⟨h, Toolpath.agree_refl _ _, rfl⟩, ht, hu⟩
  have hend := foldl_carry_settings hopen trivial (Block.ofText_listed hbs).written
  have hsegments := hend.control.path.feeds trivial
  have hpath := hend.control.path.eq hsegments
  have hreports := hend.control.reports
  rw [process_eq hbs ht, process_eq hbs hu]
  refine ⟨rfl, hsegments, hreports, ?_⟩
  simp only [statistics, Interpreter.reports, Interpreter.path, blocks, machine, opened, hpath,
    hreports, Option.getD_some]

end Interpreter
end Machining
