import Machining.Proofs.Regular

namespace Machining

/-- The path is the same, and of the machine at most the motion mode and the feed have changed. -/
structure Controller.Spares {α : Type} (c d : Controller α) : Prop where
  path : d.path = c.path
  machine : ∃ motion feed, d.machine = { c.machine.setMode .motion motion with feed }

namespace Motion

section
variable {α : Type} {c d : Controller α} {r : Result α}

theorem spares_setMotion (c : Controller α) (code : Number) : c.Spares (c.setMode .motion code) :=
  ⟨rfl, code, c.machine.feed, rfl⟩

theorem spares_feeding (c : Controller α) (f : α) : c.Spares (feeding c f) :=
  ⟨rfl, c.machine.modes.motion, f, rfl⟩

theorem spares_report (c : Controller α) (e : Diagnostic) : c.Spares (c.report e) :=
  ⟨rfl, c.machine.modes.motion, c.machine.feed, rfl⟩

def Atomic (c : Controller α) (r : Result α) : Prop := r.outcome ≠ .ok true → c.Spares r.controller

theorem Atomic.of_spares (h : c.Spares d) (hr : Atomic d r) : Atomic c r := by
  intro hno
  obtain ⟨hpath, motion, feed, hmachine⟩ := hr hno
  obtain ⟨motion', feed', hmachine'⟩ := h.machine
  exact ⟨hpath.trans h.path, motion, feed, by rw [hmachine, hmachine']; rfl⟩

theorem done_atomic (c d : Controller α) : Atomic c (done d) := fun hno => absurd rfl hno

theorem refuse_atomic (c : Controller α) (b : Block α) (message : String) :
    Atomic c (refuse c b message) :=
  fun _ => spares_report c _

/-- A fault changes nothing, so only the way on matters. -/
theorem of_atomic {β : Type} {v : Except Fault β} {next : β → Result α}
    (h : ∀ x, Atomic c (next x)) : Atomic c (Result.of c v next) := by
  cases v with
  | error f => exact fun _ => ⟨rfl, c.machine.modes.motion, c.machine.feed, rfl⟩
  | ok x => exact h x

end

variable {α : Type} [Scalar α] {b : Block α} {c : Controller α}

theorem travel_atomic (c : Controller α) (line : Int) (p : Axes α) (kind : MoveKind)
    (feed : Option α) : Atomic c (travel c line p kind feed) :=
  of_atomic fun _ => done_atomic _ _

theorem withFeed_atomic {code : Int} {next : Controller α → Result α} (h : ∀ d, Atomic d (next d)) :
    Atomic c (withFeed code b c next) := by
  unfold withFeed
  split
  · apply of_atomic
    intro nonpositive
    split
    · exact refuse_atomic c b _
    · exact (h _).of_spares (spares_feeding c _)
  · apply of_atomic
    intro nonpositive
    split
    · exact refuse_atomic c b _
    · exact h c

theorem rapid_atomic (b : Block α) (c : Controller α) : Atomic c (rapid b c) := by
  apply Atomic.of_spares (spares_setMotion c (.int 0))
  unfold rapid
  split
  · exact of_atomic fun p => travel_atomic _ _ p _ _
  · exact done_atomic _ _

theorem linear_atomic (b : Block α) (c : Controller α) : Atomic c (linear b c) := by
  apply Atomic.of_spares (spares_setMotion c (.int 1))
  apply withFeed_atomic
  intro d
  split
  · exact of_atomic fun p => travel_atomic d _ p _ _
  · exact done_atomic _ _

theorem arc_atomic (kind : MoveKind) (code : Int) (b : Block α) (c : Controller α) :
    Atomic c (arc kind code b c) := by
  apply Atomic.of_spares (spares_setMotion c (.int code))
  apply withFeed_atomic
  intro d
  split
  · exact of_atomic fun p => of_atomic fun center => of_atomic fun path => done_atomic _ _
  · exact done_atomic _ _

theorem dwell_atomic (b : Block α) (c : Controller α) : Atomic c (dwell b c) := by
  unfold dwell
  split
  · apply of_atomic
    intro negative
    split
    · exact refuse_atomic c b _
    · exact done_atomic _ _
  · exact refuse_atomic c b _

/-- A fault on the way would leave some axes shifted; there is none if every difference has a
result. -/
theorem shift_atomic {d : Axis → α}
    (h : ∀ i v, b.axis i = some v → Scalar.sub (c.machine.position.get i) v = .ok (d i)) :
    Atomic c (shift b c) := by
  unfold shift
  split
  · rw [shiftAxes_eq b Axis.all c h]
    exact done_atomic _ _
  · exact refuse_atomic c b _

theorem perform_atomic {d : Axis → α} (g : GCode)
    (h : ∀ i v, b.axis i = some v → Scalar.sub (c.machine.position.get i) v = .ok (d i)) :
    Atomic c (perform g b c) := by
  cases g with
  | rapid => exact rapid_atomic b c
  | linear => exact linear_atomic b c
  | arcCw | arcCcw => exact arc_atomic _ _ b c
  | dwell => exact dwell_atomic b c
  | offsetData => exact refuse_atomic c b _
  | home => exact of_atomic fun p => travel_atomic c _ p _ _
  | shift => exact shift_atomic h
  | planeXY | planeXZ | planeYZ | inches | millimeters | absolute | incremental =>
    exact done_atomic _ _

theorem execute_spares {d : Axis → α} {code : Number}
    (h : ∀ i v, b.axis i = some v → Scalar.sub (c.machine.position.get i) v = .ok (d i))
    (hfails : (execute code b c).1 = false) : c.Spares (execute code b c).2 := by
  cases hcode : GCode.ofNumber? code with
  | none =>
    simp only [execute, hcode]
    exact spares_report c _
  | some g =>
    have hatomic := perform_atomic g h
    simp only [execute, hcode] at hfails ⊢
    cases hr : (perform g b c).outcome with
    | ok ok =>
      rw [hr] at hfails
      exact hatomic (by rw [hr]; simpa using hfails)
    | error f =>
      obtain ⟨hpath, hmachine⟩ := hatomic (by rw [hr]; simp)
      exact ⟨hpath, hmachine⟩

/-- Whether a code succeeds shows in the reports: it makes none if it does, and one if it does
not. -/
theorem execute_reports (code : Number) (b : Block α) (c : Controller α) :
    ((execute code b c).1 = false → ∃ e, (execute code b c).2.reports = c.reports ++ [e] ∧
      e.line = b.line ∧
        e.severity = .error) ∧
      ((execute code b c).1 = true → (execute code b c).2.reports = c.reports) := by
  have heffect := execute_effect code b c
  generalize execute code b c = r at heffect
  obtain ⟨ok, d⟩ := r
  cases heffect with
  | stays _ _ reports accepted =>
    refine ⟨fun hfails => ?_, fun _ => reports⟩
    cases hfails
    exact absurd rfl accepted
  | refuses _ _ e refusal reports =>
    exact ⟨fun _ => ⟨e, reports, refusal.line, refusal.severity⟩, by simp⟩
  | moves _ _ _ _ _ _ _ reports _ => exact ⟨by simp, fun _ => reports⟩

/-- A code that fails makes one report, an error on the line of its block, and leaves path and
machine as they were but for motion mode and feed. A code that succeeds makes no report. -/
theorem execute_atomic {b : Block Number} {c : Controller Number}
    (hposition : ∀ i, (c.machine.position.get i).IsFloat)
    (hwords : ∀ i v, b.axis i = some v → v.IsFloat) (code : Number) :
    ((execute code b c).1 = false → c.Spares (execute code b c).2 ∧
      ∃ e, (execute code b c).2.reports = c.reports ++ [e] ∧ e.line = b.line ∧
        e.severity = .error) ∧
    ((execute code b c).1 = true → (execute code b c).2.reports = c.reports) := by
  have hdifference : ∀ i v, b.axis i = some v → Scalar.sub (c.machine.position.get i) v =
      .ok (.float ((c.machine.position.get i).real - ((b.axis i).getD 0).real)) := by
    intro i v hv
    rw [hv, Number.sub_float (hposition i) (hwords i v hv)]
    rfl
  obtain ⟨hfails, hsucceeds⟩ := execute_reports code b c
  exact ⟨fun h => ⟨execute_spares hdifference h, hfails h⟩, hsucceeds⟩

def toFive : Block Number :=
  { (Block.empty 1 : Block Number) with axes := (Axes.fill none).set .x (some (.float 5.0)) }

/-- An arc without a feed is refused once its mode is set, and the tool does not move. -/
theorem execute_atomic_toFive :
    (execute (.int 2) toFive (.initial : Controller Number)).1 = false ∧
      (Controller.initial : Controller Number).Spares (execute (.int 2) toFive .initial).2 ∧
      (execute (.int 2) toFive (.initial : Controller Number)).2.machine.modes.motion = .int 2 := by
  have hposition : ∀ i, ((Controller.initial : Controller Number).machine.position.get i).IsFloat :=
    Machine.regular_initial.position
  have hwords : ∀ i v, toFive.axis i = some v → v.IsFloat := by
    intro i v hv
    cases i <;> cases hv
    exact ⟨5.0, rfl⟩
  have hfails : (execute (.int 2) toFive (.initial : Controller Number)).1 = false ∧
      (execute (.int 2) toFive (.initial : Controller Number)).2.machine.modes.motion = .int 2 := by
    decide +kernel
  exact ⟨hfails.1, ((execute_atomic hposition hwords (.int 2)).1 hfails.1).1, hfails.2⟩

end Motion
end Machining
