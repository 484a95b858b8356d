import Machining.Proofs.MoveModes
import Machining.Proofs.Reals

namespace Machining

def Number.makesMove (code : Number) : Bool := (GCode.ofNumber? code).any GCode.moves

namespace Motion
variable {α : Type} [Scalar α] {c : Controller α} {b : Block α} {g : GCode} {code : Number}

/-- What a move leaves of the machine: it takes its mode and perhaps a feed, and goes where the
block leads. -/
def Goes (b : Block α) (m m' : Machine α) : Prop :=
  ∃ n f p, destination m b = .ok p ∧ m' = { m.setMode .motion (.int n) with feed := f }.moveTo p

theorem straight_goes {kind : MoveKind} {feed : Option α}
    (h : (Result.of c (destination c.machine b) fun p => travel c b.line p kind feed).outcome =
      .ok true) :
    ∃ p, destination c.machine b = .ok p ∧
      (Result.of c (destination c.machine b) fun p => travel c b.line p kind
        feed).controller.machine =
        c.machine.moveTo p := by
  obtain ⟨p, hp, h⟩ := of_true h
  obtain ⟨path, hpath, -⟩ := of_true h
  refine ⟨p, hp, ?_⟩
  rw [hp]
  simp only [Result.of, travel, hpath]
  rfl

theorem arc_goes {kind : MoveKind} {n : Int} (haxes : b.hasAxes = true)
    (h : (arc kind n b c).outcome = .ok true) :
    Goes b c.machine (arc kind n b c).controller.machine := by
  obtain ⟨f, p, q, hp, -, -, hmachine⟩ := arc_true haxes h
  exact ⟨n, f, p, hp, hmachine⟩

/-- A move that succeeds changes position, mode and feed, and nothing else of the machine. -/
theorem perform_goes (hg : g.moves = true) (haxes : b.hasAxes = true)
    (h : (perform g b c).outcome = .ok true) :
    Goes b c.machine (perform g b c).controller.machine := by
  cases g with
  | rapid =>
    simp only [perform, rapid, if_pos haxes] at h ⊢
    obtain ⟨p, hp, hmachine⟩ := straight_goes h
    exact ⟨0, c.machine.feed, p, hp, hmachine⟩
  | linear =>
    simp only [perform, linear] at h ⊢
    obtain ⟨f, hf⟩ := withFeed_true h
    rw [hf, if_pos haxes] at h
    rw [hf, if_pos haxes]
    obtain ⟨p, hp, hmachine⟩ := straight_goes h
    exact ⟨1, f, p, hp, hmachine⟩
  | arcCw | arcCcw => exact arc_goes haxes h
  | _ => cases hg

theorem execute_goes (hcode : code.makesMove = true) (haxes : b.hasAxes = true)
    (h : (execute code b c).1 = true) : Goes b c.machine (execute code b c).2.machine := by
  obtain ⟨g, hcode, hg⟩ := (Option.any_eq_true _ _).mp hcode
  obtain ⟨hok, -, hmachine⟩ := execute_move hcode b c
  rw [hmachine]
  exact perform_goes hg haxes (hok.mp h)

end Motion

namespace Motion
variable {α : Type} [ExactScalar α] {m m' : Machine α} {b : Block α}

/-- Where a move of a machine ends, and what it leaves alone. -/
structure Lands (b : Block α) (m m' : Machine α) : Prop where
  absolute : m.isAbsolute = true → ∀ i v, b.axis i = some v →
    m'.position.get i = v + m.offsets.get i + m.shift.get i
  incremental : m.isAbsolute = false → ∀ i v, b.axis i = some v →
    m'.position.get i = m.position.get i + v
  unnamed : ∀ i, b.axis i = none → m'.position.get i = m.position.get i
  previous : m'.previous = m.position
  systems : m'.systems = m.systems
  offsets : m'.offsets = m.offsets
  shift : m'.shift = m.shift

theorem Goes.lands (h : Goes b m m') : Lands b m m' := by
  obtain ⟨n, f, p, hp, rfl⟩ := h
  rw [destination_exact, Except.ok.injEq] at hp
  subst hp
  refine ⟨fun ha i v hv => ?_, fun ha i v hv => ?_, fun i hn => ?_, rfl, rfl, rfl, rfl⟩
  · change (endpoint m b).get i = _
    simp [endpoint, hv, ha]
  · change (endpoint m b).get i = _
    simp [endpoint, hv, ha]
  · change (endpoint m b).get i = _
    simp [endpoint, hn]

theorem Goes.isAbsolute (h : Goes b m m') : m'.isAbsolute = m.isAbsolute := by
  obtain ⟨n, f, p, -, rfl⟩ := h
  rfl

/-- Words that name the same axes, the last block's values being the sums of the others'. -/
def Sums (b b' sum : Block α) : Prop :=
  ∀ i, (b.axis i = none ∧ b'.axis i = none ∧ sum.axis i = none) ∨
    ∃ u v, b.axis i = some u ∧ b'.axis i = some v ∧ sum.axis i = some (u + v)

theorem Lands.sums {b' sum : Block α} {m₁ m₂ m₃ : Machine α} (hsum : Sums b b' sum)
    (hm : m.isAbsolute = false) (hm₁ : m₁.isAbsolute = false) (h₁ : Lands b m m₁)
    (h₂ : Lands b' m₁ m₂) (h₃ : Lands sum m m₃) : m₂.position = m₃.position := by
  ext i
  rcases hsum i with ⟨hb, hb', hs⟩ | ⟨u, v, hb, hb', hs⟩
  · rw [h₂.unnamed i hb', h₁.unnamed i hb, h₃.unnamed i hs]
  · rw [h₂.incremental hm₁ i v hb', h₁.incremental hm i u hb,
      h₃.incremental hm i (u + v) hs, add_assoc]

/-- A move that succeeds ends, on each axis that its block names, at the word's place in the active
coordinate system or as far on as the word says, and on every other axis where it was; the offsets
stay. Two incremental moves one after the other end where one by the sums of their words does. -/
theorem execute_lands :
    (∀ (code : Number) (b : Block α) (c : Controller α), code.makesMove = true → b.hasAxes = true →
      (execute code b c).1 = true → Lands b c.machine (execute code b c).2.machine) ∧
    ∀ (k k' l : Number) (b b' sum : Block α) (c : Controller α),
      k.makesMove = true → k'.makesMove = true → l.makesMove = true →
      b.hasAxes = true → b'.hasAxes = true → sum.hasAxes = true → Sums b b' sum →
      c.machine.isAbsolute = false →
      (execute k b c).1 = true → (execute k' b' (execute k b c).2).1 = true →
      (execute l sum c).1 = true →
      (execute k' b' (execute k b c).2).2.machine.position =
        (execute l sum c).2.machine.position := by
  constructor
  · intro code b c hcode haxes hok
    exact (execute_goes hcode haxes hok).lands
  · intro k k' l b b' sum c hk hk' hl hb hb' hs hsum hmode hok hok' hokl
    have hfirst := execute_goes hk hb hok
    have hsecond := execute_goes hk' hb' hok'
    have honce := execute_goes hl hs hokl
    exact Lands.sums hsum hmode (hfirst.isAbsolute.trans hmode) hfirst.lands
      hsecond.lands honce.lands

noncomputable def offCentre (distance : Number) : Controller ℝ :=
  { Controller.initial with
    machine :=
      { Machine.initial.setMode .distance distance with
        position := .fill 1
        systems := ⟨[(.int 54, .fill 1)]⟩
        shift := .fill 1 } }

def alongX (v : ℝ) : Block ℝ :=
  { (Block.empty 1 : Block ℝ) with axes := (Axes.fill none).set .x (some v) }

/-- Over the real numbers nothing keeps a rapid move from being made. -/
theorem rapid_real (b : Block ℝ) (c : Controller ℝ) : (rapid b c).outcome = .ok true := by
  unfold rapid
  simp only
  split
  · rw [destination_exact]
    rfl
  · rfl

/-- To X3 in absolute mode the tool goes five from the origin, and Y stays where it is, one off. By
3 and by 4 in incremental mode it goes as far as by 7. -/
theorem execute_lands_offCentre :
    (execute (.int 0) (alongX 3) (offCentre (.int 90))).2.machine.position.get .x = 5 ∧
    (execute (.int 0) (alongX 3) (offCentre (.int 90))).2.machine.position.get .y = 1 ∧
    (execute (.int 0) (alongX 4)
      (execute (.int 0) (alongX 3) (offCentre (.int 91))).2).2.machine.position =
      (execute (.int 0) (alongX 7) (offCentre (.int 91))).2.machine.position := by
  have hrapid : GCode.ofNumber? (.int 0) = some .rapid := by decide
  have hcode : (Number.int 0).makesMove = true := by decide
  have hok (v : ℝ) (c : Controller ℝ) : (execute (.int 0) (alongX v) c).1 = true :=
    (execute_move hrapid _ c).1.mpr (rapid_real _ c)
  have hlands := execute_lands.1 _ (alongX 3) (offCentre (.int 90)) hcode rfl (hok 3 _)
  have hx : (alongX 3).axis .x = some 3 := rfl
  have hone : (offCentre (.int 90)).machine.offsets.get .x = 1 ∧
      (offCentre (.int 90)).machine.shift.get .x = 1 :=
    ⟨rfl, rfl⟩
  refine ⟨?_, hlands.unnamed .y rfl, ?_⟩
  · rw [hlands.absolute (by decide) .x 3 hx, hone.1, hone.2]
    norm_num
  · refine execute_lands.2 _ _ _ _ _ _ _ hcode hcode hcode rfl rfl rfl ?_ (by decide) (hok _ _)
      (hok _ _) (hok _ _)
    have hsum : (7 : ℝ) = 3 + 4 := by norm_num
    intro i
    cases i with
    | x => exact .inr ⟨3, 4, rfl, rfl, by rw [hsum]; rfl⟩
    | y | z | a | b | c | u | v | w => exact .inl ⟨rfl, rfl, rfl⟩

end Motion
end Machining
