import Machining.Proofs.Movement

namespace Machining

structure Selection where
  plane : Option Number
  units : Option Number
  distance : Option Number

def Modes.adopt (modes : Modes) (w : Selection) : Modes :=
  { modes with
    plane := w.plane.getD modes.plane
    units := w.units.getD modes.units
    distance := w.distance.getD modes.distance }

def Machine.adopt {α : Type} (m : Machine α) (w : Selection) : Machine α :=
  { m with modes := m.modes.adopt w }

def Controller.adopt {α : Type} (c : Controller α) (w : Selection) : Controller α :=
  { c with machine := c.machine.adopt w }

def Selection.andThen (w w' : Selection) : Selection :=
  ⟨w'.plane.or w.plane, w'.units.or w.units, w'.distance.or w.distance⟩

theorem Controller.adopt_adopt {α : Type} (c : Controller α) (w w' : Selection) :
    (c.adopt w).adopt w' = c.adopt (w.andThen w') := by
  obtain ⟨plane, units, distance⟩ := w'
  cases plane <;> cases units <;> cases distance <;> rfl

theorem Modes.eq_of_set_motion {modes : Modes} {w : Selection} {code : Number}
    (h : modes.set .motion code = (modes.adopt w).set .motion code) : modes = modes.adopt w := by
  obtain ⟨motion, plane, distance, arcs, feed, units, comp, length, system, control, back⟩ := modes
  simpa [adopt, set] using h

/-- The same segments and the same machine, whatever was reported. -/
def Controller.SameWork {α : Type} (c d : Controller α) : Prop :=
  c.path.segments = d.path.segments ∧ c.machine = d.machine

theorem Controller.sameWork_congr {α : Type} {c c' d d' : Controller α} (hc : c.path = c'.path)
    (hm : c.machine = c'.machine) (hd : d.path = d'.path) (hn : d.machine = d'.machine) :
    c.SameWork d ↔ c'.SameWork d' := by
  rw [SameWork, SameWork, hc, hm, hd, hn]

theorem Plane.name_injective : ∀ p q : Plane, p.name = q.name → p = q := by
  intro p q
  cases p <;> cases q <;> decide

namespace GCode

def moves : GCode → Bool
  | rapid | linear | arcCw | arcCcw => true
  | _ => false

def isArc : GCode → Bool
  | arcCw | arcCcw => true
  | _ => false

def selects : GCode → Bool
  | planeXY | planeXZ | planeYZ | inches | millimeters | absolute | incremental => true
  | _ => false

end GCode

namespace Motion
variable {α : Type} {c d : Controller α} {w : Selection} {r : Result α}

def Result.adopt (r : Result α) (w : Selection) : Result α := ⟨r.controller.adopt w, r.outcome⟩

theorem of_adopt {β : Type} {v : Except Fault β} {next next' : β → Result α}
    (h : ∀ x, next' x = (next x).adopt w) :
    Result.of (c.adopt w) v next' = (Result.of c v next).adopt w := by
  cases v with
  | error f => rfl
  | ok x => exact h x

theorem of_modes {β : Type} {v : Except Fault β} {next : β → Result α} {modes : Modes}
    (hc : c.machine.modes = modes) (h : ∀ x, (next x).controller.machine.modes = modes) :
    (Result.of c v next).controller.machine.modes = modes := by
  cases v with
  | error f => exact hc
  | ok x => exact h x

theorem of_true {β : Type} {v : Except Fault β} {next : β → Result α}
    (h : (Result.of c v next).outcome = .ok true) :
    ∃ x, v = .ok x ∧ (next x).outcome = .ok true := by
  cases v with
  | error f => cases h
  | ok x => exact ⟨x, rfl, h⟩

variable [Scalar α] {b : Block α} {g : GCode} {code : Int} {next : Controller α → Result α}

theorem travel_adopt (c : Controller α) (line : Int) (p : Axes α) (kind : MoveKind)
    (feed : Option α) : travel (c.adopt w) line p kind feed = (travel c line p kind feed).adopt w :=
  of_adopt fun _ => rfl

theorem withFeed_adopt (h : ∀ f, next ((feeding c f).adopt w) = (next (feeding c f)).adopt w) :
    withFeed code b (c.adopt w) next = (withFeed code b c next).adopt w := by
  unfold withFeed
  split
  · rename_i f _
    apply of_adopt
    intro nonpositive
    split
    · rfl
    · exact h f
  · apply of_adopt
    intro nonpositive
    split
    · rfl
    · exact h c.machine.feed

/-- The way of a move is the same with the selected modes. -/
structure Unmoved (g : GCode) (b : Block α) (m : Machine α) (w : Selection) : Prop where
  destination : destination (m.adopt w) b = destination m b
  plane : g.isArc = true → (m.adopt w).plane = m.plane

theorem straight_adopt {kind : MoveKind} {feed : Option α}
    (h : b.hasAxes = true → destination (c.machine.adopt w) b = destination c.machine b) :
    (if b.hasAxes then
        .of (c.adopt w) (destination (c.adopt w).machine b) fun p =>
          travel (c.adopt w) b.line p kind feed
      else done (c.adopt w)) =
      (if b.hasAxes then .of c (destination c.machine b) fun p => travel c b.line p kind feed
        else done c : Result α).adopt w := by
  split
  · rename_i haxes
    have hd : destination (c.adopt w).machine b = destination c.machine b := h haxes
    rw [hd]
    exact of_adopt fun p => travel_adopt c b.line p kind feed
  · rfl

theorem linear_adopt (h : b.hasAxes = true →
    destination (c.machine.adopt w) b = destination c.machine b) :
    linear b (c.adopt w) = (linear b c).adopt w := by
  apply withFeed_adopt (c := c.setMode .motion (.int 1))
  intro f
  exact straight_adopt (c := feeding (c.setMode .motion (.int 1)) f) h

theorem center_adopt {m : Machine α} (h : (m.adopt w).plane = m.plane) :
    center (m.adopt w) b = center m b := by
  unfold center
  rw [h]
  rfl

theorem arc_adopt {kind : MoveKind}
    (h : b.hasAxes = true → destination (c.machine.adopt w) b = destination c.machine b)
    (hp : b.hasAxes = true → (c.machine.adopt w).plane = c.machine.plane) :
    arc kind code b (c.adopt w) = (arc kind code b c).adopt w := by
  apply withFeed_adopt (c := c.setMode .motion (.int code))
  intro f
  split
  · rename_i haxes
    have hd : destination ((feeding (c.setMode .motion (.int code)) f).adopt w).machine b =
        destination (feeding (c.setMode .motion (.int code)) f).machine b := h haxes
    have hplane : ((feeding (c.setMode .motion (.int code)) f).adopt w).machine.plane =
        (feeding (c.setMode .motion (.int code)) f).machine.plane := hp haxes
    have hcenter : center ((feeding (c.setMode .motion (.int code)) f).adopt w).machine b =
        center (feeding (c.setMode .motion (.int code)) f).machine b := center_adopt hplane
    rw [hd, hcenter, hplane]
    apply of_adopt
    intro p
    apply of_adopt
    intro q
    exact of_adopt fun path => rfl
  · rfl

/-- A move whose way the selected modes do not change is made alike before and after they are
set. -/
theorem perform_adopt (hg : g.moves = true) (h : b.hasAxes = true → Unmoved g b c.machine w) :
    perform g b (c.adopt w) = (perform g b c).adopt w := by
  have hd := fun haxes => (h haxes).destination
  have hp : g.isArc = true → b.hasAxes = true → (c.machine.adopt w).plane = c.machine.plane :=
    fun harc haxes => (h haxes).plane harc
  cases g with
  | rapid => exact straight_adopt (c := c.setMode .motion (.int 0)) hd
  | linear => exact linear_adopt hd
  | arcCw | arcCcw => exact arc_adopt hd (hp rfl)
  | _ => cases hg

theorem travel_modes (c : Controller α) (line : Int) (p : Axes α) (kind : MoveKind)
    (feed : Option α) : (travel c line p kind feed).controller.machine.modes = c.machine.modes :=
  of_modes rfl fun _ => rfl

theorem withFeed_modes (h : ∀ f, (next (feeding c f)).controller.machine.modes = c.machine.modes) :
    (withFeed code b c next).controller.machine.modes = c.machine.modes := by
  rcases withFeed_cases code b c next with ⟨reports, outcome, -, heq⟩ | ⟨f, -, heq⟩
  · rw [heq]
  · rw [heq]
    exact h f

/-- A move sets its own mode and no other, whatever it comes to. -/
theorem perform_modes (hg : g.moves = true) :
    (perform g b c).controller.machine.modes = c.machine.modes.set .motion (.int g.number) := by
  have harc : ∀ kind code, (arc kind code b c).controller.machine.modes =
      c.machine.modes.set .motion (.int code) := by
    intro kind code
    apply withFeed_modes (c := c.setMode .motion (.int code))
    intro f
    split
    · apply of_modes rfl
      intro p
      apply of_modes rfl
      intro q
      exact of_modes rfl fun path => rfl
    · rfl
  cases g with
  | rapid =>
    simp only [perform, rapid]
    split
    · exact of_modes rfl fun p => travel_modes _ b.line p .rapid none
    · rfl
  | linear =>
    apply withFeed_modes (c := c.setMode .motion (.int 1))
    intro f
    split
    · exact of_modes rfl fun p => travel_modes _ b.line p .feed _
    · rfl
  | arcCw | arcCcw => exact harc _ _
  | _ => cases hg

theorem withFeed_true (h : (withFeed code b c next).outcome = .ok true) :
    ∃ f, withFeed code b c next = next (feeding c f) := by
  rcases withFeed_cases code b c next with ⟨reports, outcome, hno, heq⟩ | ⟨f, -, heq⟩
  · rw [heq] at h
    exact absurd h hno
  · exact ⟨f, heq⟩

/-- A move that was made: it ends where the block leads and leaves one segment, which shows the
plane of an arc. -/
structure Made (arc : Bool) (b : Block α) (c d : Controller α) : Prop where
  aim : destination c.machine b = .ok d.machine.position
  segment : ∃ s, d.path.segments = c.path.segments ++ [s] ∧
    (arc = true → s.plane = some c.machine.plane.name)

theorem straight_made {kind : MoveKind} {feed : Option α}
    (h : (Result.of c (destination c.machine b) fun p => travel c b.line p kind feed).outcome =
      .ok true) :
    Made false b c (Result.of c (destination c.machine b) fun p =>
      travel c b.line p kind feed).controller := by
  obtain ⟨p, hp, h⟩ := of_true h
  obtain ⟨path, hpath, -⟩ := of_true h
  obtain ⟨s, hs, -⟩ := Toolpath.addLinear_segments hpath
  rw [hp]
  simp only [Result.of, travel, hpath]
  exact ⟨hp, s, hs, by simp⟩

/-- An arc that was made goes where its block leads, about the centre that the block gives. -/
theorem arc_true {kind : MoveKind} (haxes : b.hasAxes = true)
    (h : (arc kind code b c).outcome = .ok true) :
    ∃ f p q, destination c.machine b = .ok p ∧ center c.machine b = .ok q ∧
      c.path.addArc c.machine.position.point p.point q.point b.line kind
        c.machine.plane.name (some f) =
        .ok (arc kind code b c).controller.path ∧
      (arc kind code b c).controller.machine =
        { c.machine.setMode .motion (.int code) with feed := f }.moveTo p := by
  unfold arc at h ⊢
  obtain ⟨f, hf⟩ := withFeed_true h
  rw [hf, if_pos haxes] at h
  rw [hf, if_pos haxes]
  obtain ⟨p, hp, h⟩ := of_true h
  obtain ⟨q, hq, h⟩ := of_true h
  obtain ⟨path, hpath, -⟩ := of_true h
  refine ⟨f, p, q, hp, hq, ?_⟩
  rw [hp, hq]
  simp only [Result.of, hpath]
  exact ⟨hpath, rfl⟩

theorem arc_made {kind : MoveKind} (haxes : b.hasAxes = true)
    (h : (arc kind code b c).outcome = .ok true) :
    Made true b c (arc kind code b c).controller := by
  obtain ⟨f, p, q, hp, -, hpath, hmachine⟩ := arc_true haxes h
  obtain ⟨s, hs, -, -, -, hplane⟩ := Toolpath.addArc_segments hpath
  exact ⟨by rw [hp, hmachine]; rfl, s, hs, fun _ => hplane⟩

theorem perform_made (hg : g.moves = true) (haxes : b.hasAxes = true)
    (h : (perform g b c).outcome = .ok true) : Made g.isArc b c (perform g b c).controller := by
  cases g with
  | rapid =>
    simp only [perform, rapid, if_pos haxes] at h ⊢
    obtain ⟨aim, segment⟩ := straight_made h
    exact ⟨aim, segment⟩
  | linear =>
    simp only [perform, linear] at h ⊢
    obtain ⟨f, hf⟩ := withFeed_true h
    rw [hf, if_pos haxes] at h
    rw [hf, if_pos haxes]
    obtain ⟨aim, segment⟩ := straight_made h
    exact ⟨aim, segment⟩
  | arcCw | arcCcw => exact arc_made haxes h
  | _ => cases hg

theorem perform_path (h : (perform g b c).outcome ≠ .ok true) :
    (perform g b c).controller.path = c.path := by
  have he := perform_effect g b c
  generalize perform g b c = r at h he
  cases he with
  | stays still _ _ _ | refuses still _ _ _ _ => exact still.path
  | moves _ _ _ _ _ _ _ _ _ => exact absurd rfl h

/-- A move that succeeds is made alike after the modes are set if and only if they leave its way as
it is. -/
theorem perform_swap_iff (hg : g.moves = true) (h : (perform g b c).outcome = .ok true) :
    ((perform g b c).controller.adopt w).SameWork (perform g b (c.adopt w)).controller ↔
      (b.hasAxes = true → Unmoved g b c.machine w) := by
  constructor
  · rintro ⟨hsegments, hmachine⟩ haxes
    obtain ⟨haim, s, hs, hplane⟩ := perform_made hg haxes h
    have hlonger : (perform g b (c.adopt w)).controller.path.segments = c.path.segments ++ [s] :=
      hsegments.symm.trans hs
    have hok : (perform g b (c.adopt w)).outcome = .ok true := by
      apply Classical.byContradiction
      intro hfails
      rw [perform_path hfails] at hlonger
      exact absurd hlonger (by simp [Controller.adopt])
    obtain ⟨haim', s', hs', hplane'⟩ := perform_made hg haxes hok
    have hsame : s = s' := by
      have hlast := hlonger.symm.trans hs'
      simpa [Controller.adopt] using hlast
    refine ⟨?_, fun harc => ?_⟩
    · rw [haim]
      refine haim'.trans ?_
      rw [← hmachine]
      rfl
    · have hnames := (hplane' harc).symm.trans (hsame ▸ hplane harc)
      exact Plane.name_injective _ _ (Option.some.inj hnames)
  · intro hunmoved
    rw [perform_adopt hg hunmoved]
    exact ⟨rfl, rfl⟩

/-- A move keeps the modes it finds, so it comes to the same only if they are in force already. -/
theorem perform_same_iff (hg : g.moves = true) :
    (perform g b c).controller.SameWork (perform g b (c.adopt w)).controller ↔
    c.machine.adopt w = c.machine := by
  constructor
  · rintro ⟨-, hmachine⟩
    have hmodes := congrArg Machine.modes hmachine
    rw [perform_modes hg, perform_modes hg] at hmodes
    have hsame : c.machine.modes = c.machine.modes.adopt w := Modes.eq_of_set_motion hmodes
    rw [Machine.adopt, ← hsame]
  · intro hsame
    rw [Controller.adopt, hsame]
    exact ⟨rfl, rfl⟩

variable {code : Number} {codes : List Number}

theorem execute_move (hcode : GCode.ofNumber? code = some g) (b : Block α) (c : Controller α) :
    ((execute code b c).1 = true ↔ (perform g b c).outcome = .ok true) ∧
      (execute code b c).2.path = (perform g b c).controller.path ∧
      (execute code b c).2.machine = (perform g b c).controller.machine := by
  simp only [execute, hcode]
  cases hr : (perform g b c).outcome with
  | ok ok => simp
  | error f => exact ⟨by simp, rfl, rfl⟩

theorem execute_selects (hcode : GCode.ofNumber? code = some g) (hs : g.selects = true) :
    ∃ w, ∀ (b : Block α) (c : Controller α), execute code b c = (true, c.adopt w) := by
  cases g with
  | planeXY | planeXZ | planeYZ =>
    exact ⟨⟨some _, none, none⟩, fun b c => by simp only [execute, hcode]; rfl⟩
  | inches | millimeters =>
    exact ⟨⟨none, some _, none⟩, fun b c => by simp only [execute, hcode]; rfl⟩
  | absolute | incremental =>
    exact ⟨⟨none, none, some _⟩, fun b c => by simp only [execute, hcode]; rfl⟩
  | _ => cases hs

theorem executeAll_of_true (h : (execute code b c).1 = true) :
    executeAll b (code :: codes) c = executeAll b codes (execute code b c).2 := by
  rw [executeAll]
  generalize execute code b c = x at h
  obtain ⟨ok, d⟩ := x
  cases h
  rfl

theorem executeAll_of_false (h : (execute code b c).1 = false) :
    executeAll b (code :: codes) c = (false, (execute code b c).2) := by
  rw [executeAll]
  generalize execute code b c = x at h
  obtain ⟨ok, d⟩ := x
  cases h
  rfl

/-- Codes that select modes do so whatever their block and the controller are. -/
theorem executeAll_selects (h : ∀ code ∈ codes, ∃ g, GCode.ofNumber? code = some g ∧
    g.selects = true) :
    ∃ w, ∀ (b : Block α) (c : Controller α), executeAll b codes c = (true, c.adopt w) := by
  induction codes with
  | nil => exact ⟨⟨none, none, none⟩, fun b c => rfl⟩
  | cons code rest ih =>
    obtain ⟨g, hcode, hs⟩ := h code List.mem_cons_self
    obtain ⟨w, hw⟩ := execute_selects (α := α) hcode hs
    obtain ⟨w', hw'⟩ := ih fun k hk => h k (List.mem_cons_of_mem code hk)
    refine ⟨w.andThen w', fun b c => ?_⟩
    rw [executeAll, hw b c]
    simp only
    rw [hw' b, Controller.adopt_adopt]

end Motion
end Machining
