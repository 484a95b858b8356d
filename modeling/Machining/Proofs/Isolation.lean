import Machining.Proofs.Carryover

namespace Machining

namespace Number

/-- The square of an infinite value has a result. -/
theorem square_infinite {x : Float} (h : x.isInf = true) :
    ∃ y, Scalar.square (Number.float x) = .ok (.float y) := by
  have hp : ∀ y, powFloat x y = .ok (Float.pow x y) := by
    intro y
    simp [powFloat, h]
  refine ⟨Float.pow x (Binary64.ofInt 2), ?_⟩
  change (powFloat x (Binary64.ofInt 2)).map Number.float = _
  rw [hp]
  rfl

end Number

namespace ArcShape

theorem arm_infinite {p c : Float × Float} (h₁ : (p.1 - c.1).isInf = true)
    (h₂ : (p.2 - c.2).isInf = true) :
    ∃ r, arm (Number.float p.1, .float p.2) (Number.float c.1, .float c.2) = .ok (.float r) := by
  obtain ⟨x, hx⟩ := Number.square_infinite h₁
  obtain ⟨y, hy⟩ := Number.square_infinite h₂
  have hsub : ∀ a b : Float, Scalar.sub (Number.float a) (.float b) = .ok (.float (a - b)) :=
    fun _ _ => rfl
  refine ⟨(x + y).sqrt, ?_⟩
  simp only [arm, hsub, bind, Except.bind, hx, hy]
  rfl

theorem normalize_float (x : Float) : ∃ y, normalize (Number.float x) = .ok (.float y) := by
  obtain ⟨v, hv⟩ : ∃ v, Scalar.holdsOfZero .lt (Number.float x) = .ok v := ⟨_, rfl⟩
  simp only [normalize, hv, bind, Except.bind]
  cases v with
  | true => exact ⟨_, rfl⟩
  | false => exact ⟨_, rfl⟩

/-- An arc about a centre at infinity has a shape. -/
theorem ofPoints_infinite {start stop center : Point Number} {plane : String}
    {p q c : Float × Float} (hp : planeCoordinates plane start = (.float p.1, .float p.2))
    (hq : planeCoordinates plane stop = (.float q.1, .float q.2))
    (hc : planeCoordinates plane center = (.float c.1, .float c.2))
    (hpc : (p.1 - c.1).isInf = true ∧ (p.2 - c.2).isInf = true)
    (hqc : (q.1 - c.1).isInf = true ∧ (q.2 - c.2).isInf = true) :
    ∃ r a b, ofPoints start stop center plane = .ok ⟨.float r, .float a, .float b⟩ := by
  obtain ⟨r₁, hr₁⟩ := arm_infinite hpc.1 hpc.2
  obtain ⟨r₂, hr₂⟩ := arm_infinite hqc.1 hqc.2
  obtain ⟨a, ha⟩ := normalize_float (Float.atan2 (p.2 - c.2) (p.1 - c.1))
  obtain ⟨b, hb⟩ := normalize_float (Float.atan2 (q.2 - c.2) (q.1 - c.1))
  have hadd : Scalar.add (Number.float r₁) (.float r₂) = .ok (.float (r₁ + r₂)) := rfl
  have hhalf : Scalar.half (Number.float (r₁ + r₂)) = .ok (.float ((r₁ + r₂) / 2.0)) := rfl
  have hdir : ∀ s : Float × Float, direction (Number.float s.1,
      .float s.2) (Number.float c.1, .float c.2) =
      .ok (.float (Float.atan2 (s.2 - c.2) (s.1 - c.1))) := fun _ => rfl
  refine ⟨(r₁ + r₂) / 2.0, a, b, ?_⟩
  simp only [ofPoints, hp, hq, hc, hr₁, hr₂, hadd, hhalf, hdir, ha, hb, bind, Except.bind]
  rfl

end ArcShape

theorem Segment.sweep_float (a b : Float) :
    ∃ d, sweep (Number.float a) (.float b) = .ok (.float d) := by
  have hsub : Scalar.sub (Number.float b) (.float a) = .ok (.float (b - a)) := rfl
  have habs : Scalar.magnitude (Number.float (b - a)) = .ok (.float (b - a).abs) := rfl
  obtain ⟨v, hv⟩ : ∃ v, Scalar.holds .gt (Number.float (b - a).abs) Scalar.pi = .ok v := ⟨_, rfl⟩
  simp only [sweep, hsub, habs, hv, bind, Except.bind]
  cases v with
  | true => exact ⟨_, rfl⟩
  | false => exact ⟨_, rfl⟩

theorem Toolpath.addArc_infinite {start stop center : Point Number} {line : Int} {kind : MoveKind}
    {plane : String} {feed : Option Number} {p q c : Float × Float} (hkind : kind.isArc = true)
    (hp : planeCoordinates plane start = (.float p.1, .float p.2))
    (hq : planeCoordinates plane stop = (.float q.1, .float q.2))
    (hc : planeCoordinates plane center = (.float c.1, .float c.2))
    (hpc : (p.1 - c.1).isInf = true ∧ (p.2 - c.2).isInf = true)
    (hqc : (q.1 - c.1).isInf = true ∧ (q.2 - c.2).isInf = true) :
    ∃ t, (empty : Toolpath Number).addArc start stop center line kind plane feed = .ok t := by
  obtain ⟨r, a, b, hshape⟩ := ArcShape.ofPoints_infinite hp hq hc hpc hqc
  obtain ⟨d, hd⟩ := Segment.sweep_float a b
  simp only [addArc_bind, hshape, bind, Except.bind]
  let s : Segment Number :=
    ⟨0, line, kind, start, stop, some center, some (.float r), some (.float a), some (.float b),
      some plane, feed, none⟩
  have hlen : s.measure = .ok (.float (r * d)) := by
    simp only [s, Segment.measure, hkind, ↓reduceIte, hd, bind, Except.bind]
    rfl
  obtain ⟨t, ht, -⟩ := summed_empty.push .feed hlen ⟨_, rfl⟩
  exact ⟨t, ht⟩

structure Block.Words where
  g : List Number
  m : List Number
  axes : Axes (Option Number)
  params : Params (Option Number)
  deriving DecidableEq

def Block.words (b : Block Number) : Words := ⟨b.g.keys, b.m.keys, b.axes, b.params⟩

namespace Motion
variable {b : Block Number} {c : Controller Number}

/-- The way home shows where the tool is and how the axes are shifted. -/
theorem execute_home {code : Number} (hcode : GCode.ofNumber? code = some .home)
    (hc : c.machine.Regular) (hmoves : (execute code b c).2.path.segments ≠ c.path.segments) :
    ∃ s, (execute code b c).2.path.segments = c.path.segments ++ [s] ∧
      s.start = c.machine.position.point ∧
      s.stop = (Axes.ofFn fun i => Number.float (c.machine.there i 0.0)).point := by
  have hzero : ∀ i, ((Axes.fill (0 : Number)).get i) = .float 0.0 := by
    intro i
    rw [Axes.fill, Axes.get_ofFn]
    rfl
  have hplace : c.machine.absolute (.fill 0) =
      .ok (.ofFn fun i => .float (c.machine.there i 0.0)) := by
    rw [hc.absolute fun i => ⟨0.0, hzero i⟩]
    simp only [hzero, Number.real]
  cases hadd : c.path.addLinear c.machine.position.point
      (Axes.ofFn fun i => Number.float (c.machine.there i 0.0)).point b.line .rapid none with
  | error f =>
    simp only [execute, hcode, perform, home, hplace, Result.of, travel, hadd,
      Controller.report] at hmoves
    exact absurd rfl hmoves
  | ok path =>
    obtain ⟨s, hs, -, hstart, hstop⟩ := Toolpath.addLinear_segments hadd
    refine ⟨s, ?_, hstart, hstop⟩
    simp only [execute, hcode, perform, home, hplace, Result.of, travel, hadd, done]
    exact hs

def Arced (c d : Controller Number) : Prop :=
  d.path = c.path ∨ ∃ s, d.path.segments = c.path.segments ++ [s] ∧
    s.plane = some c.machine.plane.name

theorem arc_arced (kind : MoveKind) (code : Int) (b : Block Number) (c : Controller Number) :
    Arced c (arc kind code b c).controller := by
  have hgo : ∀ d : Controller Number, d.path = c.path → d.machine.plane = c.machine.plane →
      Arced c ((if b.hasAxes then
        .of d (destination d.machine b) fun p =>
        .of d (center d.machine b) fun center =>
        .of d (d.path.addArc d.machine.position.point p.point center.point b.line kind
            d.machine.plane.name (some d.machine.feed)) fun path =>
          done { d with path, machine := d.machine.moveTo p }
        else done d : Result Number)).controller := by
    intro d hpath hplane
    split
    · cases destination d.machine b with
      | error f => exact .inl hpath
      | ok p =>
        cases center d.machine b with
        | error f => exact .inl hpath
        | ok center =>
          simp only [Result.of]
          cases hadd : d.path.addArc d.machine.position.point p.point center.point b.line kind
              d.machine.plane.name (some d.machine.feed) with
          | error f => exact .inl hpath
          | ok path =>
            obtain ⟨s, hs, -, -, -, hp⟩ := Toolpath.addArc_segments hadd
            exact .inr ⟨s, by rw [← hpath]; exact hs, by rw [hp, hplane]⟩
    · exact .inl hpath
  unfold arc
  rcases withFeed_cases code b (c.setMode .motion (.int code)) _ with ⟨reports, outcome, -, h⟩ |
    ⟨f, -, h⟩
  · rw [h]
    exact .inl rfl
  · rw [h]
    exact hgo _ rfl rfl

/-- An arc shows the plane it lies in. -/
theorem execute_arc {code : Number} (hcode : GCode.ofNumber? code = some .arcCw) (b : Block Number)
    (c : Controller Number) : Arced c (execute code b c).2 := by
  have h := arc_arced .arcCw 2 b c
  simp only [execute, hcode, perform]
  split <;> exact h

end Motion

namespace Interpreter
variable {t : Interpreter} {text : String} {b : Block Number} {s : Station} {code : Number}

theorem carry_gCode (hm : b.m.keys = []) (hg : b.g.keys = [code]) (s : Station) :
    (carry s b).control = (Motion.executeAll b [code] s.control).2 := by
  have hsort : Number.sort [code] = .ok [code] := rfl
  have hnone : Number.sort [] = .ok [] := rfl
  simp only [carry, runCodes, hm, hnone, Auxiliary.executeAll, Auxiliary.done, runGCodes, hg, hsort]

theorem carry_mCode (hm : b.m.keys = [code]) (s : Station) :
    carry s b = (runFrom b [code] { s with printed := s.printed ++ announcements b }).station := by
  have hsort : Number.sort [code] = .ok [code] := rfl
  unfold carry
  rw [runCodes_eq_runFrom, hm, hsort]

theorem block_of_words (text : String) {w : Block.Words}
    (h : (Block.ofTokens (Token.scan text).1).blocks?.map (·.map Block.words) = some [w]) :
    ∃ b, (Block.ofTokens (Token.scan text).1).blocks? = some [b] ∧ b.words = w := by
  obtain ⟨bs, hbs, hw⟩ := Option.map_eq_some_iff.mp h
  obtain ⟨b, rfl, hb⟩ := List.map_eq_singleton_iff.mp hw
  exact ⟨b, hbs, hb⟩

/-- An interpreter that ends every text like a new one. -/
def Isolated (t : Interpreter) : Prop :=
  ∀ text ok, (initial.process text).2 = .ok ok → SameOutcome (t.process text) (initial.process text)

/-- What a text with one block leaves. -/
theorem Isolated.single (h : t.Isolated) (ht : t.station.Bare)
    (hb : (Block.ofTokens (Token.scan text).1).blocks? = some [b]) :
    (carry (openedStation text [b] t.station) b).control.path.segments =
        (carry (openedStation text [b] .initial) b).control.path.segments ∧
      (carry (openedStation text [b] t.station) b).control.reports =
        (carry (openedStation text [b] .initial) b).control.reports := by
  have hnew := process_eq (t := initial) hb rfl
  have hsame := h text true (by rw [hnew])
  rw [hnew, process_eq hb ht] at hsame
  exact ⟨hsame.segments, hsame.reports⟩

end Interpreter

def Block.farArc : Words where
  g := [.float 2.0]
  m := []
  axes := (Axes.fill none).set .x (some (.float 1.0))
  params :=
    let far := some (Number.float Binary64.posInf)
    (((Params.fill none).set .i far).set .j far).set .f (some (.float 1.0))

def Machine.outset : Machine Number :=
  { Machine.initial.setMode .motion (.int 2) with feed := .float 1.0 }

namespace Motion
variable {b : Block Number}

theorem farArc_stop (haxes : b.axes = Block.farArc.axes) :
    (Axes.ofFn fun i => Number.float (Machine.outset.there i (aim .outset b i))).point =
      ⟨.float 1.0, 0, 0⟩ := by
  simp only [aim, Block.axis, haxes]
  rfl

theorem farArc_center (hparams : b.params = Block.farArc.params) (hb : b.Written)
    (hm : Machine.outset.Regular) :
    ∃ p, center .outset b = .ok p ∧ p.point = ⟨.float Binary64.posInf,
      .float Binary64.posInf, 0⟩ := by
  have hplane : Machine.outset.plane = .xy := by decide
  have hwords : centerWords .xy b = (.float Binary64.posInf, .float Binary64.posInf) := by
    simp only [centerWords, Block.param, hparams]
    rfl
  refine ⟨_, center_eq hm hb, ?_⟩
  rw [hplane, hwords]
  rfl

/-- A new machine can go on an arc about a centre at infinity, whatever its powers and angles come
to. -/
theorem execute_farArc (hb : b.Written) (hw : b.words = Block.farArc) {c : Controller Number}
    (hm : c.machine = .initial) (hp : c.path = .empty) :
    (execute (.float 2.0) b c).2.path.segments ≠ [] := by
  obtain ⟨haxes, hparams⟩ : b.axes = Block.farArc.axes ∧ b.params = Block.farArc.params := by
    rw [← hw]
    exact ⟨rfl, rfl⟩
  have hcode : GCode.ofNumber? (.float 2.0) = some .arcCw := rfl
  have hhas : b.hasAxes = true := by
    simp only [Block.hasAxes, Block.axis, haxes]
    rfl
  have hreg : Machine.outset.Regular :=
    { Machine.regular_initial with feed := Number.isFloat_float _ }
  -- the feed word is taken
  have hfeed : ∀ next, withFeed 2 b (c.setMode .motion (.int 2)) next =
      next { c with machine := .outset } := by
    intro next
    have hf : b.param .f = some (.float 1.0) := by
      rw [Block.param, hparams]
      rfl
    have hle : Scalar.holdsOfZero .le (Number.float 1.0) = .ok false := rfl
    simp only [withFeed, hf, hle, Result.of, Controller.setMode, hm]
    rfl
  obtain ⟨center, hcenter, hpoint⟩ := farArc_center hparams hb hreg
  obtain ⟨path, hadd⟩ : ∃ path, c.path.addArc (Machine.outset).position.point ⟨.float 1.0, 0, 0⟩
      ⟨.float Binary64.posInf, .float Binary64.posInf, 0⟩ b.line .arcCw Machine.outset.plane.name
      (some Machine.outset.feed) = .ok path := by
    rw [hp]
    exact Toolpath.addArc_infinite (p := (0.0, 0.0)) (q := (1.0, 0.0))
      (c := (Binary64.posInf, Binary64.posInf))
      rfl (by decide +kernel) (by decide +kernel) (by decide +kernel) ⟨rfl, rfl⟩ ⟨rfl, rfl⟩
  obtain ⟨s, hs, -⟩ := Toolpath.addArc_segments hadd
  simp only [execute, hcode, perform, arc, hfeed, hhas, ↓reduceIte, destination_eq hreg hb, hcenter,
    Result.of, hpoint, farArc_stop haxes, hadd, done, hs]
  simp

end Motion

namespace Interpreter
variable {t : Interpreter}

/-- The words of the texts that follow, and where the way home starts and ends on a new machine. -/
theorem probes_read :
    (Block.ofTokens (Token.scan "G28").1).blocks?.map (·.map Block.words) =
      some [⟨[.float 28.0], [], .fill none, .fill none⟩] ∧
    (Block.ofTokens (Token.scan "G1").1).blocks?.map (·.map Block.words) =
      some [⟨[.float 1.0], [], .fill none, .fill none⟩] ∧
    (Block.ofTokens (Token.scan "M3").1).blocks?.map (·.map Block.words) =
      some [⟨[], [.float 3.0], .fill none, .fill none⟩] ∧
    (Block.ofTokens (Token.scan "G2 X1 I1e999 J1e999 F1").1).blocks?.map (·.map Block.words) =
      some [Block.farArc] ∧
    (initial.process "G28").1.path.segments.map (fun s => (s.start, s.stop)) =
      [(⟨0, 0, 0⟩, ⟨0, 0, 0⟩)] ∧
    Scalar.holdsOfZero .le (0 : Number) = .ok true := by
  decide +kernel

/-- Going home shows the position and the shifts. -/
theorem Isolated.home (h : t.Isolated) (hu : t.station.Usual) :
    t.station.machine.position.point = ⟨0, 0, 0⟩ ∧
      (Axes.ofFn fun i => Number.float (t.station.machine.there i 0.0)).point = ⟨0, 0, 0⟩ := by
  obtain ⟨hread, -, -, -, hends, -⟩ := probes_read
  obtain ⟨b, hb, hw⟩ := block_of_words "G28" hread
  have hg : b.g.keys = [.float 28.0] := congrArg Block.Words.g hw
  have hm : b.m.keys = [] := congrArg Block.Words.m hw
  have hcode : GCode.ofNumber? (.float 28.0) = some .home := rfl
  rw [process_eq (t := initial) hb rfl] at hends
  have hsegments := (h.single hu.bare hb).1
  have hends' : (carry (openedStation "G28" [b] t.station) b).control.path.segments.map
      (fun s => (s.start, s.stop)) = [(⟨0, 0, 0⟩, ⟨0, 0, 0⟩)] := by
    rw [hsegments]
    exact hends
  rw [carry_gCode hm hg, Motion.executeAll_single] at hends'
  have hmoves :
      (Motion.execute (.float 28.0) b (openedStation "G28" [b] t.station).control).2.path.segments ≠
      (openedStation "G28" [b] t.station).control.path.segments := by
    intro hsame
    rw [hsame] at hends'
    cases hends'
  obtain ⟨s, hs, hstart, hstop⟩ := Motion.execute_home (b := b)
    (c := (openedStation "G28" [b] t.station).control) hcode hu.regular hmoves
  rw [hs] at hends'
  have hpair : (s.start, s.stop) = (⟨0, 0, 0⟩, ⟨0, 0, 0⟩) := (List.cons.inj hends').1
  obtain ⟨hp, hq⟩ := Prod.mk.inj hpair
  exact ⟨hstart.symm.trans hp, hstop.symm.trans hq⟩

/-- A move that needs a feed shows whether there is one. -/
theorem Isolated.feed (h : t.Isolated) (hu : t.station.Usual) : t.station.machine.feed = 0 := by
  obtain ⟨-, hread, -, -, -, hstopped⟩ := probes_read
  obtain ⟨b, hb, hw⟩ := block_of_words "G1" hread
  have hg : b.g.keys = [.float 1.0] := congrArg Block.Words.g hw
  have hm : b.m.keys = [] := congrArg Block.Words.m hw
  have hnone : b.param .f = none := congrArg (fun w : Block.Words => w.params.get .f) hw
  have hcode : GCode.ofNumber? (.float 1.0) = some .linear := rfl
  have hreports := (h.single hu.bare hb).2
  rw [carry_gCode hm hg, carry_gCode hm hg] at hreports
  rcases hu.feed with hzero | hfed
  · exact hzero
  · have hnew :
        Scalar.holdsOfZero .le (openedStation "G1" [b] .initial).control.machine.feed = .ok true :=
      hstopped
    have hold : Scalar.holdsOfZero .le (openedStation "G1" [b] t.station).control.machine.feed ≠
        .ok true := by
      change Scalar.holdsOfZero .le t.station.machine.feed ≠ .ok true
      simp [hfed]
    refine absurd hreports.symm (Motion.executeAll_unfed ?_ hcode rfl hnone hnew hold [])
    rfl

/-- So does a spindle that is to be started, for the speed. -/
theorem Isolated.idle (h : t.Isolated) (hu : t.station.Usual) : t.station.machine.Idle := by
  obtain ⟨-, -, hread, -, -, -⟩ := probes_read
  obtain ⟨b, hb, hw⟩ := block_of_words "M3" hread
  have hm : b.m.keys = [.float 3.0] := congrArg Block.Words.m hw
  have hnone : b.param .s = none := congrArg (fun w : Block.Words => w.params.get .s) hw
  have hcode : MCode.ofNumber? (.float 3.0) = some .spindleCw := rfl
  have hreports := (h.single hu.bare hb).2
  rw [carry_mCode hm, carry_mCode hm] at hreports
  by_contra hsped
  refine absurd hreports.symm (runFrom_unsped ?_ ?_ hcode rfl hnone ?_ ?_ [])
  · rfl
  · exact hu.bare
  · exact Machine.initial_idle
  · exact hsped

/-- An arc shows the plane. -/
theorem Isolated.plane (h : t.Isolated) (hu : t.station.Usual) : t.station.machine.plane = .xy := by
  obtain ⟨-, -, -, hread, -, -⟩ := probes_read
  obtain ⟨b, hb, hw⟩ := block_of_words "G2 X1 I1e999 J1e999 F1" hread
  have hg : b.g.keys = [.float 2.0] := congrArg Block.Words.g hw
  have hm : b.m.keys = [] := congrArg Block.Words.m hw
  have hcode : GCode.ofNumber? (.float 2.0) = some .arcCw := rfl
  have hwritten : b.Written := (Block.ofText_listed hb).written b (List.mem_singleton_self b)
  have hsegments := (h.single hu.bare hb).1
  rw [carry_gCode hm hg, carry_gCode hm hg, Motion.executeAll_single,
    Motion.executeAll_single] at hsegments
  have hnew := Motion.execute_farArc hwritten hw
    (c := (openedStation "G2 X1 I1e999 J1e999 F1" [b] .initial).control) rfl rfl
  have hempty : ∀ s : Station,
      (openedStation "G2 X1 I1e999 J1e999 F1" [b] s).control.path.segments = [] :=
    fun _ => rfl
  rcases Motion.execute_arc hcode b
    (openedStation "G2 X1 I1e999 J1e999 F1" [b] t.station).control with
    hsame | ⟨s, hs, hplane⟩
  · rw [hsame, hempty] at hsegments
    exact absurd hsegments.symm hnew
  rcases Motion.execute_arc hcode b
    (openedStation "G2 X1 I1e999 J1e999 F1" [b] .initial).control with
    hsame₀ | ⟨s₀, hs₀, hplane₀⟩
  · rw [hsame₀, hempty] at hnew
    exact absurd rfl hnew
  rw [hs, hs₀, hempty, hempty] at hsegments
  have hname : t.station.machine.plane.name = Plane.xy.name := by
    rw [List.cons.inj hsegments |>.1, hplane₀] at hplane
    exact (Option.some.inj hplane).symm
  rcases hu.regular.plane with hp | hp | hp
  · exact hp
  · rw [hp] at hname
    exact absurd hname (by decide)
  · rw [hp] at hname
    exact absurd hname (by decide)

end Interpreter

namespace Interpreter
variable {t : Interpreter}

def incremental : Interpreter :=
  { initial with
    station := Station.initial.setMachine (Machine.initial.setMode .distance (.int 91)) }

/-- Two equal moves show the distance mode. -/
theorem Isolated.absolute (h : t.Isolated) (hu : t.station.Usual) (hm : t.station.machine.Unused) :
    t.station.machine.isAbsolute = true := by
  by_contra hrelative
  obtain ⟨bs, hbs⟩ : ∃ bs, (Block.ofTokens (Token.scan "G0 X1\nG0 X1").1).blocks? = some bs :=
    Option.isSome_iff_exists.mp (by decide +kernel)
  have habs : t.station.machine.isAbsolute = (Number.int 91 == .int 90) := by
    rw [Bool.not_eq_true] at hrelative
    exact hrelative.trans (by decide)
  have hold := process_same (u := incremental) hbs hu.bare rfl (hm.agree hu.regular habs)
  have hnew := h "G0 X1\nG0 X1" true (by rw [process_eq (t := initial) hbs rfl])
  have hdiffer : (incremental.process "G0 X1\nG0 X1").1.path.segments ≠
      (initial.process "G0 X1\nG0 X1").1.path.segments := by decide +kernel
  exact hdiffer (hold.segments.symm.trans hnew.segments)

/-- Zero plus a shift is zero for zero shifts only. -/
theorem shift_of_there {m : Machine Number} (hm : m.Regular) {i : Axis} (h : m.there i 0.0 = 0.0) :
    m.shift.get i = .float 0.0 ∨ m.shift.get i = .float (-0.0) := by
  have hzero : (0.0 : Float) + 0.0 = 0.0 := rfl
  rw [Machine.there, hzero] at h
  rw [(hm.shift i).eq]
  exact (Binary64.isZero_of_zero_add h).imp (congrArg Number.float) (congrArg Number.float)

theorem Isolated.looksNew (h : t.Isolated) (hu : t.station.Usual) : t.station.machine.LooksNew := by
  obtain ⟨hposition, hplace⟩ := h.home hu
  have hunused : t.station.machine.Unused := by
    refine ⟨hposition, ?_, h.plane hu, h.feed hu, h.idle hu⟩
    simp only [Axes.point, Axes.ofFn, Point.mk.injEq] at hplace
    obtain ⟨hx, hy, hz⟩ := hplace
    have hshift : ∀ i, Number.float (t.station.machine.there i 0.0) = 0 → _ :=
      fun i hv => shift_of_there hu.regular (i := i) (Number.float.inj hv)
    exact Axis.forall_linear (hshift .x hx) (hshift .y hy) (hshift .z hz)
  exact { hunused with absolute := h.absolute hu hunused }

/-- After any requests, every text that a new interpreter brings to a verdict ends as there exactly
if the machine that the requests left looks new. -/
theorem process_isolated_iff (history : List Request) :
    (∀ text ok, (initial.process text).2 = .ok ok →
      SameOutcome ((initial.afterAll history).process text) (initial.process text)) ↔
    (initial.afterAll history).station.machine.LooksNew := by
  have hu := afterAll_usual initial_usual history
  constructor
  · exact fun h => Isolated.looksNew h hu
  · intro hnew text ok hok
    cases hbs : (Block.ofTokens (Token.scan text).1).blocks? with
    | none =>
      rw [process_eq_perform, hbs] at hok
      cases hok
    | some bs => exact process_same hbs hu.bare rfl (hnew.agree hu.regular hnew.absolute)

/-- Checking a text, processing comments and resetting leave nothing behind; a cut leaves its end
and its feed, also after a reset. -/
theorem process_isolated_iff_cut :
    (∀ text ok, (initial.process text).2 = .ok ok →
      SameOutcome ((initial.afterAll [.validate "G1 X5", .process "(setup)", .reset]).process text)
        (initial.process text)) ∧
    ¬ ∀ text ok, (initial.process text).2 = .ok ok →
      SameOutcome ((initial.afterAll [.process "G1 X5 F100", .reset]).process text)
        (initial.process text) := by
  constructor
  · refine (process_isolated_iff _).mpr ⟨⟨?_, ?_, ?_, ?_, ?_⟩, ?_⟩
    all_goals decide +kernel
  · intro h
    have hnew := (process_isolated_iff _).mp h
    exact absurd hnew.position (by decide +kernel)

end Interpreter
end Machining
