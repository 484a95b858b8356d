import Machining.Proofs.LineIndex

namespace Machining

namespace Plane

def isLinear : Plane → Bool
  | xy | xz | yz => true
  | uv | uw | vw => false

theorem name_of_isLinear {p : Plane} (h : p.isLinear = true) :
    p.name = "XY" ∨ p.name = "XZ" ∨ p.name = "YZ" := by
  cases p with
  | xy => exact .inl (by decide)
  | xz => exact .inr (.inl (by decide))
  | yz => exact .inr (.inr (by decide))
  | uv | uw | vw => cases h

end Plane

section
variable {α : Type} [Scalar α]

/-- What a code makes of a path in a plane. -/
inductive Toolpath.Drawn (plane : Plane) (t : Toolpath α) : Toolpath α → Prop where
  | nothing : Drawn plane t t
  | rapid {t' : Toolpath α} {start stop : Point α} {line : Int}
      (added : t.addLinear start stop line .rapid none = .ok t') : Drawn plane t t'
  | cut {t' : Toolpath α} {start stop : Point α} {line : Int} {f : α}
      (fed : Scalar.holdsOfZero .le f = .ok false)
      (added : t.addLinear start stop line .feed (some f) = .ok t') : Drawn plane t t'
  | arc {t' : Toolpath α} {start stop center : Point α} {line : Int} {kind : MoveKind} {f : α}
      (round : kind.isArc = true) (fed : Scalar.holdsOfZero .le f = .ok false)
      (added : t.addArc start stop center line kind plane.name (some f) = .ok t') : Drawn plane t t'

namespace Motion
variable {b : Block α} {c d : Controller α} {r : Result α}

/-- The path is drawn in the plane in force, and a linear plane gives way to a linear one at
most. -/
structure Draws (c : Controller α) (r : Result α) : Prop where
  path : c.path.Drawn c.machine.plane r.controller.path
  plane : c.machine.plane.isLinear = true → r.controller.machine.plane.isLinear = true

theorem draws_nothing (hpath : r.controller.path = c.path)
    (hplane : c.machine.plane.isLinear = true → r.controller.machine.plane.isLinear = true) :
    Draws c r :=
  ⟨by rw [hpath]; exact .nothing, hplane⟩

theorem Draws.of_same (h : Draws d r) (hpath : d.path = c.path)
    (hplane : d.machine.plane = c.machine.plane) : Draws c r := by
  obtain ⟨hdrawn, hlinear⟩ := h
  rw [hpath, hplane] at hdrawn
  rw [hplane] at hlinear
  exact ⟨hdrawn, hlinear⟩

theorem of_draws {β : Type} {v : Except Fault β} {next : β → Result α}
    (h : ∀ x, v = .ok x → Draws c (next x)) : Draws c (Result.of c v next) := by
  cases v with
  | error f => exact draws_nothing rfl id
  | ok x => exact h x rfl

theorem withFeed_draws {code : Int} {next : Controller α → Result α}
    (h : ∀ f, Scalar.holdsOfZero .le f = .ok false → Draws (feeding c f) (next (feeding c f))) :
    Draws c (withFeed code b c next) := by
  rcases withFeed_cases code b c next with ⟨reports, outcome, -, heq⟩ | ⟨f, hf, heq⟩
  · rw [heq]
    exact draws_nothing rfl id
  · rw [heq]
    exact (h f hf).of_same rfl rfl

theorem travel_draws {line : Int} {p : Axes α} {kind : MoveKind} {feed : Option α}
    (h : ∀ t, c.path.addLinear c.machine.position.point p.point line kind feed = .ok t →
      c.path.Drawn c.machine.plane t) : Draws c (travel c line p kind feed) :=
  of_draws fun t ht => ⟨h t ht, id⟩

theorem rapid_draws (b : Block α) (c : Controller α) : Draws c (rapid b c) := by
  refine Draws.of_same (d := c.setMode .motion (.int 0)) ?_ rfl rfl
  unfold rapid
  split
  · exact of_draws fun p _ => travel_draws fun t ht => .rapid ht
  · exact draws_nothing rfl id

theorem linear_draws (b : Block α) (c : Controller α) : Draws c (linear b c) := by
  refine Draws.of_same (d := c.setMode .motion (.int 1)) ?_ rfl rfl
  apply withFeed_draws
  intro f hf
  split
  · exact of_draws fun p _ => travel_draws fun t ht => .cut hf ht
  · exact draws_nothing rfl id

theorem arc_draws {kind : MoveKind} (hkind : kind.isArc = true) (code : Int) (b : Block α)
    (c : Controller α) : Draws c (arc kind code b c) := by
  refine Draws.of_same (d := c.setMode .motion (.int code)) ?_ rfl rfl
  apply withFeed_draws
  intro f hf
  split
  · exact of_draws fun p _ => of_draws fun center _ => of_draws fun t ht => ⟨.arc hkind hf ht, id⟩
  · exact draws_nothing rfl id

theorem dwell_draws (b : Block α) (c : Controller α) : Draws c (dwell b c) := by
  unfold dwell
  split
  · apply of_draws
    intro negative _
    split <;> exact draws_nothing rfl id
  · exact draws_nothing rfl id

theorem shiftAxes_draws (b : Block α) (is : List Axis) (c : Controller α) :
    Draws c (shiftAxes b is c) := by
  induction is generalizing c with
  | nil => exact draws_nothing rfl id
  | cons i rest ih =>
    unfold shiftAxes
    split
    · exact ih c
    · exact of_draws fun d _ => (ih { c with machine := c.machine.setShift i d }).of_same rfl rfl

theorem perform_draws (g : GCode) (b : Block α) (c : Controller α) : Draws c (perform g b c) := by
  cases g with
  | rapid => exact rapid_draws b c
  | linear => exact linear_draws b c
  | arcCw | arcCcw => exact arc_draws rfl _ b c
  | dwell => exact dwell_draws b c
  | home => exact of_draws fun p _ => travel_draws fun t ht => .rapid ht
  | shift =>
    simp only [perform, shift]
    split
    · exact shiftAxes_draws b Axis.all c
    · exact draws_nothing rfl id
  | planeXY | planeXZ | planeYZ => exact draws_nothing rfl fun _ => rfl
  | offsetData | inches | millimeters | absolute | incremental => exact draws_nothing rfl id

theorem execute_draws (code : Number) (b : Block α) (c : Controller α) :
    Draws c ⟨(execute code b c).2, .ok (execute code b c).1⟩ := by
  unfold execute
  split
  · exact draws_nothing rfl id
  · rename_i g _
    obtain ⟨hpath, hplane⟩ := perform_draws g b c
    simp only
    split <;> exact ⟨hpath, hplane⟩

end Motion
end

namespace Segment

structure Straight (s : Segment Number) : Prop where
  center : s.center = none
  radius : s.radius = none
  startAngle : s.startAngle = none
  endAngle : s.endAngle = none
  plane : s.plane = none

structure Round (s : Segment Number) : Prop where
  center : s.center.isSome = true
  radius : s.radius.isSome = true
  startAngle : s.startAngle.isSome = true
  endAngle : s.endAngle.isSome = true
  plane : s.plane = some "XY" ∨ s.plane = some "XZ" ∨ s.plane = some "YZ"

/-- Rapid moves have no feed and all others one that is not zero or below; arcs, and only they, have
the fields of arcs. -/
structure WellFormed (s : Segment Number) : Prop where
  rapid : s.kind = .rapid → s.feed = none
  cutting : s.kind ≠ .rapid → ∃ f, s.feed = some f ∧ f.holds .le (.int 0) = .ok false
  straight : s.kind.isArc = false → s.Straight
  round : s.kind.isArc = true → s.Round

end Segment

def Toolpath.WellFormed (t : Toolpath Number) : Prop := ∀ s ∈ t.segments, s.WellFormed

theorem Toolpath.wellFormed_empty : (empty : Toolpath Number).WellFormed :=
  fun _ hs => absurd hs List.not_mem_nil

theorem Toolpath.WellFormed.append {t t' : Toolpath Number} {s : Segment Number} (h : t.WellFormed)
    (hsegments : t'.segments = t.segments ++ [s]) (hs : s.WellFormed) : t'.WellFormed := by
  intro s' hs'
  rw [hsegments] at hs'
  rcases List.mem_append.mp hs' with hold | hnew
  · exact h s' hold
  · rw [List.mem_singleton.mp hnew]
    exact hs

/-- In a linear plane only well formed segments are drawn. -/
theorem Toolpath.Drawn.wellFormed {plane : Plane} {t t' : Toolpath Number} (d : t.Drawn plane t')
    (hplane : plane.isLinear = true) (h : t.WellFormed) : t'.WellFormed := by
  cases d with
  | nothing => exact h
  | rapid added =>
    obtain ⟨len, -, hsegments, -⟩ := push_eq added
    refine h.append hsegments ⟨fun _ => rfl, fun hkind => absurd rfl hkind,
      fun _ => ⟨rfl, rfl, rfl, rfl, rfl⟩, ?_⟩
    intro hround
    cases hround
  | cut fed added =>
    obtain ⟨len, -, hsegments, -⟩ := push_eq added
    refine h.append hsegments ⟨?_, fun _ => ⟨_, rfl, fed⟩, fun _ => ⟨rfl, rfl, rfl, rfl, rfl⟩, ?_⟩
    · intro hrapid
      cases hrapid
    · intro hround
      cases hround
  | @arc _ _ _ _ _ kind f round fed added =>
    obtain ⟨shape, len, -, hsegments⟩ := addArc_eq added
    have hname := plane.name_of_isLinear hplane
    refine h.append hsegments ⟨?_, fun _ => ⟨f, rfl, fed⟩, ?_,
      fun _ => ⟨rfl, rfl, rfl, rfl, by simpa using hname⟩⟩
    · intro hrapid
      rw [show kind = .rapid from hrapid] at round
      cases round
    · intro hstraight
      rw [show kind.isArc = false from hstraight] at round
      cases round

/-- A custom action that leaves the modal groups alone. Feed, speed, offsets and position may become
any. -/
def SparesModes (a : Action) : Prop := ∀ b m, (a b m).machine.modes = m.modes

theorem Table.mem_entries_of_get? {κ ν : Type} [BEq κ] {t : Table κ ν} {k : κ} {v : ν}
    (h : t.get? k = some v) : ∃ e ∈ t.entries, e.2 = v := by
  obtain ⟨e, he, rfl⟩ := Option.map_eq_some_iff.mp h
  exact ⟨e, List.mem_of_find?_eq_some he, rfl⟩

namespace Station
variable {s t : Station}

structure Sound (s : Station) : Prop where
  path : s.control.path.WellFormed
  plane : s.machine.plane.isLinear = true
  actions : ∀ e ∈ s.actions.entries, SparesModes e.2

/-- Only path, plane and actions count. -/
theorem Sound.congr (h : s.Sound) (hpath : t.control.path = s.control.path)
    (hplane : t.machine.plane = s.machine.plane) (hactions : t.actions = s.actions) : t.Sound :=
  ⟨by rw [hpath]; exact h.path, by rw [hplane]; exact h.plane, by rw [hactions]; exact h.actions⟩

theorem Sound.executeCustom (h : s.Sound) (code : Number) (b : Block Number) :
    (Auxiliary.executeCustom code b s).2.Sound := by
  unfold Auxiliary.executeCustom
  split
  · exact h.congr rfl rfl rfl
  · rename_i a ha
    obtain ⟨e, he, rfl⟩ := Table.mem_entries_of_get? ha
    have hplane : (e.2 b s.machine).machine.plane = s.machine.plane := by
      rw [Machine.plane, h.actions e he b s.machine]
      rfl
    simp only [foldl_report]
    split <;> exact h.congr rfl hplane rfl

theorem Sound.executeM (h : s.Sound) (code : Number) (b : Block Number) :
    (Auxiliary.execute code b s).station.Sound := by
  unfold Auxiliary.execute
  split
  · rename_i m _
    obtain ⟨⟨speed, tool, hmachine⟩, hpath, hactions⟩ :=
      (Auxiliary.executeBuiltin_effect m code b s).rests
    exact h.congr hpath (by rw [machine, hmachine]; rfl) hactions
  · split
    · exact h
    · exact h.executeCustom code b
    · exact h.congr rfl rfl rfl

theorem Sound.executeG (h : s.Sound) (code : Number) (b : Block Number) :
    Sound { s with control := (Motion.execute code b s.control).2 } := by
  obtain ⟨hpath, hplane⟩ := Motion.execute_draws code b s.control
  exact ⟨hpath.wellFormed h.plane h.path, hplane h.plane, h.actions⟩

theorem Sound.register {code : Number} {a : Action} (h : s.Sound) (ha : SparesModes a)
    (hs : Auxiliary.register code a s = .ok t) : t.Sound := by
  obtain ⟨custom, -, hs⟩ := bind_ok_iff.mp hs
  split at hs
  · cases hs
    refine ⟨h.path, h.plane, fun e he => ?_⟩
    rcases Table.mem_entries_put he with hold | rfl | ⟨-, hnew⟩
    · exact h.actions e hold
    · exact ha
    · rw [hnew]
      exact ha
  · cases hs

theorem sound_initial : (initial : Station).Sound :=
  ⟨Toolpath.wellFormed_empty, rfl, fun _ he => absurd he List.not_mem_nil⟩

/-- Clearing the path leaves nothing to be ill formed. -/
theorem Sound.clear (h : s.Sound) (hpath : t.control.path = .empty)
    (hplane : t.machine.plane = s.machine.plane) (hactions : t.actions = s.actions) : t.Sound :=
  ⟨by rw [hpath]; exact Toolpath.wellFormed_empty, by rw [hplane]; exact h.plane, by
    rw [hactions]; exact h.actions⟩

end Station

namespace Interpreter

theorem process_sound (text : String) {t : Interpreter} (h : t.station.Sound) :
    (t.process text).1.station.Sound :=
  process_station (fun _ _ hs hpath hplane hactions => hs.congr hpath hplane hactions)
    (fun code b _ hs => hs.executeM code b)
    (fun code b _ hs => hs.executeG code b) text t (h.clear rfl rfl rfl)

end Interpreter

namespace Session
variable {s : Session}

theorem after_sound (h : s.interpreter.station.Sound) {r : Request}
    (hr : ∀ code a, r = .register code a → SparesModes a) :
    (s.after r).interpreter.station.Sound := by
  cases r with
  | process text => exact Interpreter.process_sound text h
  | validate text =>
    simp only [after, validate, Interpreter.validate]
    split
    · exact h
    · exact h.congr rfl rfl rfl
  | register code a =>
    simp only [after]
    split
    · rename_i station hs
      exact h.register (hr code a rfl) hs
    · exact h
  | reset => exact h.clear rfl rfl rfl

/-- In every session, whatever it processes and with whatever actions that leave the modal groups
alone, every segment is well formed: no rapid move has a feed, every cut and every arc has one that
is not zero or below, straight moves have no field of an arc, and arcs have them all and lie in a
plane of two linear axes. -/
theorem segments_wellFormed (requests : List Request)
    (hactions : ∀ code a, .register code a ∈ requests → SparesModes a) :
    ∀ s ∈ (afterAll requests).path.segments, s.WellFormed := by
  have hfrom : ∀ s : Session, s.interpreter.station.Sound →
      (requests.foldl after s).interpreter.station.Sound := by
    induction requests with
    | nil => exact fun s h => h
    | cons r rs ih =>
      intro s h
      refine ih (fun code a ha => hactions code a (List.mem_cons_of_mem r ha)) _
        (after_sound h fun code a hr => ?_)
      exact hactions code a (hr ▸ List.mem_cons_self)
  exact (hfrom .initial Station.sound_initial).path

def feedRequests : List Request :=
  [.register (.int 100) feedAction, .process "M100 P50\nG1 X5\nG0 Y1", .process "G1 X10\nG28"]

theorem segments_wellFormed_feedAction :
    (∀ code a, .register code a ∈ feedRequests → SparesModes a) ∧
      (afterAll feedRequests).path.segments.map (·.kind) = [.feed, .rapid] ∧
      ∀ s ∈ (afterAll feedRequests).path.segments, s.WellFormed := by
  have hactions : ∀ code a, .register code a ∈ feedRequests → SparesModes a := by
    intro code a h
    simp only [feedRequests, List.mem_cons, Request.register.injEq, reduceCtorEq, List.not_mem_nil,
      or_self, or_false] at h
    rw [h.2]
    exact fun b m => rfl
  exact ⟨hactions, by decide +kernel, segments_wellFormed feedRequests hactions⟩

end Session
end Machining
