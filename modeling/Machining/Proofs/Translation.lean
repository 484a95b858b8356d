import Machining.Interpreter
import Machining.Proofs.ModeOrder
import Machining.Proofs.Movement
import Machining.Proofs.Reals

namespace Machining
variable {α : Type}

namespace Point
variable [Add α]

instance : Add (Point α) := ⟨fun p q => ⟨p.x + q.x, p.y + q.y, p.z + q.z⟩⟩

theorem add_def (p q : Point α) : p + q = ⟨p.x + q.x, p.y + q.y, p.z + q.z⟩ := rfl

end Point

@[simp] theorem Axes.point_add [Add α] (p q : Axes α) : (p + q).point = p.point + q.point := rfl

theorem planeCoordinates_add [Add α] (plane : String) (p v : Point α) :
    planeCoordinates plane (p + v) = planeCoordinates plane p + planeCoordinates plane v := by
  unfold planeCoordinates
  split
  · rfl
  · split <;> rfl

def Segment.translate [Add α] (v : Point α) (s : Segment α) : Segment α :=
  { s with start := s.start + v, stop := s.stop + v, center := s.center.map (· + v) }

/-- A toolpath whose segments, up to the first `n`, are moved by a vector. -/
def Toolpath.translate [Add α] (n : Nat) (v : Point α) (t : Toolpath α) : Toolpath α :=
  { t with segments := t.segments.take n ++ (t.segments.drop n).map (Segment.translate v) }

section
variable [ExactScalar α]

theorem Point.distance_translate (p q v : Point α) : (p + v).distance (q + v) = p.distance q := by
  have hdifference : (p + v).combine Scalar.sub (q + v) = p.combine Scalar.sub q := by
    simp only [Point.combine, Point.add_def, ExactScalar.sub_eq, add_sub_add_right_eq_sub]
  rw [Point.distance, hdifference, Point.distance]

theorem Segment.measure_translate (v : Point α) (s : Segment α) :
    (s.translate v).measure = s.measure := by
  simp only [Segment.measure, Segment.translate, Point.distance_translate]

theorem Segment.measured_translate (v : Point α) (s : Segment α) :
    (s.translate v).measured = s.measured.map (Segment.translate v) := by
  rw [Segment.measured, Segment.measured, measure_translate]
  cases s.measure <;> rfl

namespace ArcShape

theorem arm_translate (p c v : α × α) : arm (p + v) (c + v) = arm p c := by
  simp only [arm, Prod.fst_add, Prod.snd_add, ExactScalar.sub_eq, add_sub_add_right_eq_sub]

theorem direction_translate (p c v : α × α) : direction (p + v) (c + v) = direction p c := by
  simp only [direction, Prod.fst_add, Prod.snd_add, ExactScalar.sub_eq, add_sub_add_right_eq_sub]

theorem ofPoints_translate (p q c v : Point α) (plane : String) :
    ofPoints (p + v) (q + v) (c + v) plane = ofPoints p q c plane := by
  simp only [ofPoints, planeCoordinates_add, arm_translate, direction_translate]

end ArcShape

namespace Toolpath
variable {t : Toolpath α} {n : Nat} {v : Point α}

theorem push_translate (hn : n ≤ t.segments.length) (s : Segment α) (share : Share) :
    (t.translate n v).push (s.translate v) share = (t.push s share).map (translate n v) := by
  have hid : ({ s.translate v with id := t.nextId } : Segment α)
      = ({ s with id := t.nextId } : Segment α).translate v := rfl
  have hids : (t.translate n v).nextId = t.nextId := rfl
  rw [push_bind, push_bind, hids, hid, Segment.measured_translate]
  cases hs : ({ s with id := t.nextId } : Segment α).measured with
  | error f => rfl
  | ok s' =>
    have htake : (t.segments ++ [s']).take n = t.segments.take n := List.take_append_of_le_length hn
    have hdrop : (t.segments ++ [s']).drop n = t.segments.drop n ++ [s'] :=
      List.drop_append_of_le_length hn
    cases share <;>
      simp [Except.map, bind, Except.bind, pure, Except.pure, translate, htake, hdrop,
        Segment.translate, Segment.travel]

theorem addLinear_translate (hn : n ≤ t.segments.length) (p q : Point α) (line : Int)
    (kind : MoveKind) (feed : Option α) :
    (t.translate n v).addLinear (p + v) (q + v) line kind feed =
      (t.addLinear p q line kind feed).map (translate n v) :=
  push_translate hn ⟨0, line, kind, p, q, none, none, none, none, none, feed, none⟩ _

theorem addArc_translate (hn : n ≤ t.segments.length) (p q c : Point α) (line : Int)
    (kind : MoveKind) (plane : String) (feed : Option α) :
    (t.translate n v).addArc (p + v) (q + v) (c + v) line kind plane feed =
      (t.addArc p q c line kind plane feed).map (translate n v) := by
  rw [addArc_bind, addArc_bind, ArcShape.ofPoints_translate]
  cases ArcShape.ofPoints p q c plane with
  | error f => rfl
  | ok shape =>
    exact push_translate hn ⟨0, line, kind, p, q, some c, some shape.radius, some shape.startAngle,
      some shape.endAngle, some plane, feed, none⟩ _

end Toolpath
end

theorem Table.get?_modify {κ ν : Type} [BEq κ] (t : Table κ ν) (k : κ) (f : ν → ν) :
    (t.modify k f).get? k = (t.get? k).map f := by
  have hkey : (fun e : κ × ν => e.1 == k) ∘ (fun e => if e.1 == k then (e.1, f e.2) else e) =
      fun e => e.1 == k := by
    funext e
    simp only [Function.comp_apply]
    split <;> rfl
  rw [get?, modify, List.find?_map, hkey, get?]
  cases hfind : t.entries.find? fun e => e.1 == k with
  | none => rfl
  | some e => simp [List.find?_some hfind]

theorem Table.contains_iff_get? {κ ν : Type} [BEq κ] (t : Table κ ν) (k : κ) :
    t.contains k = (t.get? k).isSome := by
  rw [contains, get?, Option.isSome_map, List.isSome_find?]

theorem Table.contains_modify {κ ν : Type} [BEq κ] (t : Table κ ν) (k j : κ) (f : ν → ν) :
    (t.modify k f).contains j = t.contains j := by
  rw [contains, modify, List.any_map, contains]
  congr 1
  funext e
  simp only [Function.comp_apply]
  split <;> rfl

namespace Machine

def system (m : Machine α) : Number :=
  if m.systems.contains m.modes.coordinateSystem then m.modes.coordinateSystem else .int 54

def translate [Add α] (d : Axes α) (m : Machine α) : Machine α :=
  { m with position := m.position + d, systems := m.systems.modify m.system (· + d) }

section
variable [Add α] (d : Axes α) (m : Machine α)

@[simp] theorem translate_position : (m.translate d).position = m.position + d := rfl

@[simp] theorem translate_shift : (m.translate d).shift = m.shift := rfl

@[simp] theorem translate_plane : (m.translate d).plane = m.plane := rfl

@[simp] theorem translate_isAbsolute : (m.translate d).isAbsolute = m.isAbsolute := rfl

@[simp] theorem translate_systems :
    (m.translate d).systems = m.systems.modify m.system (· + d) := rfl

end

/-- There is a first coordinate system, and centres of arcs are placed from the tool. -/
structure Movable (m : Machine α) : Prop where
  first : m.systems.contains (.int 54) = true
  incremental : m.isArcAbsolute = false

variable [ExactScalar α] {m : Machine α} {d : Axes α}

theorem offsets_eq_system (h : m.Movable) : m.systems.get? m.system = some m.offsets := by
  have hfirst := h.first
  rw [Table.contains_iff_get?, Option.isSome_iff_exists] at hfirst
  obtain ⟨o, ho⟩ := hfirst
  cases hactive : m.systems.get? m.modes.coordinateSystem with
  | none => simp [system, offsets, Table.contains_iff_get?, hactive, ho]
  | some a => simp [system, offsets, Table.contains_iff_get?, hactive]

theorem system_translate : (m.translate d).system = m.system := by
  simp only [system, translate_systems, Table.contains_modify]
  rfl

theorem Movable.translate (h : m.Movable) : (m.translate d).Movable :=
  ⟨by rw [translate_systems, Table.contains_modify, h.first], h.incremental⟩

theorem offsets_translate (h : m.Movable) : (m.translate d).offsets = m.offsets + d := by
  have hactive := offsets_eq_system (h.translate (d := d))
  rw [system_translate, translate_systems, Table.get?_modify, offsets_eq_system h] at hactive
  exact (Option.some.inj hactive).symm

theorem absolute_translate (h : m.Movable) (p : Axes α) :
    (m.translate d).absolute p = (m.absolute p).map (· + d) := by
  rw [absolute_exact, absolute_exact, offsets_translate h, Except.map, Except.ok.injEq]
  ext i
  simp only [translate_shift, Axes.get_add]
  abel

end Machine

namespace Motion
variable [ExactScalar α] {m : Machine α} {d : Axes α} {b : Block α}

theorem destination_translate (h : m.Movable) :
    destination (m.translate d) b = (destination m b).map (· + d) := by
  rw [destination_exact, destination_exact, Except.map, Except.ok.injEq]
  ext i
  simp only [endpoint, Axes.get_ofFn, Axes.get_add, Machine.offsets_translate h,
    Machine.translate_position, Machine.translate_shift, Machine.translate_isAbsolute]
  cases b.axis i with
  | none => rfl
  | some v =>
    simp only
    split <;> abel

theorem center_translate (h : m.Movable) : center (m.translate d) b = (center m b).map (· + d) := by
  rw [center_exact h.incremental, center_exact h.translate.incremental, Except.map, Except.ok.injEq]
  ext i
  simp only [Machine.translate_plane, Machine.translate_position, Axes.get_set, Axes.get_add]
  by_cases hsecond : i = m.plane.second
  · simp only [hsecond, if_true]
    abel
  · by_cases hfirst : i = m.plane.first
    · simp only [← hfirst, hsecond, if_true, if_false]
      abel
    · simp only [hsecond, hfirst, if_false]

/-- Of two controllers the second is moved by a vector: its segments after the first `n` lie that
much further on, and so do its tool and its active coordinate system. All else is the same, but for
where the tool was before. -/
structure Displaced (d : Axes α) (n : Nat) (c c' : Controller α) : Prop where
  machine : ∃ previous, c'.machine = { c.machine.translate d with previous }
  path : c'.path = c.path.translate n d.point
  reports : c'.reports = c.reports

structure Parallel (d : Axes α) (n : Nat) (c c' : Controller α) :
    Prop extends Displaced d n c c' where
  movable : c.machine.Movable
  count : n ≤ c.path.segments.length

structure Result.Parallel (d : Axes α) (n : Nat) (r r' : Result α) : Prop where
  outcome : r'.outcome = r.outcome
  controller : Motion.Parallel d n r.controller r'.controller

namespace Parallel
variable {n : Nat} {c c' : Controller α}

theorem done (h : Parallel d n c c') : Result.Parallel d n (done c) (done c') := ⟨rfl, h⟩

theorem report (h : Parallel d n c c') (e : Diagnostic) : Parallel d n (c.report e) (c'.report e) :=
  { machine := h.machine
    path := h.path
    reports := by simp only [Controller.report, h.reports]
    movable := h.movable
    count := h.count }

theorem refuse (h : Parallel d n c c') (message : String) :
    Result.Parallel d n (refuse c b message) (refuse c' b message) :=
  ⟨rfl, h.report _⟩

/-- Modes may change in step, except those that say which coordinate system is active and how arcs
are placed. -/
theorem setMode (h : Parallel d n c c') {g : ModalGroup}
    (hg : g ≠ .coordinateSystem ∧ g ≠ .arcDistance) (code : Number) :
    Parallel d n (c.setMode g code) (c'.setMode g code) := by
  have hactive : (c.machine.setMode g code).modes.coordinateSystem =
      c.machine.modes.coordinateSystem := by
    cases g <;> simp_all [Machine.setMode, Modes.set]
  have harcs : (c.machine.setMode g code).modes.arcDistance = c.machine.modes.arcDistance := by
    cases g <;> simp_all [Machine.setMode, Modes.set]
  obtain ⟨previous, hmachine⟩ := h.machine
  have hsystem : (c.machine.setMode g code).system = c.machine.system := by
    rw [Machine.system, hactive]
    rfl
  refine { machine := ⟨previous, ?_⟩, path := h.path, reports := h.reports,
           movable := ⟨h.movable.first, ?_⟩, count := h.count }
  · simp only [Controller.setMode, hmachine, Machine.translate, hsystem]
    rfl
  · rw [Machine.isArcAbsolute, Controller.setMode, harcs]
    exact h.movable.incremental

theorem setFeed (h : Parallel d n c c') (f : α) :
    Parallel d n { c with machine := { c.machine with feed := f } }
      { c' with machine := { c'.machine with feed := f } } := by
  obtain ⟨previous, hmachine⟩ := h.machine
  exact { machine := ⟨previous, by rw [hmachine]; rfl⟩, path := h.path, reports := h.reports,
          movable := ⟨h.movable.first, h.movable.incremental⟩, count := h.count }

/-- Values on both sides that differ by a map lead on in step. -/
theorem of (h : Parallel d n c c') {β γ : Type} {v : Except Fault β} {v' : Except Fault γ}
    {f : β → γ} {next : β → Result α} {next' : γ → Result α} (hv : v' = v.map f)
    (hnext : ∀ x, v = .ok x → Result.Parallel d n (next x) (next' (f x))) :
    Result.Parallel d n (.of c v next) (.of c' v' next') := by
  subst hv
  cases v with
  | error e => exact ⟨rfl, h⟩
  | ok x => exact hnext x rfl

theorem of_same (h : Parallel d n c c') {β : Type} {v : Except Fault β} {next next' : β → Result α}
    (hnext : ∀ x, Result.Parallel d n (next x) (next' x)) :
    Result.Parallel d n (.of c v next) (.of c' v next') := by
  cases v with
  | error e => exact ⟨rfl, h⟩
  | ok x => exact hnext x

theorem moveTo (h : Parallel d n c c') {path : Toolpath α} (hcount : n ≤ path.segments.length)
    (p : Axes α) :
    Parallel d n { c with path, machine := c.machine.moveTo p }
      { c' with path := path.translate n d.point, machine := c'.machine.moveTo (p + d) } := by
  obtain ⟨previous, hmachine⟩ := h.machine
  exact { machine := ⟨c'.machine.position, by rw [hmachine]; rfl⟩, path := rfl,
          reports := h.reports, movable := ⟨h.movable.first, h.movable.incremental⟩,
          count := hcount }

theorem position_eq (h : Parallel d n c c') : c'.machine.position = c.machine.position + d := by
  obtain ⟨previous, hmachine⟩ := h.machine
  rw [hmachine]
  rfl

theorem feed_eq (h : Parallel d n c c') : c'.machine.feed = c.machine.feed := by
  obtain ⟨previous, hmachine⟩ := h.machine
  rw [hmachine]
  rfl

theorem plane_eq (h : Parallel d n c c') : c'.machine.plane = c.machine.plane := by
  obtain ⟨previous, hmachine⟩ := h.machine
  rw [hmachine]
  rfl

theorem destination (h : Parallel d n c c') :
    destination c'.machine b = (destination c.machine b).map (· + d) := by
  obtain ⟨previous, hmachine⟩ := h.machine
  rw [hmachine, ← destination_translate h.movable]
  rfl

theorem center (h : Parallel d n c c') :
    center c'.machine b = (center c.machine b).map (· + d) := by
  obtain ⟨previous, hmachine⟩ := h.machine
  rw [hmachine, ← center_translate h.movable]
  rfl

theorem travel (h : Parallel d n c c') (line : Int) (p : Axes α) (kind : MoveKind)
    (feed : Option α) :
    Result.Parallel d n (travel c line p kind feed) (travel c' line (p + d) kind feed) := by
  have hadd :=
    Toolpath.addLinear_translate (v := d.point) h.count c.machine.position.point p.point
      line kind feed
  rw [← Axes.point_add, ← Axes.point_add, ← h.position_eq, ← h.path] at hadd
  refine h.of hadd fun path hpath => (h.moveTo ?_ p).done
  obtain ⟨s, hs, -⟩ := Toolpath.addLinear_segments hpath
  rw [hs, List.length_append]
  exact Nat.le_add_right_of_le h.count

theorem rapid (h : Parallel d n c c') : Result.Parallel d n (rapid b c) (rapid b c') := by
  have hmode := h.setMode (g := .motion) (by decide) (.int 0)
  unfold Motion.rapid
  simp only
  split
  · exact hmode.of hmode.destination fun p _ => hmode.travel _ _ _ _
  · exact hmode.done

theorem withFeed (h : Parallel d n c c') (code : Int) {next next' : Controller α → Result α}
    (hnext : ∀ {c c'}, Parallel d n c c' → Result.Parallel d n (next c) (next' c')) :
    Result.Parallel d n (withFeed code b c next) (withFeed code b c' next') := by
  unfold Motion.withFeed
  cases b.param .f with
  | some f =>
    refine h.of_same fun nonpositive => ?_
    cases nonpositive with
    | true => exact h.refuse _
    | false => exact hnext (h.setFeed f)
  | none =>
    simp only [h.feed_eq]
    refine h.of_same fun nonpositive => ?_
    cases nonpositive with
    | true => exact h.refuse _
    | false => exact hnext h

theorem linear (h : Parallel d n c c') : Result.Parallel d n (linear b c) (linear b c') := by
  refine (h.setMode (by decide) _).withFeed 1 fun {c c'} h => ?_
  split
  · rw [h.feed_eq]
    exact h.of h.destination fun p _ => h.travel _ _ _ _
  · exact h.done

theorem arc (h : Parallel d n c c') (kind : MoveKind) (code : Int) :
    Result.Parallel d n (arc kind code b c) (arc kind code b c') := by
  refine (h.setMode (by decide) _).withFeed code fun {c c'} h => ?_
  split
  · refine h.of h.destination fun p _ => h.of h.center fun center _ => ?_
    have hadd :=
      Toolpath.addArc_translate (v := d.point) h.count c.machine.position.point p.point center.point
      b.line kind c.machine.plane.name (some c.machine.feed)
    rw [← Axes.point_add, ← Axes.point_add, ← Axes.point_add, ← h.position_eq, ← h.path,
      ← h.plane_eq, ← h.feed_eq] at hadd
    rw [← h.plane_eq, ← h.feed_eq]
    refine h.of hadd fun path hpath => (h.moveTo ?_ p).done
    obtain ⟨s, hs, -⟩ := Toolpath.addArc_segments hpath
    rw [hs, List.length_append]
    exact Nat.le_add_right_of_le h.count
  · exact h.done

theorem dwell (h : Parallel d n c c') : Result.Parallel d n (dwell b c) (dwell b c') := by
  unfold Motion.dwell
  cases b.param .p with
  | none => exact h.refuse _
  | some p =>
    refine h.of_same fun negative => ?_
    cases negative with
    | true => exact h.refuse _
    | false => exact h.done

theorem home (h : Parallel d n c c') : Result.Parallel d n (home b c) (home b c') := by
  have hhome : c'.machine.absolute (.fill 0) = (c.machine.absolute (.fill 0)).map (· + d) := by
    obtain ⟨previous, hmachine⟩ := h.machine
    rw [hmachine, ← Machine.absolute_translate h.movable]
    rfl
  exact h.of hhome fun p _ => h.travel _ _ _ _

theorem perform (h : Parallel d n c c') {g : GCode} (hg : g ≠ .shift) :
    Result.Parallel d n (perform g b c) (perform g b c') := by
  cases g with
  | rapid => exact h.rapid
  | linear => exact h.linear
  | arcCw => exact h.arc .arcCw 2
  | arcCcw => exact h.arc .arcCcw 3
  | dwell => exact h.dwell
  | offsetData => exact h.refuse _
  | home => exact h.home
  | shift => exact absurd rfl hg
  | planeXY | planeXZ | planeYZ | inches | millimeters | absolute | incremental =>
    exact (h.setMode (by decide) _).done

theorem execute (h : Parallel d n c c') {code : Number}
    (hcode : GCode.ofNumber? code ≠ some .shift) :
    (execute code b c').1 = (execute code b c).1 ∧
    Parallel d n (execute code b c).2 (execute code b c').2 := by
  unfold Motion.execute
  cases hg : GCode.ofNumber? code with
  | none => exact ⟨rfl, h.report _⟩
  | some g =>
    obtain ⟨houtcome, hcontroller⟩ := h.perform (b := b) (g := g) (by rintro rfl; exact hcode hg)
    simp only [houtcome]
    cases (Motion.perform g b c).outcome with
    | ok ok => exact ⟨rfl, hcontroller⟩
    | error f => exact ⟨rfl, hcontroller.report _⟩

theorem executeAll (h : Parallel d n c c') {codes : List Number}
    (hcodes : ∀ code ∈ codes, GCode.ofNumber? code ≠ some .shift) :
    (executeAll b codes c').1 = (executeAll b codes c).1 ∧
      Parallel d n (executeAll b codes c).2 (executeAll b codes c').2 := by
  induction codes generalizing c c' with
  | nil => exact ⟨rfl, h⟩
  | cons code rest ih =>
    obtain ⟨hok, hafter⟩ := h.execute (b := b) (hcodes code List.mem_cons_self)
    unfold Motion.executeAll
    cases hleft : Motion.execute code b c with
    | mk ok c₁ =>
      cases hright : Motion.execute code b c' with
      | mk ok' c₁' =>
        rw [hleft, hright] at hok hafter
        simp only at hok
        subst hok
        cases ok' with
        | true => exact ih hafter fun code h => hcodes code (List.mem_cons_of_mem _ h)
        | false => exact ⟨rfl, hafter⟩

end Parallel

theorem sort_supported {ks : List Number}
    (h : ∀ k ∈ ks, ∃ g, GCode.ofNumber? k = some g ∧ g ≠ .shift) :
    ∃ codes, Number.sort ks = .ok codes ∧ ∀ k ∈ codes, GCode.ofNumber? k ≠ some .shift := by
  have hranked : Number.Ranked Number.rank ks := by
    apply Number.ranked_finite
    intro k hk
    obtain ⟨g, hcode, -⟩ := h k hk
    rw [GCode.value_of_ofNumber? hcode]
    rfl
  obtain ⟨codes, hcodes, hordered⟩ := Number.sort_ranked hranked
  refine ⟨codes, hcodes, fun k hk hshift => ?_⟩
  obtain ⟨g, hcode, hg⟩ := h k (hordered.perm.subset hk)
  exact hg (Option.some.inj (hcode.symm.trans hshift))

end Motion

def Motion.runBlock [Scalar α] (b : Block α) (c : Controller α) :
    Except Fault Bool × Controller α :=
  match Number.sort b.g.keys with
  | .error f => (.error f, c)
  | .ok codes => (executeAll b codes c).map .ok id

/-- This is how the program runs them. -/
theorem Interpreter.runGCodes_eq (b : Block Number) (s : Station) :
    runGCodes b s = ⟨{ s with control := (Motion.runBlock b s.control).2 },
      (Motion.runBlock b s.control).1⟩ := by
  unfold runGCodes Motion.runBlock
  cases Number.sort b.g.keys <;> rfl

namespace Motion

/-- Blocks one after the other, whether they succeed or not: what each of them returns and
leaves. -/
def trail [Scalar α] : List (Block α) → Controller α → List (Except Fault Bool × Controller α)
  | [], _ => []
  | b :: bs, c => runBlock b c :: trail bs (runBlock b c).2

variable [ExactScalar α] {c c' : Controller α} {d : Axes α} {n : Nat}

theorem Parallel.runBlock {b : Block α} (h : Parallel d n c c')
    (hcodes : ∀ k ∈ b.g.keys, ∃ g, GCode.ofNumber? k = some g ∧ g ≠ .shift) :
    (∃ ok, (runBlock b c).1 = .ok ok ∧ (Motion.runBlock b c').1 = .ok ok) ∧
      Parallel d n (Motion.runBlock b c).2 (Motion.runBlock b c').2 := by
  obtain ⟨codes, hsort, hmovable⟩ := sort_supported hcodes
  obtain ⟨hok, hafter⟩ := h.executeAll (b := b) hmovable
  simp only [Motion.runBlock, hsort, Prod.map_fst, Prod.map_snd, hok]
  exact ⟨⟨_, rfl, rfl⟩, hafter⟩

theorem Parallel.trail {bs : List (Block α)} (h : Parallel d n c c')
    (hcodes : ∀ b ∈ bs, ∀ k ∈ b.g.keys, ∃ g, GCode.ofNumber? k = some g ∧ g ≠ .shift) :
    List.Forall₂ (fun r r' => (∃ ok, r.1 = .ok ok ∧ r'.1 = .ok ok) ∧ Displaced d n r.2 r'.2)
      (trail bs c) (Motion.trail bs c') := by
  induction bs generalizing c c' with
  | nil => exact .nil
  | cons b bs ih =>
    obtain ⟨hreturns, hafter⟩ := h.runBlock (hcodes b List.mem_cons_self)
    exact .cons ⟨hreturns, hafter.toDisplaced⟩
      (ih hafter fun b hb => hcodes b (List.mem_cons_of_mem _ hb))

/-- Moving the tool and the active coordinate system by a vector moves what blocks draw by the same
vector. Step by step they return the same, make the same reports, and leave segments of the same
shape. -/
theorem trail_translate (d : Axes α) (bs : List (Block α)) (c : Controller α)
    (hmovable : c.machine.Movable)
    (hcodes : ∀ b ∈ bs, ∀ k ∈ b.g.keys, ∃ g, GCode.ofNumber? k = some g ∧ g ≠ .shift) :
    List.Forall₂ (fun r r' => (∃ ok, r.1 = .ok ok ∧ r'.1 = .ok ok) ∧
      Displaced d c.path.count r.2 r'.2)
      (trail bs c) (trail bs { c with machine := c.machine.translate d }) := by
  refine Parallel.trail ?_ hcodes
  have hpath : c.path.translate c.path.count d.point = c.path := by
    simp [Toolpath.translate, Toolpath.count]
  exact { machine := ⟨c.machine.previous, rfl⟩, path := hpath.symm, reports := rfl,
          movable := hmovable, count := Nat.le_refl _ }

def single (line code : Int) (axes : Axes (Option ℝ)) (params : Params (Option ℝ)) : Block ℝ :=
  { (Block.empty line : Block ℝ) with g := ⟨[(.int code, .int code)]⟩, axes, params }

noncomputable def sketch : List (Block ℝ) :=
  [single 1 91 (.fill none) (.fill none),
    single 2 0 ((Axes.fill none).set .x (some 1)) (.fill none),
    single 3 1 ((Axes.fill none).set .y (some 1)) ((Params.fill none).set .f (some 1)),
    single 4 18 (.fill none) (.fill none),
    single 5 2 (((Axes.fill none).set .x (some 1)).set .z (some 1))
    ((Params.fill none).set .i (some 1)), single 6 28 (.fill none) (.fill none)]

theorem trail_translate_sketch :
    (Controller.initial : Controller ℝ).machine.Movable ∧
    (∀ b ∈ sketch, ∀ k ∈ b.g.keys, ∃ g, GCode.ofNumber? k = some g ∧ g ≠ .shift) ∧
    List.Forall₂ (fun r r' => (∃ ok, r.1 = .ok ok ∧ r'.1 = .ok ok) ∧
        Displaced ⟨10, 20, -5, 0, 0, 0, 0, 0, 1⟩ 0 r.2 r'.2)
      (trail sketch .initial)
      (trail sketch { Controller.initial with
        machine := Machine.initial.translate ⟨10, 20, -5, 0, 0, 0, 0, 0, 1⟩ }) := by
  have hmovable : (Controller.initial : Controller ℝ).machine.Movable := ⟨by decide, by decide⟩
  have hcodes : ∀ b ∈ sketch, ∀ k ∈ b.g.keys, ∃ g, GCode.ofNumber? k = some g ∧ g ≠ .shift := by
    have hall : ∀ b ∈ sketch, ∀ k ∈ b.g.keys,
        (GCode.ofNumber? k).any (fun g => decide (g ≠ .shift)) = true := by decide
    simpa [Option.any_eq_true] using hall
  exact ⟨hmovable, hcodes, trail_translate _ sketch .initial hmovable hcodes⟩

end Motion
end Machining
