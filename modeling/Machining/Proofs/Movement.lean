import Machining.Auxiliary

namespace Machining

namespace Toolpath
variable {α : Type} [Scalar α] {t t' : Toolpath α}

def push (t : Toolpath α) (s : Segment α) (share : Share) : Except Fault (Toolpath α) :=
  succeeded (t.insert s share)

/-- What adding a segment comes to: where nothing fails, the order of the updates does not
matter. -/
theorem push_bind (t : Toolpath α) (s : Segment α) (share : Share) : t.push s share = do
    let s ← { s with id := t.nextId }.measured
    return {
      segments := t.segments ++ [s]
      byLine := t.byLine.put s.line ((t.byLine.get? s.line).getD [] ++ [t.nextId])
      nextId := t.nextId + 1
      totalLength := ← Scalar.add t.totalLength s.travel
      rapidLength := ← if share = .rapid then Scalar.add t.rapidLength s.travel
        else pure t.rapidLength
      feedLength :=
        ← if share = .feed then Scalar.add t.feedLength s.travel else pure t.feedLength } := by
  unfold push insert
  cases ({ s with id := t.nextId } : Segment α).measured with
  | error f => rfl
  | ok s =>
    simp only [given, credit, bind, Except.bind]
    cases Scalar.add t.totalLength s.travel with
    | error f => rfl
    | ok total =>
      cases share with
      | rapid => cases Scalar.add t.rapidLength s.travel <;> rfl
      | feed => cases Scalar.add t.feedLength s.travel <;> rfl
      | neither => rfl

theorem addArc_bind (t : Toolpath α) (start stop center : Point α) (line : Int) (kind : MoveKind)
    (plane : String) (feed : Option α) :
    t.addArc start stop center line kind plane feed =
      (ArcShape.ofPoints start stop center plane >>= fun shape =>
      t.push ⟨0, line, kind, start, stop, some center, some shape.radius, some shape.startAngle,
        some shape.endAngle, some plane, feed, none⟩ .feed) := by
  unfold addArc insertArc
  cases ArcShape.ofPoints start stop center plane <;> rfl

/-- Adding a segment appends it, with the next free id and its measured length, and lists that id
for its line. -/
theorem push_eq {s : Segment α} {share : Share} (h : t.push s share = .ok t') :
    ∃ len, ({ s with id := t.nextId } : Segment α).measure = .ok len ∧
      t'.segments = t.segments ++ [{ s with id := t.nextId, length := some len }] ∧
      t'.byLine = t.byLine.put s.line ((t.byLine.get? s.line).getD [] ++ [t.nextId]) ∧
      t'.nextId = t.nextId + 1 := by
  simp only [push_bind, Segment.measured, bind_ok_iff] at h
  obtain ⟨_, ⟨len, hlen, hs⟩, total, _, h⟩ := h
  cases hs
  -- which of the running lengths grow does not matter here
  split at h <;> obtain ⟨rapid, _, h⟩ := bind_ok_iff.mp h <;>
    split at h <;> obtain ⟨feed, _, h⟩ := bind_ok_iff.mp h <;> cases h <;>
    exact ⟨len, hlen, rfl, rfl, rfl⟩

/-- A straight move leaves a segment between the ends it was given. -/
theorem addLinear_segments {start stop : Point α} {line : Int} {kind : MoveKind} {feed : Option α}
    (h : t.addLinear start stop line kind feed = .ok t') :
    ∃ s, t'.segments = t.segments ++ [s] ∧ s.line = line ∧ s.start = start ∧ s.stop = stop := by
  obtain ⟨len, _, hs, _⟩ := push_eq h
  exact ⟨_, hs, rfl, rfl, rfl⟩

/-- An arc is added with the shape that its points give it. -/
theorem addArc_eq {start stop center : Point α} {line : Int} {kind : MoveKind} {plane : String}
    {feed : Option α} (h : t.addArc start stop center line kind plane feed = .ok t') :
    ∃ shape len, ArcShape.ofPoints start stop center plane = .ok shape ∧
      t'.segments = t.segments ++ [⟨t.nextId, line, kind, start, stop, some center,
        some shape.radius, some shape.startAngle, some shape.endAngle, some plane, feed,
        some len⟩] := by
  rw [addArc_bind] at h
  obtain ⟨shape, hshape, hpush⟩ := bind_ok_iff.mp h
  obtain ⟨len, _, hs, _⟩ := push_eq hpush
  exact ⟨shape, len, hshape, hs⟩

theorem addArc_segments {start stop center : Point α} {line : Int} {kind : MoveKind}
    {plane : String} {feed : Option α}
    (h : t.addArc start stop center line kind plane feed = .ok t') :
    ∃ s, t'.segments = t.segments ++ [s] ∧ s.line = line ∧ s.start = start ∧ s.stop = stop ∧
      s.plane = some plane := by
  obtain ⟨shape, len, _, hs⟩ := addArc_eq h
  exact ⟨_, hs, rfl, rfl, rfl, rfl⟩

end Toolpath

/-- The tool and its path are where they were; modes, offsets, settings and reports may differ. -/
structure Controller.Still {α : Type} (c d : Controller α) : Prop where
  path : d.path = c.path
  position : d.machine.position = c.machine.position
  previous : d.machine.previous = c.machine.previous

def Diagnostic.opening (d : Diagnostic) : Option Char := d.message.toList.head?

/-- A message opens with its first part. -/
theorem Diagnostic.opening_append {first rest : String} {c : Char}
    (h : first.toList.head? = some c) : (first ++ rest).toList.head? = some c := by
  rw [String.toList_append, List.head?_append, h]
  rfl

namespace Motion
variable {α : Type} {c d : Controller α}

theorem still_setMode (c : Controller α) (g : ModalGroup) (code : Number) :
    c.Still (c.setMode g code) :=
  ⟨rfl, rfl, rfl⟩

variable [Scalar α] {b : Block α} {c' e : Controller α} {r : Result α}

structure Fed (b : Block α) (c d : Controller α) : Prop where
  feed : d.machine.feed = c.machine.feed ∨
    ∃ f, b.param .f = some f ∧ Scalar.holdsOfZero .le f = .ok false ∧ d.machine.feed = f
  speed : d.machine.speed = c.machine.speed
  feedMode : d.machine.modes.feedMode = c.machine.modes.feedMode

theorem Fed.trans (h : Fed b c d) (h' : Fed b d e) : Fed b c e := by
  refine ⟨?_, h'.speed.trans h.speed, h'.feedMode.trans h.feedMode⟩
  rcases h'.feed with h' | h'
  · rcases h.feed with h | ⟨f, hf, hle, h⟩
    · exact .inl (h'.trans h)
    · exact .inr ⟨f, hf, hle, h'.trans h⟩
  · exact .inr h'

theorem Fed.eq (h : Fed b c d) (hf : b.param .f = none) : d.machine.feed = c.machine.feed := by
  rcases h.feed with h | ⟨f, hsome, _⟩
  · exact h
  · rw [hf] at hsome
    cases hsome

/-- What a report says on a code that is refused. It is on the line of the block as a whole, is not
about a control word, asks for a speed in no case, and for a feed only where there is none. -/
structure Refusal (b : Block α) (c : Controller α) (e : Diagnostic) : Prop where
  line : e.line = b.line
  columns : e.start = 0 ∧ e.stop = 0
  category : e.category = .semantic ∨ e.category = .runtime
  severity : e.severity = .error
  control : e.opening ≠ some 'I'
  speed : e.opening ≠ some 'S'
  feed : e.opening = some 'N' → b.param .f = none ∧ Scalar.holdsOfZero .le c.machine.feed = .ok true

/-- What a code of a block comes to. A refusal makes one report on the line of the block; a move
adds one segment of that line to the path, from where the tool was to where it is. -/
inductive Effect (b : Block α) (c : Controller α) : Result α → Prop where
  | stays {d : Controller α} {outcome : Except Fault Bool} (still : c.Still d) (fed : Fed b c d)
      (reports : d.reports = c.reports) (accepted : outcome ≠ .ok false) : Effect b c ⟨d, outcome⟩
  | refuses {d : Controller α} (still : c.Still d) (fed : Fed b c d) (e : Diagnostic)
      (refusal : Refusal b c e) (reports : d.reports = c.reports ++ [e]) : Effect b c ⟨d, .ok false⟩
  | moves {d : Controller α} (fed : Fed b c d) (s : Segment α)
      (path : d.path.segments = c.path.segments ++ [s]) (on : s.line = b.line)
      (start : s.start = c.machine.position.point) (stop : s.stop = d.machine.position.point)
      (previous : d.machine.previous = c.machine.position) (reports : d.reports = c.reports)
      (added : ∃ s share, c.path.push s share = .ok d.path) : Effect b c ⟨d, .ok true⟩

theorem Effect.fed (e : Effect b c r) : Fed b c r.controller := by
  cases e with
  | stays _ fed _ _ | refuses _ fed _ _ _ | moves fed _ _ _ _ _ _ _ _ => exact fed

/-- What a code reports. -/
theorem Effect.newReports (e : Effect b c r) :
    ∃ more, r.controller.reports = c.reports ++ more ∧ ∀ e ∈ more, Refusal b c e := by
  cases e with
  | stays _ _ reports _ => exact ⟨[], by simp [reports], by simp⟩
  | refuses _ _ e refusal reports => exact ⟨[e], reports, by simpa using refusal⟩
  | moves _ _ _ _ _ _ _ reports _ => exact ⟨[], by simp [reports], by simp⟩

theorem done_effect (h : c.Still d) (hf : Fed b c d) (hr : d.reports = c.reports) :
    Effect b c (done d) :=
  .stays h hf hr (by simp)

theorem Effect.of_still (h : c.Still c') (hf : Fed b c c') (hr : c'.reports = c.reports)
    (e : Effect b c' r) : Effect b c r := by
  cases e with
  | stays still fed reports accepted =>
    exact .stays ⟨still.path.trans h.path, still.position.trans h.position,
      still.previous.trans h.previous⟩ (hf.trans fed) (reports.trans hr) accepted
  | refuses still fed e refusal reports =>
    refine .refuses ⟨still.path.trans h.path, still.position.trans h.position,
      still.previous.trans h.previous⟩ (hf.trans fed) e { refusal with feed := ?_ }
      (by rw [reports, hr])
    intro hn
    obtain ⟨hnone, hle⟩ := refusal.feed hn
    rw [hf.eq hnone] at hle
    exact ⟨hnone, hle⟩
  | moves fed s path on start stop previous reports added =>
    exact .moves (hf.trans fed) s (by rw [path, h.path]) on (by rw [start, h.position]) stop
      (previous.trans h.position) (reports.trans hr) (by rw [← h.path]; exact added)

theorem refuse_effect {message : String} (h : Refusal b c (.onLine b.line .semantic message)) :
    Effect b c (refuse c b message) :=
  .refuses ⟨rfl, rfl, rfl⟩ ⟨.inl rfl, rfl, rfl⟩ (.onLine b.line .semantic message) h rfl

/-- Most refusals have nothing to do with settings. -/
theorem refusal_of_opening {category : Category} {message : String}
    (hc : category = .semantic ∨ category = .runtime) (first : Char)
    (h : message.toList.head? = some first) (hi : first ≠ 'I') (hs : first ≠ 'S')
    (hn : first ≠ 'N') : Refusal b c (.onLine b.line category message) := by
  have hop : (Diagnostic.onLine b.line category message).opening = some first := h
  refine ⟨rfl, ⟨rfl, rfl⟩, hc, rfl, ?_, ?_, ?_⟩
  · rw [hop]
    simpa using hi
  · rw [hop]
    simpa using hs
  · intro hN
    rw [hop] at hN
    exact absurd (Option.some.inj hN) hn

/-- A fault leaves the controller as it was, so only the way on matters. -/
theorem of_effect {β : Type} {v : Except Fault β} {next : β → Result α}
    (h : ∀ x, v = .ok x → Effect b c (next x)) : Effect b c (Result.of c v next) := by
  cases v with
  | error f => exact .stays ⟨rfl, rfl, rfl⟩ ⟨.inl rfl, rfl, rfl⟩ rfl (by simp)
  | ok x => exact h x rfl

theorem travel_effect (c : Controller α) (p : Axes α) (kind : MoveKind) (feed : Option α) :
    Effect b c (travel c b.line p kind feed) := by
  apply of_effect
  intro path h
  obtain ⟨s, hs, hon, hstart, hstop⟩ := Toolpath.addLinear_segments h
  exact .moves ⟨.inl rfl, rfl, rfl⟩ s hs hon hstart hstop rfl rfl ⟨_, _, h⟩

theorem rapid_effect (b : Block α) (c : Controller α) : Effect b c (rapid b c) := by
  apply Effect.of_still (still_setMode c .motion (.int 0)) ⟨.inl rfl, rfl, rfl⟩ rfl
  unfold rapid
  split
  · apply of_effect
    intro p _
    exact travel_effect _ p .rapid none
  · exact done_effect ⟨rfl, rfl, rfl⟩ ⟨.inl rfl, rfl, rfl⟩ rfl

def feeding (c : Controller α) (f : α) : Controller α :=
  { c with machine := { c.machine with feed := f } }

/-- Once there is a feed, which is not zero or below, the move goes on; else nothing is done but to
report. -/
theorem withFeed_cases (code : Int) (b : Block α) (c : Controller α)
    (next : Controller α → Result α) :
    (∃ reports outcome, outcome ≠ .ok true ∧
      withFeed code b c next = ⟨{ c with reports }, outcome⟩) ∨
      ∃ f, Scalar.holdsOfZero .le f = .ok false ∧ withFeed code b c next = next (feeding c f) := by
  unfold withFeed
  cases b.param .f with
  | some f =>
    simp only
    cases hle : Scalar.holdsOfZero .le f with
    | error e => exact .inl ⟨c.reports, .error e, by simp, rfl⟩
    | ok nonpositive =>
      cases nonpositive with
      | true => exact .inl ⟨_, .ok false, by simp, rfl⟩
      | false => exact .inr ⟨f, hle, rfl⟩
  | none =>
    simp only
    cases hle : Scalar.holdsOfZero .le c.machine.feed with
    | error e => exact .inl ⟨c.reports, .error e, by simp, rfl⟩
    | ok nonpositive =>
      cases nonpositive with
      | true => exact .inl ⟨_, .ok false, by simp, rfl⟩
      | false => exact .inr ⟨c.machine.feed, hle, rfl⟩

/-- Taking the feed moves nothing, so a feed move does what follows the check. -/
theorem withFeed_effect {code : Int} {next : Controller α → Result α}
    (h : ∀ d, Effect b d (next d)) : Effect b c (withFeed code b c next) := by
  unfold withFeed
  split
  · rename_i f hf
    apply of_effect
    intro nonpositive hle
    split
    · exact refuse_effect
        (refusal_of_opening (.inl rfl) 'F' (Diagnostic.opening_append (by decide))
          (by decide) (by decide)
          (by decide))
    · rename_i hpos
      have hok : Scalar.holdsOfZero .le f = .ok false := by simpa [hpos] using hle
      let d : Controller α := { c with machine := { c.machine with feed := f } }
      have hd : c.Still d := ⟨rfl, rfl, rfl⟩
      have hfed : Fed b c d := ⟨.inr ⟨f, hf, hok, rfl⟩, rfl, rfl⟩
      exact Effect.of_still hd hfed rfl (h d)
  · rename_i hf
    apply of_effect
    intro nonpositive hle
    split
    · rename_i hpos
      have hok : Scalar.holdsOfZero .le c.machine.feed = .ok true := by simpa [hpos] using hle
      have hop : (Diagnostic.onLine b.line .semantic
          s!"No feed rate specified for G{code} move").opening =
          some 'N' := Diagnostic.opening_append (Diagnostic.opening_append (by decide))
      exact refuse_effect ⟨rfl, ⟨rfl, rfl⟩, .inl rfl, rfl, by rw [hop]; decide, by rw [hop]; decide,
        fun _ => ⟨hf, hok⟩⟩
    · exact h c

theorem linear_effect (b : Block α) (c : Controller α) : Effect b c (linear b c) := by
  apply Effect.of_still (still_setMode c .motion (.int 1)) ⟨.inl rfl, rfl, rfl⟩ rfl
  apply withFeed_effect
  intro d
  split
  · apply of_effect
    intro p _
    exact travel_effect d p .feed _
  · exact done_effect ⟨rfl, rfl, rfl⟩ ⟨.inl rfl, rfl, rfl⟩ rfl

theorem arc_effect (kind : MoveKind) (code : Int) (b : Block α) (c : Controller α) :
    Effect b c (arc kind code b c) := by
  apply Effect.of_still (still_setMode c .motion (.int code)) ⟨.inl rfl, rfl, rfl⟩ rfl
  apply withFeed_effect
  intro d
  split
  · apply of_effect
    intro p _
    apply of_effect
    intro center _
    apply of_effect
    intro path h
    obtain ⟨s, hs, hon, hstart, hstop, -⟩ := Toolpath.addArc_segments h
    rw [Toolpath.addArc_bind] at h
    obtain ⟨shape, -, hpush⟩ := bind_ok_iff.mp h
    exact .moves ⟨.inl rfl, rfl, rfl⟩ s hs hon hstart hstop rfl rfl ⟨_, _, hpush⟩
  · exact done_effect ⟨rfl, rfl, rfl⟩ ⟨.inl rfl, rfl, rfl⟩ rfl

theorem dwell_effect (b : Block α) (c : Controller α) : Effect b c (dwell b c) := by
  have hrefuse : Effect b c (refuse c b "G4 requires positive P value (seconds)") :=
    refuse_effect (refusal_of_opening (.inl rfl) 'G' (by decide) (by decide)
      (by decide) (by decide))
  unfold dwell
  split
  · apply of_effect
    intro negative _
    split
    · exact hrefuse
    · exact done_effect ⟨rfl, rfl, rfl⟩ ⟨.inl rfl, rfl, rfl⟩ rfl
  · exact hrefuse

theorem home_effect (b : Block α) (c : Controller α) : Effect b c (home b c) := by
  apply of_effect
  intro p _
  exact travel_effect c p .rapid none

/-- Shifting coordinates ends well or with a fault, and never moves the tool. -/
theorem shiftAxes_effect (b : Block α) (is : List Axis) (c : Controller α) :
    Effect b c (shiftAxes b is c) := by
  induction is generalizing c with
  | nil => exact done_effect ⟨rfl, rfl, rfl⟩ ⟨.inl rfl, rfl, rfl⟩ rfl
  | cons i rest ih =>
    unfold shiftAxes
    split
    · exact ih c
    · apply of_effect
      intro d _
      have hd : c.Still { c with machine := c.machine.setShift i d } := ⟨rfl, rfl, rfl⟩
      exact Effect.of_still hd ⟨.inl rfl, rfl, rfl⟩ rfl (ih _)

def shifted (c : Controller α) (shift : Axes α) : Controller α :=
  { c with machine := { c.machine with shift } }

/-- Where every difference has a result, the named ones of the axes are shifted by it. -/
theorem shiftAxes_eq {d : Axis → α} (b : Block α) (is : List Axis) (c : Controller α)
    (h : ∀ i v, b.axis i = some v → Scalar.sub (c.machine.position.get i) v = .ok (d i)) :
    shiftAxes b is c =
      done (shifted c (.ofFn fun i => if i ∈ is ∧ (b.axis i).isSome then d i
        else c.machine.shift.get i)) := by
  induction is generalizing c with
  | nil =>
    have hsame : (Axes.ofFn fun i => if i ∈ [] ∧ (b.axis i).isSome then d i
        else c.machine.shift.get i) =
        c.machine.shift := by
      ext i
      simp
    rw [hsame]
    rfl
  | cons i rest ih =>
    unfold shiftAxes
    cases hv : b.axis i with
    | none =>
      refine (ih c h).trans (congrArg (fun s => done (shifted c s)) ?_)
      ext j
      by_cases hj : j = i
      · simp [hj, hv]
      · simp [hj]
    | some v =>
      simp only [h i v hv, Result.of]
      -- the differences are those of the tool, which shifting an axis does not move
      refine (ih { c with machine := c.machine.setShift i (d i) } h).trans
        (congrArg (fun s => done (shifted c s)) ?_)
      ext j
      by_cases hj : j = i
      · simp [hj, hv, Machine.setShift]
      · simp [hj, Machine.setShift]

theorem shift_effect (b : Block α) (c : Controller α) : Effect b c (shift b c) := by
  unfold shift
  split
  · exact shiftAxes_effect b Axis.all c
  · exact refuse_effect (refusal_of_opening (.inl rfl) 'G' (by decide) (by decide)
      (by decide) (by decide))

theorem perform_effect (g : GCode) (b : Block α) (c : Controller α) :
    Effect b c (perform g b c) := by
  cases g with
  | rapid => exact rapid_effect b c
  | linear => exact linear_effect b c
  | arcCw => exact arc_effect .arcCw 2 b c
  | arcCcw => exact arc_effect .arcCcw 3 b c
  | dwell => exact dwell_effect b c
  | offsetData =>
    exact refuse_effect (refusal_of_opening (.inl rfl) 'G' (by decide) (by decide)
      (by decide) (by decide))
  | home => exact home_effect b c
  | shift => exact shift_effect b c
  | planeXY | planeXZ | planeYZ =>
    exact done_effect (still_setMode c .plane _) ⟨.inl rfl, rfl, rfl⟩ rfl
  | inches | millimeters => exact done_effect (still_setMode c .units _) ⟨.inl rfl, rfl, rfl⟩ rfl
  | absolute | incremental =>
    exact done_effect (still_setMode c .distance _) ⟨.inl rfl, rfl, rfl⟩ rfl

/-- With faults reported, a code that fails is one that stays and makes a report. -/
theorem execute_effect (code : Number) (b : Block α) (c : Controller α) :
    Effect b c ⟨(execute code b c).2, .ok (execute code b c).1⟩ := by
  unfold execute
  split
  · exact .refuses ⟨rfl, rfl, rfl⟩ ⟨.inl rfl, rfl, rfl⟩ _
      (refusal_of_opening (.inl rfl) 'U' (Diagnostic.opening_append (by decide))
        (by decide) (by decide)
        (by decide)) rfl
  · rename_i g _
    have h := perform_effect g b c
    generalize perform g b c = r at h
    cases h with
    | @stays d outcome still fed reports accepted =>
      cases outcome with
      | ok ok =>
        have hok : ok = true := by simpa using accepted
        subst hok
        exact .stays still fed reports (by simp)
      | error f =>
        let e := Diagnostic.onLine b.line .runtime s!"Error executing G{code.text}: {f.message}"
        have hr : (d.report e).reports = c.reports ++ [e] := by simp [Controller.report, reports]
        have he : Refusal b c e := refusal_of_opening (.inr rfl) 'E'
          (Diagnostic.opening_append
            (Diagnostic.opening_append (Diagnostic.opening_append (by decide))))
          (by decide) (by decide) (by decide)
        exact .refuses ⟨still.path, still.position, still.previous⟩ ⟨fed.feed, fed.speed,
          fed.feedMode⟩ e he hr
    | refuses still fed e refusal reports => exact .refuses still fed e refusal reports
    | moves fed s path on start stop previous reports added =>
      exact .moves fed s path on start stop previous reports added

theorem executeAll_single (code : Number) (b : Block α) (c : Controller α) :
    executeAll b [code] c = execute code b c := by
  simp only [executeAll]
  generalize execute code b c = x
  obtain ⟨ok, d⟩ := x
  cases ok <;> rfl

/-- What every code keeps, a row of codes keeps. -/
theorem executeAll_keeps {P : Controller α → Prop} (step : ∀ code d, P d → P (execute code b d).2)
    (codes : List Number) (c : Controller α) (h : P c) : P (executeAll b codes c).2 := by
  induction codes generalizing c with
  | nil => exact h
  | cons code rest ih =>
    have hc := step code c h
    unfold executeAll
    split
    · rename_i d he
      rw [he] at hc
      exact ih d hc
    · rename_i d he
      rw [he] at hc
      exact hc

end Motion

structure Station.Rests (s t : Station) : Prop where
  machine : ∃ speed tool, t.control.machine = { s.control.machine with speed, tool }
  path : t.control.path = s.control.path
  actions : t.actions = s.actions

namespace Auxiliary
variable {b : Block Number} {s t u : Station} {r : Result}

def Sped (b : Block Number) (s t : Station) : Prop :=
  t.machine.speed = s.machine.speed ∨ b.param .s = some t.machine.speed

theorem Sped.eq (h : Sped b s t) (hs : b.param .s = none) : t.machine.speed = s.machine.speed := by
  rcases h with h | h
  · exact h
  · rw [hs] at h
    cases h

/-- What a report says on a code. It is on the line of the block as a whole, is not about a control
word, and asks for a speed only where there is none. -/
structure Remark (b : Block Number) (s : Station) (e : Diagnostic) : Prop where
  line : e.line = b.line
  columns : e.start = 0 ∧ e.stop = 0
  category : e.category = .semantic ∨ e.category = .runtime
  severity : e.severity ≠ .fatal
  control : e.opening ≠ some 'I'
  speed : e.opening = some 'S' → ((b.param .s).getD s.machine.speed).holds .le (.int 0) = .ok true

inductive Effect (b : Block Number) (s : Station) : Result → Prop where
  | accepts {t : Station} {outcome : Except Fault Bool} (rests : s.Rests t) (sped : Sped b s t)
      (reports : t.control.reports = s.control.reports) (accepted : outcome ≠ .ok false) :
      Effect b s ⟨t, outcome⟩
  | remarks {t : Station} {ok : Bool} (rests : s.Rests t) (sped : Sped b s t) (e : Diagnostic)
      (remark : Remark b s e) (reports : t.control.reports = s.control.reports ++ [e]) :
      Effect b s ⟨t, .ok ok⟩

theorem Effect.rests (e : Effect b s r) : s.Rests r.station := by
  cases e with
  | accepts rests _ _ _ | remarks rests _ _ _ _ => exact rests

theorem Effect.sped (e : Effect b s r) : Sped b s r.station := by
  cases e with
  | accepts _ sped _ _ | remarks _ sped _ _ _ => exact sped

/-- What a code reports. -/
theorem Effect.newReports (e : Effect b s r) :
    ∃ more, r.station.control.reports = s.control.reports ++ more ∧ ∀ e ∈ more, Remark b s e := by
  cases e with
  | accepts _ _ reports _ => exact ⟨[], by simp [reports], by simp⟩
  | remarks _ _ e remark reports => exact ⟨[e], reports, by simpa using remark⟩

theorem rests_refl (s : Station) :
    s.Rests s := ⟨⟨s.control.machine.speed, s.control.machine.tool, rfl⟩, rfl, rfl⟩

/-- Most remarks have nothing to do with the speed. -/
theorem remark_of_opening {e : Diagnostic} (hline : e.line = b.line)
    (hcol : e.start = 0 ∧ e.stop = 0) (hcat : e.category = .semantic ∨ e.category = .runtime)
    (hsev : e.severity ≠ .fatal) (first : Char)
    (h : e.message.toList.head? = some first) (hi : first ≠ 'I') (hs : first ≠ 'S') :
    Remark b s e := by
  refine ⟨hline, hcol, hcat, hsev, ?_, ?_⟩
  · rw [Diagnostic.opening, h]
    simpa using hi
  · intro hop
    rw [Diagnostic.opening, h] at hop
    exact absurd (Option.some.inj hop) hs

theorem refuse_effect (h : s.Rests t) (hs : Sped b s t) (hr : t.control.reports = s.control.reports)
    {message : String} (hm : Remark b s (.onLine b.line .semantic message)) :
    Effect b s (refuse t b message) :=
  .remarks ⟨h.machine, h.path, h.actions⟩ hs (.onLine b.line .semantic message) hm
    (by simp [Station.report, Controller.report, hr])

def takeSpeed (b : Block Number) (s : Station) : Station :=
  s.setMachine { s.machine with speed := (b.param .s).getD s.machine.speed }

/-- A speed word is taken before the speed is checked, and no matter what the check comes to. -/
theorem startSpindle_takeSpeed (code direction : String) (b : Block Number) (s : Station) :
    startSpindle code direction b s = startSpindle code direction (.empty b.line)
      (takeSpeed b s) := by
  unfold startSpindle takeSpeed
  cases b.param .s <;> rfl

theorem startSpindle_effect (code direction : String) (b : Block Number) (s : Station) :
    Effect b s (startSpindle code direction b s) := by
  have hrests : s.Rests (takeSpeed b s) := ⟨⟨_, _, rfl⟩, rfl, rfl⟩
  have hsped : Sped b s (takeSpeed b s) := by
    cases hp : b.param .s with
    | none => exact .inl (by simp [takeSpeed, Station.machine, Station.setMachine, hp])
    | some v => exact .inr (by simp [takeSpeed, Station.machine, Station.setMachine, hp])
  have hnone : (Block.empty b.line : Block Number).param .s = none := rfl
  rw [startSpindle_takeSpeed]
  simp only [startSpindle, hnone]
  split
  · exact .accepts hrests hsped rfl (by simp)
  · rename_i hle
    have hop : (Diagnostic.onLine b.line .semantic
        s!"Spindle speed must be set before {code}").opening =
        some 'S' := Diagnostic.opening_append (by decide)
    exact refuse_effect hrests hsped rfl
      ⟨rfl, ⟨rfl, rfl⟩, .inl rfl,
        by simp [Diagnostic.onLine, Diagnostic.error], by rw [hop]; decide, fun _ => hle⟩
  · exact .accepts ⟨hrests.machine, rfl, rfl⟩ hsped rfl (by simp)

theorem toolChange_effect (b : Block Number) (s : Station) : Effect b s (toolChange b s) := by
  unfold toolChange
  cases b.tool with
  | none => exact .accepts ⟨⟨_, _, rfl⟩, rfl, rfl⟩ (.inl rfl) rfl (by simp)
  | some t => exact .accepts ⟨⟨_, t, rfl⟩, rfl, rfl⟩ (.inl rfl) rfl (by simp)

theorem setTool_effect (b : Block Number) (s : Station) : Effect b s (setTool b s) := by
  have hop : "M61 requires Q parameter for tool number".toList.head? = some 'M' := by decide
  unfold setTool
  split
  · exact refuse_effect (rests_refl s) (.inl rfl) rfl
      (remark_of_opening rfl ⟨rfl, rfl⟩ (.inl rfl)
        (by simp [Diagnostic.onLine, Diagnostic.error]) 'M' hop
        (by decide) (by decide))
  · split
    · exact .accepts (rests_refl s) (.inl rfl) rfl (by simp)
    · exact .accepts ⟨⟨_, _, rfl⟩, rfl, rfl⟩ (.inl rfl) rfl (by simp)

theorem switch_effect (name code : String) (b : Block Number) (s : Station) :
    Effect b s (switch name code b s) := by
  unfold switch
  split
  · exact .accepts (rests_refl s) (.inl rfl) rfl (by simp)
  · exact .accepts ⟨⟨_, _, rfl⟩, rfl, rfl⟩ (.inl rfl) rfl (by simp)

theorem perform_effect (m : MCode) (b : Block Number) (s : Station) :
    Effect b s (perform m b s) := by
  cases m with
  | spindleCw => exact startSpindle_effect "M3" "CW" b s
  | spindleCcw => exact startSpindle_effect "M4" "CCW" b s
  | toolChange => exact toolChange_effect b s
  | setTool => exact setTool_effect b s
  | feedOverride | spindleOverride | adaptiveFeed | feedStop => exact switch_effect _ _ b s
  | _ => exact .accepts ⟨⟨_, _, rfl⟩, rfl, rfl⟩ (.inl rfl) rfl (by simp)

/-- With faults reported, a built-in code that fails is one that makes a report. -/
theorem executeBuiltin_effect (m : MCode) (code : Number) (b : Block Number) (s : Station) :
    Effect b s ⟨(executeBuiltin m code b s).2, .ok (executeBuiltin m code b s).1⟩ := by
  unfold executeBuiltin
  have h := perform_effect m b s
  generalize perform m b s = r at h
  cases h with
  | @accepts t outcome rests sped reports accepted =>
    cases outcome with
    | ok ok =>
      have hok : ok = true := by simpa using accepted
      subst hok
      exact .accepts ⟨rests.machine, rests.path, rests.actions⟩ sped reports (by simp)
    | error f =>
      let e := Diagnostic.onLine b.line .runtime s!"Error executing M{code.text}: {f.message}"
      have hr : (t.report e).control.reports = s.control.reports ++ [e] := by
        simp [Station.report, Controller.report, reports]
      have he : Remark b s e := remark_of_opening rfl ⟨rfl, rfl⟩ (.inr rfl)
        (by simp [e, Diagnostic.onLine, Diagnostic.error]) 'E'
        (Diagnostic.opening_append
          (Diagnostic.opening_append (Diagnostic.opening_append (by decide)))) (by decide)
        (by decide)
      exact .remarks ⟨rests.machine, rests.path, rests.actions⟩ sped e he hr
  | remarks rests sped e remark reports =>
    exact .remarks ⟨rests.machine, rests.path, rests.actions⟩ sped e remark reports

/-- A custom code without an action is accepted with a warning. -/
theorem execute_effect (code : Number) (b : Block Number) (s : Station)
    (h : s.actions.get? code = none) : Effect b s (execute code b s) := by
  unfold execute
  split
  · exact executeBuiltin_effect _ code b s
  · split
    · exact .accepts (rests_refl s) (.inl rfl) rfl (by simp)
    · simp only [executeCustom, h]
      refine .remarks ⟨⟨_, _, rfl⟩, rfl, rfl⟩ (.inl rfl) _
        (remark_of_opening rfl ⟨rfl, rfl⟩ (.inl rfl) (by simp) 'C' ?_ (by decide) (by decide)) rfl
      exact Diagnostic.opening_append (Diagnostic.opening_append (by decide))
    · exact refuse_effect (rests_refl s) (.inl rfl) rfl
        (remark_of_opening rfl ⟨rfl, rfl⟩ (.inl rfl)
          (by simp [Diagnostic.onLine, Diagnostic.error]) 'U'
          (Diagnostic.opening_append (by decide)) (by decide) (by decide))

/-- What every code keeps, a row of codes keeps. -/
theorem executeAll_keeps {P : Station → Prop} (step : ∀ code t, P t → P (execute code b t).station)
    (codes : List Number) (s : Station) (h : P s) : P (executeAll b codes s).station := by
  induction codes generalizing s with
  | nil => exact h
  | cons code rest ih =>
    have hc := step code s h
    unfold executeAll
    split
    · rename_i t he
      rw [he] at hc
      exact ih t hc
    · exact hc

end Auxiliary
end Machining
