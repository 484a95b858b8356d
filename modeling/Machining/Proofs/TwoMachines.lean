import Machining.Proofs.BlockStep

namespace Machining

def Scope.codes : Scope where
  axes _ := True
  groups g := g ≠ .feedMode
  trail := True
  settings := False
  x := trivial
  y := trivial
  z := trivial
  whole _ _ := trivial

def Scope.settled : Scope := { Scope.codes with settings := True }

theorem Modes.ext_get {m n : Modes} (h : ∀ g, m.get g = n.get g) : m = n := by
  have motion := h .motion; have plane := h .plane; have distance := h .distance
  have arcs := h .arcDistance; have feed := h .feedMode; have units := h .units
  have comp := h .cutterComp; have length := h .toolLength; have system := h .coordinateSystem
  have control := h .pathControl; have back := h .returnMode
  cases m; cases n
  simp_all [get]

namespace Machine
variable {m n : Machine Number} {b : Block Number}

/-- The machine as if nothing had been noted on it: feed mode, feed, speed and tool of a new one. -/
def unset (m : Machine Number) : Machine Number :=
  { m with modes := m.modes.set .feedMode (.int 94), feed := 0, speed := 0, tool := .int 0 }

structure SameNotes (n m : Machine Number) : Prop where
  feed : n.feed = m.feed
  speed : n.speed = m.speed
  feedMode : n.modes.feedMode = m.modes.feedMode

theorem eq_of_unset (h : n.unset = m.unset) (hn : n.SameNotes m)
    (ht : n.tool = m.tool) : n = m := by
  simp only [unset, Machine.mk.injEq] at h
  obtain ⟨position, previous, modes, systems, shift, -, -, -, named, numbered⟩ := h
  have hmodes : n.modes = m.modes := by
    apply Modes.ext_get
    intro g
    by_cases hg : g = .feedMode
    · subst hg
      exact hn.feedMode
    · have hset := congrArg (fun k : Modes => k.get g) modes
      simpa [Modes.get_set, hg] using hset
  cases n
  cases m
  obtain ⟨feed, speed, -⟩ := hn
  simp_all

theorem Agree.shift_eq (h : m.Agree .codes n) (i : Axis) : m.shift.get i = n.shift.get i := by
  rcases h.shift i trivial with hs | ⟨ht, -⟩
  · exact hs
  · exact absurd trivial ht

theorem Agree.unset_eq (h : m.Agree .codes n) : m.unset = n.unset := by
  obtain ⟨previous, named, numbered⟩ := h.trail trivial
  have position : m.position = n.position := Axes.ext_get fun i => h.position i trivial
  have systems : m.systems = n.systems := h.left.systems.trans h.right.systems.symm
  have shift : m.shift = n.shift := Axes.ext_get h.shift_eq
  have modes : m.modes.set .feedMode (.int 94) = n.modes.set .feedMode (.int 94) := by
    apply Modes.ext_get
    intro g
    by_cases hg : g = .feedMode
    · simp [Modes.get_set, hg]
    · simp [Modes.get_set, hg, h.groups g hg]
  simp only [unset, position, previous, systems, shift, modes, named, numbered]

/-- A machine that takes the settings of the other one. -/
theorem Agree.settle (h : m.Agree .codes n) :
    ({ m with feed := n.feed, speed := n.speed } : Machine Number).Agree .settled n where
  left := { h.left with feed := h.right.feed, speed := h.right.speed }
  right := h.right
  position := h.position
  shift i _ := .inl (h.shift_eq i)
  groups := h.groups
  plane := h.plane
  absolute := h.absolute
  trail := h.trail
  feed _ := rfl
  speed _ := .inl rfl

end Machine

namespace Interpreter
variable {m n : Machine Number} {b : Block Number}

theorem note_eq (b : Block Number) (m : Machine Number) :
    note b m = { m with
      modes := m.modes.set .feedMode ((feedMode? b).getD m.modes.feedMode)
      feed := (b.param .f).getD m.feed
      speed := (b.param .s).getD m.speed
      tool := b.tool.getD m.tool } := by
  unfold note
  cases feedMode? b <;> rfl

theorem note_unset (b : Block Number) (m : Machine Number) : (note b m).unset = m.unset := by
  rw [note_eq]
  rfl

theorem noteAll_unset (bs : List (Block Number)) (m : Machine Number) :
    (noteAll bs m).unset = m.unset := by
  induction bs generalizing m with
  | nil => rfl
  | cons b bs ih => exact (ih (note b m)).trans (note_unset b m)

/-- Settings do not move the machine that they are noted on. -/
theorem noteAll_position (bs : List (Block Number)) (m : Machine Number) :
    (noteAll bs m).position = m.position := by
  change (noteAll bs m).unset.position = m.unset.position
  rw [noteAll_unset]

theorem note_sameNotes (h : n.SameNotes m) (b : Block Number) :
    (note b n).SameNotes (note b m) := by
  rw [note_eq, note_eq, h.feed, h.speed, h.feedMode]
  exact ⟨rfl, rfl, rfl⟩

theorem note_regular (h : m.Regular) (hb : b.Written) : (note b m).Regular := by
  have hfeed : ((b.param .f).getD m.feed).IsFloat := by
    cases hp : b.param .f with
    | none => exact h.feed
    | some f => exact hb.params .f f hp
  have hspeed : ((b.param .s).getD m.speed).IsFloat := by
    cases hp : b.param .s with
    | none => exact h.speed
    | some v => exact hb.params .s v hp
  rw [note_eq]
  exact { h with feed := hfeed, speed := hspeed }

/-- Noting settings on one of two machines leaves what codes go by. -/
theorem note_agree (h : m.Agree .codes n) (hb : b.Written) : m.Agree .codes (note b n) := by
  have hright := note_regular h.right hb
  rw [note_eq] at hright ⊢
  refine { h with right := hright, shift := ?_, groups := ?_, feed := ?_, speed := ?_ }
  · exact fun i _ => .inl (h.shift_eq i)
  · intro g hg
    rw [Modes.get_set, if_neg hg]
    exact h.groups g hg
  · exact fun hs => hs.elim
  · exact fun hs => hs.elim

variable {s r : Station}

/-- Codes take no settings but those of their own block, which are noted already. -/
theorem carry_sameNotes (hs : s.Bare) (h : s.machine.SameNotes (note b m)) :
    (carry s b).machine.SameNotes (note b m) := by
  have hfeed : ∀ f, b.param .f = some f → f = (note b m).feed := by
    intro f hf
    rw [note_eq, hf]
    rfl
  have hspeed : ∀ v, b.param .s = some v → v = (note b m).speed := by
    intro v hv
    rw [note_eq, hv]
    rfl
  have hkeeps :=
    runCodes_keeps (b := b) (P := fun u => u.Bare ∧ u.machine.SameNotes (note b m)) ?_ ?_
    (s := { s with printed := s.printed ++ announcements b }) ⟨hs, h⟩
  · exact hkeeps.2
  · rintro code u ⟨hu, hn⟩
    have heffect := Auxiliary.execute_bare hu code b
    obtain ⟨speed, tool, hm⟩ := heffect.rests.machine
    refine ⟨heffect.rests.actions.trans hu, ?_, ?_, ?_⟩
    · rw [execute_feed hu]
      exact hn.feed
    · rcases heffect.sped with heq | heq
      · rw [heq]
        exact hn.speed
      · exact hspeed _ heq
    · rw [Station.machine, hm]
      exact hn.feedMode
  · rintro code u ⟨hu, hn⟩
    have hfed := (Motion.execute_effect code b u.control).fed
    refine ⟨hu, ?_, hfed.speed.trans hn.speed, hfed.feedMode.trans hn.feedMode⟩
    rcases hfed.feed with heq | ⟨f, hf, -, heq⟩
    · exact heq.trans hn.feed
    · exact heq.trans (hfeed f hf)

end Interpreter

structure Controller.SameTrace (c d : Controller Number) : Prop where
  segments : c.path.segments = d.path.segments
  reports : c.reports = d.reports

/-- Of two equal rows, the parts with a property in front are equal if nothing behind has it. -/
theorem append_left_eq {β : Type} {P : β → Prop} {a a' rest rest' : List β}
    (h : a ++ rest = a' ++ rest') (ha : ∀ x ∈ a, P x) (ha' : ∀ x ∈ a', P x) (hr : ∀ x ∈ rest, ¬ P x)
    (hr' : ∀ x ∈ rest', ¬ P x) : a = a' := by
  classical
  have hfront : ∀ l k : List β, (∀ x ∈ l, P x) → (∀ x ∈ k, ¬ P x) →
      (l ++ k).filter (fun x => P x) = l := by
    intro l k hl hk
    rw [List.filter_append, List.filter_eq_self.mpr (by simpa using hl),
      List.filter_eq_nil_iff.mpr (by simpa using hk), List.append_nil]
  rw [← hfront a rest ha hr, h, hfront a' rest' ha' hr']

namespace Controller
variable {c d e c' d' e' : Controller Number} {line : Int}

/-- If two runs end with the same trace and only their first blocks were on a line, the traces of
those are the same. -/
theorem SameTrace.first (h : e.SameTrace e') (h₀ : c.SameTrace c') (hd : c.Grows (· = line) d)
    (hd' : c'.Grows (· = line) d') (he : d.Grows (· ≠ line) e) (he' : d'.Grows (· ≠ line) e') :
    d.SameTrace d' := by
  obtain ⟨⟨r, hr, ron⟩, ⟨s, hs, son⟩⟩ := hd
  obtain ⟨⟨r', hr', ron'⟩, ⟨s', hs', son'⟩⟩ := hd'
  obtain ⟨⟨q, hq, qon⟩, ⟨p, hp, pon⟩⟩ := he
  obtain ⟨⟨q', hq', qon'⟩, ⟨p', hp', pon'⟩⟩ := he'
  have hsegments := h.segments
  have hreports := h.reports
  rw [hp, hp', hs, hs', h₀.segments, List.append_assoc, List.append_assoc] at hsegments
  rw [hq, hq', hr, hr', h₀.reports, List.append_assoc, List.append_assoc] at hreports
  constructor
  · rw [hs, hs', h₀.segments, append_left_eq (List.append_cancel_left hsegments) son son' pon pon']
  · rw [hr, hr', h₀.reports,
      append_left_eq (List.append_cancel_left hreports) (fun x hx => (ron x hx).1)
      (fun x hx => (ron' x hx).1) (fun x hx => (qon x hx).1) (fun x hx => (qon' x hx).1)]

end Controller

def Station.withSettings (s : Station) (m : Machine Number) : Station :=
  s.setMachine { s.machine with feed := m.feed, speed := m.speed }

namespace Interpreter
variable {m : Machine Number} {b : Block Number} {s r : Station} {bs : List (Block Number)}

/-- A station for codes alone, and one for codes and settings beside a machine for settings alone.
So far they have done the same. -/
structure Coupled (s r : Station) (m : Machine Number) : Prop where
  agree : s.Agree .codes r
  segments : s.control.path.segments = r.control.path.segments
  notes : r.machine.SameNotes m

theorem Coupled.trace (h : Coupled s r m) : s.control.SameTrace r.control :=
  ⟨h.segments, h.agree.control.reports⟩

theorem Coupled.unset_eq (h : Coupled s r m) : s.machine.unset = r.machine.unset :=
  h.agree.control.machine.unset_eq

/-- A block on the single machine does what it does on the codes' machine with the noted
settings. -/
theorem Coupled.noted (h : Coupled s r m) (hb : b.Written) :
    (carry (s.withSettings (note b m)) b).control.SameTrace (carryNoted r b).control := by
  have hnotes := note_sameNotes h.notes b
  have hmachine := (note_agree h.agree.control.machine hb).settle
  rw [Station.machine] at hnotes
  rw [hnotes.feed, hnotes.speed] at hmachine
  have hpath : s.control.path.Agree .settled r.control.path :=
    { h.agree.control.path with feeds := fun _ => h.segments }
  have hsettled : (s.withSettings (note b m)).Agree .settled (r.setMachine (note b r.machine)) :=
    ⟨⟨hmachine, hpath, h.agree.control.reports⟩, h.agree.left, h.agree.right⟩
  have hend := carry_settings hsettled trivial hb
  exact ⟨hend.control.path.feeds trivial, hend.control.reports⟩

/-- A block that leaves the same trace on both leaves them coupled. -/
theorem Coupled.step (h : Coupled s r m) (hb : b.Written)
    (ht : (carry s b).control.SameTrace (carryNoted r b).control) :
    Coupled (carry s b) (carryNoted r b) (note b m) := by
  have hstart : s.Agree .codes (r.setMachine (note b r.machine)) :=
    ⟨⟨note_agree h.agree.control.machine hb, h.agree.control.path, h.agree.control.reports⟩,
      h.agree.left, h.agree.right⟩
  exact ⟨carry_same hstart hb ht.reports, ht.segments,
    carry_sameNotes (s := r.setMachine (note b r.machine)) h.agree.right (note_sameNotes h.notes b)⟩

/-- Every block does the same with the feed and the speed noted so far as with those that codes have
taken. -/
def Unaffected : List (Block Number) → Station → Machine Number → Prop
  | [], _, _ => True
  | b :: bs, s, m =>
    (carry s b).control.SameTrace (carry (s.withSettings (note b m)) b).control ∧
      Unaffected bs (carry s b) (note b m)

theorem carryNoted_grows (b : Block Number) (h : r.Bare) :
    r.control.Grows (· = b.line) (carryNoted r b).control ∧ (carryNoted r b).Bare := by
  have hg := carry_grows b (s := r.setMachine (note b r.machine)) h
  exact ⟨⟨hg.1.reports, hg.1.segments⟩, hg.2⟩

/-- What both runs come to, as long as no block is affected. -/
theorem Coupled.run (h : Coupled s r m) (hb : ∀ b ∈ bs, b.Written) (hu : Unaffected bs s m) :
    Coupled (bs.foldl carry s) (bs.foldl carryNoted r) (noteAll bs m) := by
  induction bs generalizing s r m with
  | nil => exact h
  | cons b bs ih =>
    obtain ⟨hfirst, hrest⟩ := hu
    have hw := hb b List.mem_cons_self
    have hnoted := h.noted hw
    have hstep :=
      h.step hw ⟨hfirst.segments.trans hnoted.segments, hfirst.reports.trans hnoted.reports⟩
    exact ih hstep (fun b' hb' => hb b' (List.mem_cons_of_mem b hb')) hrest

/-- Two runs that end with the same trace went the same way at every block. -/
theorem Coupled.unaffected (h : Coupled s r m) (hb : ∀ b ∈ bs, b.Written)
    (hlines : bs.Pairwise fun b b' => b.line < b'.line)
    (ht : (bs.foldl carry s).control.SameTrace (bs.foldl carryNoted r).control) :
    Unaffected bs s m := by
  induction bs generalizing s r m with
  | nil => trivial
  | cons b bs ih =>
    obtain ⟨hbehind, hlines⟩ := List.pairwise_cons.mp hlines
    have hw := hb b List.mem_cons_self
    have hother : ∀ b' ∈ bs, b'.line ≠ b.line := fun b' hb' => Int.ne_of_gt (hbehind b' hb')
    obtain ⟨hg, hbare⟩ := carry_grows b h.agree.left
    obtain ⟨hg', hbare'⟩ := carryNoted_grows b h.agree.right
    have hfirst : (carry s b).control.SameTrace (carryNoted r b).control :=
      ht.first h.trace hg hg' (foldl_grows (fun b _ hs => carry_grows b hs) hbare hother)
        (foldl_grows (fun b _ hs => carryNoted_grows b hs) hbare' hother)
    have hnoted := h.noted hw
    refine ⟨⟨hfirst.segments.trans hnoted.segments.symm, hfirst.reports.trans hnoted.reports.symm⟩,
      ?_⟩
    exact ih (h.step hw hfirst) (fun b' hb' => hb b' (List.mem_cons_of_mem b hb')) hlines ht

end Interpreter

deriving instance DecidableEq for Table
deriving instance DecidableEq for Modes
deriving instance DecidableEq for Machine

instance (c d : Controller Number) : Decidable (c.SameTrace d) :=
  decidable_of_iff (c.path.segments = d.path.segments ∧ c.reports = d.reports)
    ⟨fun ⟨hs, hr⟩ => ⟨hs, hr⟩, fun h => ⟨h.segments, h.reports⟩⟩

namespace Interpreter
variable {text : String}

instance decideUnaffected : (bs : List (Block Number)) → (s : Station) → (m : Machine Number) →
    Decidable (Unaffected bs s m)
  | [], _, _ => .isTrue trivial
  | b :: bs, s, m =>
    have := decideUnaffected bs (carry s b) (note b m)
    inferInstanceAs (Decidable (_ ∧ _))

def blocksOf (text : String) : List (Block Number) :=
  (Block.ofTokens (Token.scan text).1).blocks?.getD []

/-- A text that comes to a verdict can be read. -/
theorem blocksOf_eq {ok : Bool} (h : (initial.process text).2 = .ok ok) :
    (Block.ofTokens (Token.scan text).1).blocks? = some (blocksOf text) := by
  cases hbs : (Block.ofTokens (Token.scan text).1).blocks? with
  | none =>
    rw [process_eq_perform, hbs] at h
    cases h
  | some bs =>
    rw [blocksOf, hbs]
    rfl

def atOutset (text : String) : Station := openedStation text (blocksOf text) .initial

/-- Carry out the blocks of a text one after the other, with a single machine for settings and
codes. -/
def shared (text : String) : Interpreter :=
  (blocksOf text).foldl carryOut { opened text (blocksOf text) initial with display := none }

theorem shared_station (text : String) :
    (shared text).station = (blocksOf text).foldl carryNoted (atOutset text) := by
  rw [shared, foldl_carryOut_shared _ rfl]
  rfl

theorem shared_machine (text : String) : (shared text).machine = (shared text).station.machine := by
  rw [shared, foldl_carryOut_shared _ rfl]
  rfl

theorem coupled_atOutset (text : String) : Coupled (atOutset text) (atOutset text) .initial :=
  ⟨⟨⟨Machine.regular_initial.agree _, Toolpath.agree_refl _ _, rfl⟩, rfl, rfl⟩, rfl,
    ⟨rfl, rfl, rfl⟩⟩

structure EndsLike (p r : Interpreter) : Prop where
  segments : p.path.segments = r.path.segments
  reports : p.reports = r.reports
  machine : p.machine = r.machine

/-- Processing a text runs its codes without the settings of earlier blocks, and its settings
without the codes: the machine that is reported never moves. It ends like a run on a single machine
exactly if no block is affected by the settings noted so far, the codes leave their machine as new,
and the single machine has the tool that was noted last. -/
theorem process_single_machine_iff (text : String) (ok : Bool)
    (h : (initial.process text).2 = .ok ok) :
    (initial.process text).1.station = (blocksOf text).foldl carry (atOutset text) ∧
    (initial.process text).1.machine = noteAll (blocksOf text) .initial ∧
    (initial.process text).1.machine.position = .fill 0 ∧
    ((initial.process text).1.EndsLike (shared text) ↔
      Unaffected (blocksOf text) (atOutset text) .initial ∧
        (initial.process text).1.station.machine.unset = .initial ∧
        (shared text).machine.tool = (initial.process text).1.machine.tool) := by
  have hbs := blocksOf_eq h
  have hlisted := Block.ofText_listed hbs
  have hstart := coupled_atOutset text
  have hnoted : (noteAll (blocksOf text) (.initial : Machine Number)).unset = .initial :=
    noteAll_unset _ _
  have hstation : (initial.process text).1.station =
      (blocksOf text).foldl carry (atOutset text) := by
    rw [process_eq (t := initial) hbs rfl]
    rfl
  have hreported : (initial.process text).1.machine = noteAll (blocksOf text) .initial := by
    rw [process_eq (t := initial) hbs rfl]
    rfl
  refine ⟨hstation, hreported, ?_, ?_, ?_⟩
  · rw [hreported, noteAll_position]
    rfl
  · rintro ⟨hsegments, hreports, hmachine⟩
    rw [Interpreter.path, Interpreter.path, hstation, shared_station] at hsegments
    rw [Interpreter.reports, Interpreter.reports, hstation, shared_station] at hreports
    have hu := hstart.unaffected hlisted.written hlisted.ascending ⟨hsegments, hreports⟩
    have hend := hstart.run hlisted.written hu
    refine ⟨hu, ?_, by rw [hmachine]⟩
    rw [hreported, shared_machine, shared_station] at hmachine
    rw [hmachine] at hnoted
    rw [hstation]
    exact hend.unset_eq.trans hnoted
  · rintro ⟨hu, hrest, htool⟩
    have hend := hstart.run hlisted.written hu
    rw [hstation] at hrest
    refine ⟨?_, ?_, ?_⟩
    · rw [Interpreter.path, Interpreter.path, hstation, shared_station]
      exact hend.segments
    · rw [Interpreter.reports, Interpreter.reports, hstation, shared_station]
      exact hend.agree.control.reports
    · rw [hreported, shared_machine, shared_station] at htool ⊢
      refine (Machine.eq_of_unset ?_ hend.notes htool).symm
      exact hend.unset_eq.symm.trans (hrest.trans hnoted.symm)

/-- A cut at the origin with its own feed ends alike; one that counts on the feed of the line before
does not. -/
theorem process_single_machine_iff_feed :
    (initial.process "G1 X0 F100").1.EndsLike (shared "G1 X0 F100") ∧
    ¬ (initial.process "F100\nG1 X10").1.EndsLike (shared "F100\nG1 X10") := by
  constructor
  · refine (process_single_machine_iff "G1 X0 F100" true (by decide +kernel)).2.2.2.mpr ⟨?_, ?_, ?_⟩
    all_goals decide +kernel
  · intro hsame
    have hu :=
      ((process_single_machine_iff "F100\nG1 X10" true (by decide +kernel)).2.2.2.mp hsame).1
    exact absurd hu (by decide +kernel)

end Interpreter
end Machining
