import Machining.Proofs.Order
import Machining.Proofs.Twins
import Machining.Proofs.TwoMachines

namespace Machining

def MCode.ends : MCode → Bool
  | programEnd | programEndRewind => true
  | _ => false

def Number.endsProgram (code : Number) : Bool := (MCode.ofNumber? code).any MCode.ends

structure Station.SameWork (s r : Station) : Prop where
  control : r.control = s.control
  actions : r.actions = s.actions

theorem Station.SameWork.twin {s r : Station} (h : s.SameWork r) : s.Twin r :=
  ⟨congrArg Controller.machine h.control, congrArg Controller.path h.control, h.actions⟩

theorem Station.SameWay.work {s s' r r' : Station} (w : SameWay s s' r r') (h : s.SameWork r) :
    s'.SameWork r' := by
  obtain ⟨more, hs, hr⟩ := w.reports
  refine ⟨?_, w.actions⟩
  have hreports : r'.control.reports = s'.control.reports := by rw [hs, hr, h.control]
  have hmachine := w.machine
  have hpath := w.path
  cases hc : s'.control
  cases hd : r'.control
  simp_all [Station.machine]

namespace Auxiliary
variable {s r : Station} {b : Block Number} {code : Number} {codes : List Number}

/-- The end of a program does nothing to the control. -/
theorem execute_end (h : code.endsProgram = true) :
    (execute code b s).outcome = .ok true ∧ s.SameWork (execute code b s).station := by
  obtain ⟨m, hm, hends⟩ := (Option.any_eq_true _ _).mp h
  cases m <;> cases hends <;> simp only [execute, hm] <;> exact ⟨rfl, rfl, rfl⟩

/-- Codes that end the program may as well be left out. -/
theorem executeAll_past (h : s.SameWork r) (bare : s.Bare) (codes : List Number) :
    (executeAll b (codes.filter fun code => !code.endsProgram) r).outcome =
      (executeAll b codes s).outcome ∧
      (executeAll b codes s).station.SameWork
        (executeAll b (codes.filter fun code => !code.endsProgram) r).station := by
  induction codes generalizing s r with
  | nil => exact ⟨rfl, h⟩
  | cons code rest ih =>
    have hbare := bare_execute bare code b
    cases hends : code.endsProgram with
    | true =>
      obtain ⟨hok, hwork⟩ := execute_end (b := b) (s := s) hends
      rw [List.filter_cons_of_neg (by simp [hends]), executeAll_of_ok hok]
      exact ih ⟨h.control.trans hwork.control.symm, h.actions.trans hwork.actions.symm⟩ hbare
    | false =>
      obtain ⟨hway, houtcome⟩ := execute_sameWay (b := b) h.twin bare code
      rw [List.filter_cons_of_pos (by simp [hends])]
      by_cases hok : (execute code b s).outcome = .ok true
      · rw [executeAll_of_ok hok, executeAll_of_ok (houtcome.trans hok)]
        exact ih (hway.work h) hbare
      · rw [executeAll_of_not_ok hok, executeAll_of_not_ok (by rwa [houtcome])]
        exact ⟨houtcome, hway.work h⟩

end Auxiliary

namespace Interpreter
variable {s r : Station} {b : Block Number} {bs : List (Block Number)}

def runCodesPast (b : Block Number) (s : Station) : Auxiliary.Result :=
  match Number.sort b.m.keys with
  | .error f => ⟨s, .error f⟩
  | .ok codes =>
    match Auxiliary.executeAll b (codes.filter fun code => !code.endsProgram) s with
    | ⟨s, .ok true⟩ => runGCodes b s
    | r => r

def carryPast (s : Station) (b : Block Number) : Station :=
  (runCodesPast b { s with printed := s.printed ++ announcements b }).station

theorem carry_past (h : s.SameWork r) (bare : s.Bare) (b : Block Number) :
    (carry s b).SameWork (carryPast r b) := by
  unfold carry carryPast runCodes runCodesPast
  cases Number.sort b.m.keys with
  | error f => exact ⟨h.control, h.actions⟩
  | ok codes =>
    have hheard : Station.SameWork { s with printed := s.printed ++ announcements b }
        { r with printed := r.printed ++ announcements b } := ⟨h.control, h.actions⟩
    obtain ⟨houtcome, hwork⟩ := Auxiliary.executeAll_past (b := b) hheard bare codes
    simp only
    cases hs : Auxiliary.executeAll b codes { s with printed := s.printed ++ announcements b } with
    | mk s' outcome =>
      cases hr : Auxiliary.executeAll b (codes.filter fun code => !code.endsProgram)
          { r with printed := r.printed ++ announcements b } with
      | mk r' outcome' =>
        rw [hs, hr] at houtcome hwork
        simp only at houtcome
        subst houtcome
        cases outcome' with
        | error f => exact hwork
        | ok ok =>
          cases ok with
          | false => exact hwork
          | true => exact (runGCodes_sameWay hwork.twin b).way.work hwork

/-- A program does the same to machine and path, with the same reports, as if nothing in it were to
end it. -/
theorem foldl_carry_past (h : s.SameWork r) (bare : s.Bare) (bs : List (Block Number)) :
    (bs.foldl carry s).SameWork (bs.foldl carryPast r) := by
  induction bs generalizing s r with
  | nil => exact h
  | cons b bs ih => exact ih (carry_past h bare b) (carry_grows b bare).2

end Interpreter

def MCode.switches : MCode → Bool
  | spindleCw | spindleCcw | spindleStop | mistOn | floodOn | coolantOff => true
  | _ => false

structure AuxModes.Off (modes : AuxModes) : Prop where
  spindle : modes.spindle = .int 5
  coolant : modes.coolant = .int 9

namespace Auxiliary
variable {s : Station} {b : Block Number} {code : Number} {codes : List Number}

theorem perform_modes (m : MCode) :
    (perform m b s).station.modes =
      if m.ends then { s.modes with spindle := .int 5, coolant := .int 9 } else s.modes := by
  have hspin : ∀ name direction, (startSpindle name direction b s).station.modes = s.modes := by
    intro name direction
    have hnone : (Block.empty b.line : Block Number).param .s = none := rfl
    rw [startSpindle_takeSpeed]
    simp only [startSpindle, hnone]
    split <;> rfl
  have hswitch : ∀ name code, (switch name code b s).station.modes = s.modes := by
    intro name code
    unfold switch
    cases b.param .p <;> rfl
  cases m with
  | spindleCw => exact hspin "M3" "CW"
  | spindleCcw => exact hspin "M4" "CCW"
  | toolChange =>
    unfold perform toolChange
    cases b.tool <;> rfl
  | setTool =>
    unfold perform setTool
    cases b.param .q with
    | none => rfl
    | some q =>
      simp only
      split <;> rfl
  | feedOverride => exact hswitch _ _
  | spindleOverride => exact hswitch _ _
  | adaptiveFeed => exact hswitch _ _
  | feedStop => exact hswitch _ _
  | programEnd | programEndRewind | pause | optionalPause | palletChange | spindleStop | mistOn
    | floodOn | coolantOff | overridesOn | overridesOff => rfl

/-- Codes other than those of spindle and coolant leave them off, and the end of a program turns
them off. -/
theorem execute_off (bare : s.Bare)
    (hcode : ∀ m, MCode.ofNumber? code = some m → m.switches = false)
    (h : code.endsProgram = true ∨ s.modes.Off) : (execute code b s).station.modes.Off := by
  unfold execute
  cases hm : MCode.ofNumber? code with
  | none =>
    have hoff : s.modes.Off := by
      rcases h with h | h
      · simp [Number.endsProgram, hm] at h
      · exact h
    have hnone : s.actions.get? code = none := by rw [bare]; rfl
    cases isCustom code with
    | error f => exact hoff
    | ok custom =>
      cases custom with
      | true =>
        simp only [executeCustom, hnone]
        exact hoff
      | false => exact hoff
  | some m =>
    have hperform : (perform m b s).station.modes.Off := by
      rw [perform_modes]
      split
      · exact ⟨rfl, rfl⟩
      · rename_i hends
        rcases h with h | h
        · simp [Number.endsProgram, hm, hends] at h
        · exact h
    have hnote : ∀ modes : AuxModes, modes.Off → (noteMode m code modes).Off := by
      intro modes hoff
      have hswitches := hcode m hm
      cases m with
      | spindleCw | spindleCcw | spindleStop | mistOn | floodOn | coolantOff => cases hswitches
      | overridesOn | overridesOff | feedOverride | spindleOverride | adaptiveFeed | feedStop =>
        exact ⟨hoff.spindle, hoff.coolant⟩
      | pause | optionalPause | programEnd | programEndRewind | palletChange | toolChange
        | setTool => exact hoff
    simp only [executeBuiltin]
    cases (perform m b s).outcome with
    | ok ok => exact hnote _ hperform
    | error f => exact hperform

theorem executeAll_off (bare : s.Bare)
    (hcodes : ∀ code ∈ codes, ∀ m, MCode.ofNumber? code = some m → m.switches = false)
    (h : (∃ code ∈ codes, code.endsProgram = true) ∨ s.modes.Off)
    (hok : (executeAll b codes s).outcome = .ok true) :
    (executeAll b codes s).station.modes.Off := by
  induction codes generalizing s with
  | nil =>
    rcases h with ⟨code, hcode, -⟩ | h
    · cases hcode
    · exact h
  | cons code rest ih =>
    have hfirst : (execute code b s).outcome = .ok true := by
      by_contra hnot
      rw [executeAll_of_not_ok hnot] at hok
      exact hnot hok
    rw [executeAll_of_ok hfirst] at hok ⊢
    refine ih (bare_execute bare code b) (fun c hc => hcodes c (List.mem_cons_of_mem _ hc)) ?_ hok
    have hkeep := execute_off (b := b) bare (hcodes code List.mem_cons_self)
    rcases h with ⟨c, hc, hends⟩ | h
    · rcases List.mem_cons.mp hc with rfl | hc
      · exact .inr (hkeep (.inl hends))
      · exact .inl ⟨c, hc, hends⟩
    · exact .inr (hkeep (.inr h))

end Auxiliary

deriving instance DecidableEq for AuxModes
deriving instance DecidableEq for Toolpath

theorem Motion.Effect.lengthens {α : Type} [Scalar α] {b : Block α} {c : Controller α}
    {r : Motion.Result α} (e : Effect b c r) :
    r.controller.path = c.path ∨ c.path.segments.length < r.controller.path.segments.length := by
  cases e with
  | stays still _ _ _ | refuses still _ _ _ _ => exact .inl still.path
  | moves _ s path _ _ _ _ _ _ => exact .inr (by simp [path])

namespace Interpreter
variable {s r : Station} {m : Machine Number} {b : Block Number}
    {bs : List (Block Number)} {line : Int}

/-- A block that changes nothing of the station but its reports and what is printed, and nothing of
the machine that settings are noted on. -/
structure Inert (s : Station) (m : Machine Number) (b : Block Number) : Prop where
  machine : (carry s b).machine = s.machine
  path : (carry s b).control.path = s.control.path
  modes : (carry s b).modes = s.modes
  noted : note b m = m

/-- While blocks are carried out there are no segments behind a line, and machine, modes and noted
settings stay. -/
structure Halted (line : Int) (s : Station) (m : Machine Number)
    (bs : List (Block Number)) : Prop where
  segments : ∀ g ∈ (bs.foldl carry s).control.path.segments, g.line ≤ line
  machine : ∀ n, ((bs.take n).foldl carry s).machine = s.machine
  modes : ∀ n, ((bs.take n).foldl carry s).modes = s.modes
  noted : ∀ n, noteAll (bs.take n) m = m

/-- Codes that add no segment leave the whole path as it is. -/
theorem carry_path (bare : s.Bare)
    (h : (carry s b).control.path.segments = s.control.path.segments) :
    (carry s b).control.path = s.control.path := by
  have hkeeps := runCodes_keeps (b := b) (s := { s with printed := s.printed ++ announcements b })
    (P := fun u => u.Bare ∧ (u.control.path = s.control.path ∨
      s.control.path.segments.length < u.control.path.segments.length)) ?_ ?_ ⟨bare, .inl rfl⟩
  · rcases hkeeps.2 with hpath | hlonger
    · exact hpath
    · exact absurd (congrArg List.length h) (Nat.ne_of_gt hlonger)
  · rintro code u ⟨hu, hpath⟩
    have heffect := Auxiliary.execute_bare hu code b
    exact ⟨heffect.rests.actions.trans hu, by rw [heffect.rests.path]; exact hpath⟩
  · rintro code u ⟨hu, hpath⟩
    refine ⟨hu, ?_⟩
    rcases (Motion.execute_effect code b u.control).lengthens with hsame | hlonger
    · have hsame : (Motion.execute code b u.control).2.path = u.control.path := hsame
      rwa [hsame]
    · refine .inr (Nat.lt_of_le_of_lt ?_ hlonger)
      rcases hpath with hpath | hpath
      · rw [hpath]
      · exact hpath.le

theorem Inert.of_twin (h : s.Twin r) (hmodes : r.modes = s.modes) (bare : s.Bare)
    (hinert : Inert r m b) : Inert s m b := by
  have hway := carry_sameWay h bare b
  obtain ⟨f, hs, hr⟩ := hway.modes
  refine ⟨?_, ?_, ?_, hinert.noted⟩
  · rw [← hway.machine, hinert.machine, h.machine]
  · rw [← hway.path, hinert.path, h.path]
  · rw [hs, ← hmodes, ← hr, hinert.modes]

theorem Inert.twin (bare : s.Bare) (h : Inert s m b) : s.Twin (carry s b) :=
  ⟨h.machine, h.path, (carry_grows b bare).2.trans bare.symm⟩

/-- The first of blocks after which nothing happens changes nothing: a segment of it would still be
there at the end. -/
theorem Halted.first (h : Halted line s m (b :: bs)) (bare : s.Bare) (hline : line < b.line) :
    Inert s m b := by
  obtain ⟨hgrows, hbare⟩ := carry_grows b bare
  obtain ⟨new, hnew, hon⟩ := hgrows.segments
  have hlater : (carry s b).control.Grows (fun _ => True) (bs.foldl carry (carry s b)).control :=
    foldl_grows (fun b _ hs => carry_grows b hs) hbare (by simp)
  obtain ⟨more, hmore, -⟩ := hlater.segments
  have hnone : new = [] := by
    rw [List.eq_nil_iff_forall_not_mem]
    intro g hg
    have hlast := h.segments g (by rw [List.foldl_cons, hmore, hnew]; simp [hg])
    rw [hon g hg] at hlast
    omega
  have hsegments : (carry s b).control.path.segments = s.control.path.segments := by
    rw [hnew, hnone, List.append_nil]
  exact ⟨h.machine 1, carry_path bare hsegments, h.modes 1, h.noted 1⟩

theorem Halted.tail (h : Halted line s m (b :: bs)) (hinert : Inert s m b) :
    Halted line (carry s b) m bs where
  segments := h.segments
  machine n := (h.machine (n + 1)).trans hinert.machine.symm
  modes n := (h.modes (n + 1)).trans hinert.modes.symm
  noted n := by
    have hnoted := h.noted (n + 1)
    rwa [List.take_succ_cons, noteAll, List.foldl_cons, hinert.noted] at hnoted

theorem Halted.cons (h : Halted line (carry s b) m bs) (hinert : Inert s m b) :
    Halted line s m (b :: bs) where
  segments := h.segments
  machine n := by
    cases n with
    | zero => rfl
    | succ n => exact (h.machine n).trans hinert.machine
  modes n := by
    cases n with
    | zero => rfl
    | succ n => exact (h.modes n).trans hinert.modes
  noted n := by
    cases n with
    | zero => rfl
    | succ n =>
      rw [List.take_succ_cons, noteAll, List.foldl_cons, hinert.noted]
      exact h.noted n

/-- Nothing happens exactly if each of the blocks by itself would change nothing. -/
theorem halted_iff (bare : s.Bare) (hlines : ∀ b ∈ bs, line < b.line)
    (hpast : ∀ g ∈ s.control.path.segments, g.line ≤ line) :
    Halted line s m bs ↔ ∀ b ∈ bs, Inert s m b := by
  -- block by block: one that changes nothing leaves a station on which the others do the same as
  -- before
  induction bs generalizing s with
  | nil => exact ⟨by simp, fun _ => ⟨hpast, by simp, by simp, by simp [noteAll]⟩⟩
  | cons b bs ih =>
    have hbare := (carry_grows b bare).2
    have hbehind : ∀ b' ∈ bs, line < b'.line := fun b' hb' => hlines b' (List.mem_cons_of_mem _ hb')
    constructor
    · intro h
      have hinert := h.first bare (hlines b List.mem_cons_self)
      have htwin := hinert.twin bare
      have hpath : ∀ g ∈ (carry s b).control.path.segments, g.line ≤ line := by rwa [hinert.path]
      have hrest := (ih hbare hbehind hpath).mp (h.tail hinert)
      intro b' hb'
      rcases List.mem_cons.mp hb' with rfl | hb'
      · exact hinert
      · exact .of_twin htwin hinert.modes bare (hrest b' hb')
    · intro h
      have hinert := h b List.mem_cons_self
      have htwin := hinert.twin bare
      have hpath : ∀ g ∈ (carry s b).control.path.segments, g.line ≤ line := by rwa [hinert.path]
      have hrest := (ih hbare hbehind hpath).mpr fun b' hb' =>
        .of_twin htwin.symm hinert.modes.symm hbare (h b' (List.mem_cons_of_mem _ hb'))
      exact hrest.cons hinert

theorem foldl_bare (bs : List (Block Number)) (bare : s.Bare) : (bs.foldl carry s).Bare := by
  induction bs generalizing s with
  | nil => exact bare
  | cons b bs ih => exact ih (carry_grows b bare).2

/-- A block whose M-codes succeed, one of which ends the program, leaves spindle and coolant off,
unless it says otherwise itself. -/
theorem carry_off (bare : s.Bare) (hend : ∃ k ∈ b.m.keys, k.endsProgram = true)
    (hok : (runMCodes b s).outcome = .ok true)
    (hcodes : ∀ k ∈ b.m.keys, ∀ c, MCode.ofNumber? k = some c → c.switches = false) :
    (carry s b).modes.Off := by
  have htwin : s.Twin { s with printed := s.printed ++ announcements b } := ⟨rfl, rfl, rfl⟩
  have hheard := (runMCodes_sameWay htwin bare b).outcome.trans hok
  rw [carry, runCodes_of_ok hheard]
  have hmodes : ∀ u : Station, (runGCodes b u).station.modes = u.modes := by
    intro u
    unfold runGCodes
    cases Number.sort b.g.keys <;> rfl
  rw [hmodes]
  unfold runMCodes at hheard ⊢
  cases hsort : Number.sort b.m.keys with
  | error f =>
    rw [hsort] at hheard
    cases hheard
  | ok codes =>
    rw [hsort] at hheard
    have hperm := Number.sort_perm hsort
    obtain ⟨k, hk, hends⟩ := hend
    exact Auxiliary.executeAll_off bare (fun c hc => hcodes c (hperm.subset hc))
      (.inl ⟨k, hperm.symm.subset hk, hends⟩) hheard

variable {text : String} {t : Interpreter}

/-- A text goes on behind a block that ends the program. Its end turns spindle and coolant off;
machine, path and reports are as if there had been none. So nothing happens behind it exactly if
every later block by itself would change nothing. -/
theorem process_after_end_iff (before rest : List (Block Number))
    (hbs : (Block.ofTokens (Token.scan text).1).blocks? = some (before ++ b :: rest))
    (bare : t.station.Bare) (hend : ∃ k ∈ b.m.keys, k.endsProgram = true)
    (hok : (runMCodes b (before.foldl carry
      (openedStation text (before ++ b :: rest) t.station))).outcome =
      .ok true) :
    let opening := openedStation text (before ++ b :: rest) t.station
    let ended := carry (before.foldl carry opening) b
    let noted := noteAll (before ++ [b]) .initial
    (t.process text).2 = .ok true ∧
    (t.process text).1.station = rest.foldl carry ended ∧
    (t.process text).1.display = some (noteAll rest noted) ∧
    ((∀ k ∈ b.m.keys, ∀ c, MCode.ofNumber? k = some c → c.switches = false) → ended.modes.Off) ∧
    (t.process text).1.station.control = ((before ++ b :: rest).foldl carryPast opening).control ∧
    (Halted b.line ended noted rest ↔ ∀ b' ∈ rest, Inert ended noted b') := by
  intro opening ended noted
  have hopening : opening.Bare := bare
  have hprocess := process_eq hbs bare
  have hlisted := Block.ofText_listed hbs
  obtain ⟨-, hbehind, hbefore⟩ := List.pairwise_append.mp hlisted.ascending
  have hstation : (t.process text).1.station = rest.foldl carry ended := by
    rw [hprocess]
    simp only [List.foldl_append, List.foldl_cons, ended, opening]
  have hended : opening.control.Grows (· ≤ b.line) ended.control ∧ ended.Bare := by
    have hreached := carry_grows b (foldl_bare before hopening)
    refine ⟨?_, hreached.2⟩
    refine (foldl_grows (fun b _ hs => carry_grows b hs) hopening fun b' hb' => ?_).trans
      (hreached.1.mono fun l hl => hl.le)
    exact (hbefore b' hb' b List.mem_cons_self).le
  refine ⟨by rw [hprocess], hstation, ?_, carry_off (foldl_bare before hopening) hend hok, ?_, ?_⟩
  · rw [hprocess]
    simp [noted, noteAll]
  · rw [hprocess]
    exact (foldl_carry_past ⟨rfl, rfl⟩ hopening _).control.symm
  · obtain ⟨new, hnew, hon⟩ := hended.1.segments
    refine halted_iff hended.2 (List.pairwise_cons.mp hbehind).1 fun g hg => ?_
    rw [hnew] at hg
    exact hon g hg

instance (s : Station) (m : Machine Number) (b : Block Number) : Decidable (Inert s m b) :=
  decidable_of_iff ((carry s b).machine = s.machine ∧ (carry s b).control.path = s.control.path ∧
      (carry s b).modes = s.modes ∧ note b m = m)
    ⟨fun ⟨hmachine, hpath, hmodes, hnoted⟩ => ⟨hmachine, hpath, hmodes, hnoted⟩,
      fun h => ⟨h.machine, h.path, h.modes, h.noted⟩⟩

/-- A move behind the end is still made. -/
theorem process_after_end_iff_move :
    ∃ x y z, (Block.ofTokens (Token.scan "G0 X1\nM2\nG0 X5").1).blocks? = some ([x] ++ y :: [z]) ∧
      (∃ k ∈ y.m.keys, k.endsProgram = true) ∧
      (runMCodes y (carry (atOutset "G0 X1\nM2\nG0 X5") x)).outcome = .ok true ∧
      (carry (carry (atOutset "G0 X1\nM2\nG0 X5") x) y).modes.Off ∧
      ¬ Halted y.line (carry (carry (atOutset "G0 X1\nM2\nG0 X5") x) y)
        (noteAll [x, y] .initial) [z] := by
  have hfacts : (initial.process "G0 X1\nM2\nG0 X5").2 = .ok true ∧
      (blocksOf "G0 X1\nM2\nG0 X5").length = 3 ∧
      ∀ x ∈ (blocksOf "G0 X1\nM2\nG0 X5")[0]?, ∀ y ∈ (blocksOf "G0 X1\nM2\nG0 X5")[1]?,
      ∀ z ∈ (blocksOf "G0 X1\nM2\nG0 X5")[2]?, (∃ k ∈ y.m.keys, k.endsProgram = true) ∧
        (∀ k ∈ y.m.keys, ∀ c ∈ MCode.ofNumber? k, c.switches = false) ∧
        (runMCodes y (carry (atOutset "G0 X1\nM2\nG0 X5") x)).outcome = .ok true ∧
        ¬ Inert (carry (carry (atOutset "G0 X1\nM2\nG0 X5") x) y) (noteAll [x, y] .initial) z := by
    decide +kernel
  obtain ⟨hprocess, hlength, hblocks⟩ := hfacts
  have hread := blocksOf_eq hprocess
  obtain ⟨x, y, z, hxyz⟩ := List.length_eq_three.mp hlength
  rw [hxyz] at hblocks hread
  obtain ⟨hend, hswitch, hok, hinert⟩ := hblocks x rfl y rfl z rfl
  have hopening : openedStation "G0 X1\nM2\nG0 X5" [x, y, z] initial.station =
      atOutset "G0 X1\nM2\nG0 X5" := by
    rw [atOutset, hxyz]
    rfl
  have hafter := process_after_end_iff (t := initial) [x] [z] hread rfl hend (by
    rw [List.singleton_append, hopening]
    exact hok)
  simp only [List.singleton_append, hopening] at hafter
  obtain ⟨-, -, -, hoff, -, hhalted⟩ := hafter
  refine ⟨x, y, z, hread, hend, hok, hoff hswitch, fun h => hinert ?_⟩
  exact hhalted.mp h z List.mem_cons_self

end Interpreter
end Machining
