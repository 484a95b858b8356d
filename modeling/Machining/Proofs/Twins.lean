import Machining.Proofs.SinglePass

namespace Machining

section
variable {α : Type}

def Controller.after (ds : List Diagnostic) (c : Controller α) : Controller α :=
  { c with reports := ds ++ c.reports }

namespace Motion
variable {ds : List Diagnostic} {c : Controller α} {b : Block α}

def Result.after (ds : List Diagnostic) (r : Result α) : Result α :=
  ⟨r.controller.after ds, r.outcome⟩

theorem refuse_after (message : String) :
    refuse (c.after ds) b message = (refuse c b message).after ds := by
  simp [refuse, Result.after, Controller.after, Controller.report]

theorem Result.of_after {β : Type} {v : Except Fault β} {next next' : β → Result α}
    (h : ∀ x, next' x = (next x).after ds) :
    Result.of (c.after ds) v next' = (Result.of c v next).after ds := by
  cases v with
  | error f => rfl
  | ok x => exact h x

variable [Scalar α]

theorem travel_after (line : Int) (p : Axes α) (kind : MoveKind) (feed : Option α) :
    travel (c.after ds) line p kind feed = (travel c line p kind feed).after ds :=
  Result.of_after fun _ => rfl

theorem rapid_after : rapid b (c.after ds) = (rapid b c).after ds := by
  unfold rapid
  simp only
  split
  · exact Result.of_after (c := c.setMode .motion (.int 0)) fun p =>
      travel_after (c := c.setMode .motion (.int 0)) _ _ _ _
  · rfl

theorem withFeed_after (code : Int) {next : Controller α → Result α}
    (hnext : ∀ c, next (c.after ds) = (next c).after ds) :
    withFeed code b (c.after ds) next = (withFeed code b c next).after ds := by
  unfold withFeed
  cases b.param .f with
  | some f =>
    refine Result.of_after fun nonpositive => ?_
    cases nonpositive with
    | true => exact refuse_after _
    | false => exact hnext { c with machine := { c.machine with feed := f } }
  | none =>
    refine Result.of_after fun nonpositive => ?_
    cases nonpositive with
    | true => exact refuse_after _
    | false => exact hnext c

theorem linear_after : linear b (c.after ds) = (linear b c).after ds := by
  refine withFeed_after (c := c.setMode .motion (.int 1)) 1 fun c => ?_
  split
  · exact Result.of_after fun p => travel_after _ _ _ _
  · rfl

theorem arc_after (kind : MoveKind) (code : Int) :
    arc kind code b (c.after ds) = (arc kind code b c).after ds := by
  refine withFeed_after (c := c.setMode .motion (.int code)) code fun c => ?_
  split
  · exact Result.of_after fun p => Result.of_after fun center => Result.of_after fun path => rfl
  · rfl

theorem dwell_after : dwell b (c.after ds) = (dwell b c).after ds := by
  unfold dwell
  cases b.param .p with
  | none => exact refuse_after _
  | some p =>
    refine Result.of_after fun negative => ?_
    cases negative with
    | true => exact refuse_after _
    | false => rfl

theorem shiftAxes_after (is : List Axis) :
    shiftAxes b is (c.after ds) = (shiftAxes b is c).after ds := by
  induction is generalizing c with
  | nil => rfl
  | cons i is ih =>
    unfold shiftAxes
    cases b.axis i with
    | none => exact ih
    | some v =>
      exact Result.of_after fun d => ih (c := { c with machine := c.machine.setShift i d })

theorem perform_after (g : GCode) : perform g b (c.after ds) = (perform g b c).after ds := by
  cases g with
  | rapid => exact rapid_after
  | linear => exact linear_after
  | arcCw => exact arc_after .arcCw 2
  | arcCcw => exact arc_after .arcCcw 3
  | dwell => exact dwell_after
  | offsetData => exact refuse_after _
  | home => exact Result.of_after fun p => travel_after _ _ _ _
  | shift =>
    unfold perform shift
    simp only
    split
    · exact shiftAxes_after _
    · exact refuse_after _
  | planeXY | planeXZ | planeYZ | inches | millimeters | absolute | incremental => rfl

theorem execute_after (code : Number) :
    execute code b (c.after ds) = ((execute code b c).1, (execute code b c).2.after ds) := by
  unfold execute
  cases GCode.ofNumber? code with
  | none => simp [Controller.after, Controller.report]
  | some g =>
    simp only [perform_after, Result.after]
    cases (perform g b c).outcome with
    | ok ok => rfl
    | error f => simp [Controller.after, Controller.report]

/-- What codes do does not depend on the reports so far. -/
theorem executeAll_after (codes : List Number) :
    executeAll b codes (c.after ds) = ((executeAll b codes c).1,
      (executeAll b codes c).2.after ds) := by
  induction codes generalizing c with
  | nil => rfl
  | cons code rest ih =>
    unfold executeAll
    rw [execute_after]
    cases execute code b c with
    | mk ok d =>
      cases ok with
      | true => exact ih
      | false => rfl

end Motion
end

namespace Station

/-- Alike in all that codes go by: machine, path and actions. -/
structure Twin (s r : Station) : Prop where
  machine : r.machine = s.machine
  path : r.control.path = s.control.path
  actions : r.actions = s.actions

theorem Twin.symm {s r : Station} (h : s.Twin r) :
    r.Twin s := ⟨h.machine.symm, h.path.symm, h.actions.symm⟩

/-- Two ways, from `s` to `s'` and from `r` to `r'`, that end alike, report the same, and do the
same to the modes. -/
structure SameWay (s s' r r' : Station) : Prop extends Twin s' r' where
  reports : ∃ more, s'.control.reports = s.control.reports ++ more ∧
    r'.control.reports = r.control.reports ++ more
  modes : ∃ f : AuxModes → AuxModes, s'.modes = f s.modes ∧ r'.modes = f r.modes

namespace SameWay
variable {s s' s'' r r' r'' : Station}

theorem refl (h : s.Twin r) : SameWay s s r r :=
  { h with reports := ⟨[], by simp, by simp⟩, modes := ⟨id, rfl, rfl⟩ }

theorem trans (h : SameWay s s' r r') (h' : SameWay s' s'' r' r'') : SameWay s s'' r r'' := by
  obtain ⟨more, hs, hr⟩ := h.reports
  obtain ⟨more', hs', hr'⟩ := h'.reports
  obtain ⟨f, hfs, hfr⟩ := h.modes
  obtain ⟨f', hfs', hfr'⟩ := h'.modes
  exact { h'.toTwin with
    reports := ⟨more ++ more',
      by rw [hs', hs, List.append_assoc], by rw [hr', hr, List.append_assoc]⟩
    modes := ⟨f' ∘ f, by rw [hfs', hfs, Function.comp], by rw [hfr', hfr, Function.comp]⟩ }

theorem print (h : SameWay s s' r r') (text text' : String) :
    SameWay s (s'.print text) r (r'.print text') :=
  ⟨⟨h.machine, h.path, h.actions⟩, h.reports, h.modes⟩

theorem setMachine (h : SameWay s s' r r') (m : Machine Number) :
    SameWay s (s'.setMachine m) r (r'.setMachine m) :=
  ⟨⟨rfl, h.path, h.actions⟩, h.reports, h.modes⟩

theorem report (h : SameWay s s' r r') (d : Diagnostic) :
    SameWay s (s'.report d) r (r'.report d) := by
  obtain ⟨more, hs, hr⟩ := h.reports
  exact ⟨⟨h.machine, h.path, h.actions⟩,
    ⟨more ++ [d], by simp [Station.report, Controller.report, hs], by
    simp [Station.report, Controller.report, hr]⟩, h.modes⟩

theorem setModes (h : SameWay s s' r r') (f : AuxModes → AuxModes) :
    SameWay s { s' with modes := f s'.modes } r { r' with modes := f r'.modes } := by
  obtain ⟨f', hs, hr⟩ := h.modes
  exact ⟨⟨h.machine, h.path, h.actions⟩, h.reports,
    ⟨f ∘ f', by simp only [hs, Function.comp], by simp only [hr, Function.comp]⟩⟩

end SameWay
end Station

namespace Auxiliary
variable {s r : Station} {b : Block Number} {code : Number}

structure Result.SameWay (s : Station) (x : Result) (r : Station) (y : Result) : Prop where
  way : Station.SameWay s x.station r y.station
  outcome : y.outcome = x.outcome

theorem refuse_sameWay {s' r' : Station} (h : Station.SameWay s s' r r') (message : String) :
    Result.SameWay s (refuse s' b message) r (refuse r' b message) := ⟨h.report _, rfl⟩

theorem startSpindle_sameWay (h : s.Twin r) (name direction : String) :
    Result.SameWay s (startSpindle name direction b s) r (startSpindle name direction b r) := by
  have htaken : Station.SameWay s (takeSpeed b s) r (takeSpeed b r) := by
    rw [takeSpeed, takeSpeed, h.machine]
    exact (Station.SameWay.refl h).setMachine _
  have hnone : (Block.empty b.line : Block Number).param .s = none := rfl
  rw [startSpindle_takeSpeed, startSpindle_takeSpeed name direction b r]
  simp only [startSpindle, hnone, htaken.machine]
  cases (takeSpeed b s).machine.speed.holds .le (.int 0) with
  | error f => exact ⟨htaken, rfl⟩
  | ok stopped =>
    cases stopped with
    | true => exact refuse_sameWay htaken _
    | false => exact ⟨htaken.print _ _, rfl⟩

theorem perform_sameWay (h : s.Twin r) (m : MCode) :
    Result.SameWay s (perform m b s) r (perform m b r) := by
  have hway := Station.SameWay.refl h
  have hswitch : ∀ name code, Result.SameWay s (switch name code b s) r (switch name code b r) := by
    intro name code
    unfold switch
    cases b.param .p with
    | none => exact ⟨hway, rfl⟩
    | some p => exact ⟨hway.print _ _, rfl⟩
  cases m with
  | spindleCw => exact startSpindle_sameWay h "M3" "CW"
  | spindleCcw => exact startSpindle_sameWay h "M4" "CCW"
  | programEnd | programEndRewind =>
    exact ⟨(hway.setModes fun modes => { modes with spindle := .int 5, coolant := .int 9 }).print _
      _, rfl⟩
  | toolChange =>
    unfold perform toolChange
    cases b.tool with
    | none => exact ⟨hway.print _ _, rfl⟩
    | some t =>
      simp only [h.machine]
      exact ⟨(hway.setMachine _).print _ _, rfl⟩
  | setTool =>
    unfold perform setTool
    cases b.param .q with
    | none => exact refuse_sameWay hway _
    | some q =>
      simp only [h.machine]
      cases q.truncate with
      | error f => exact ⟨hway, rfl⟩
      | ok n => exact ⟨(hway.setMachine _).print _ _, rfl⟩
  | feedOverride => exact hswitch _ _
  | spindleOverride => exact hswitch _ _
  | adaptiveFeed => exact hswitch _ _
  | feedStop => exact hswitch _ _
  | pause | optionalPause | palletChange | spindleStop | mistOn | floodOn | coolantOff | overridesOn
    | overridesOff => exact ⟨hway.print _ _, rfl⟩

/-- A code does the same on stations that are alike. -/
theorem execute_sameWay (h : s.Twin r) (bare : s.Bare) (code : Number) :
    Result.SameWay s (execute code b s) r (execute code b r) := by
  have hway := Station.SameWay.refl h
  unfold execute
  cases MCode.ofNumber? code with
  | some m =>
    obtain ⟨hperform, houtcome⟩ := perform_sameWay (b := b) h m
    simp only [executeBuiltin, houtcome]
    cases (perform m b s).outcome with
    | ok ok => exact ⟨hperform.setModes (noteMode m code), rfl⟩
    | error f => exact ⟨hperform.report _, rfl⟩
  | none =>
    have hnone : s.actions.get? code = none := by rw [bare]; rfl
    cases isCustom code with
    | error f => exact ⟨hway, rfl⟩
    | ok custom =>
      cases custom with
      | true =>
        simp only [executeCustom, h.actions, hnone]
        exact ⟨hway.report _, rfl⟩
      | false => exact refuse_sameWay hway _

theorem executeAll_of_ok (h : (execute code b s).outcome = .ok true) (rest : List Number) :
    executeAll b (code :: rest) s = executeAll b rest (execute code b s).station := by
  rw [executeAll]
  cases hx : execute code b s with
  | mk s' outcome =>
    rw [hx] at h
    simp only at h
    rw [h]

theorem executeAll_of_not_ok (h : (execute code b s).outcome ≠ .ok true) (rest : List Number) :
    executeAll b (code :: rest) s = execute code b s := by
  rw [executeAll]
  split
  · rename_i s' hx
    rw [hx] at h
    exact absurd rfl h
  · rfl

theorem bare_execute (bare : s.Bare) (code : Number) (b : Block Number) :
    (execute code b s).station.Bare :=
  (execute_bare bare code b).rests.actions.trans bare

theorem executeAll_sameWay (h : s.Twin r) (bare : s.Bare) (codes : List Number) :
    Result.SameWay s (executeAll b codes s) r (executeAll b codes r) := by
  induction codes generalizing s r with
  | nil => exact ⟨.refl h, rfl⟩
  | cons code rest ih =>
    obtain ⟨hway, houtcome⟩ := execute_sameWay (b := b) h bare code
    by_cases hok : (execute code b s).outcome = .ok true
    · rw [executeAll_of_ok hok, executeAll_of_ok (houtcome.trans hok)]
      obtain ⟨hrest, heq⟩ := ih hway.toTwin (bare_execute bare code b)
      exact ⟨hway.trans hrest, heq⟩
    · rw [executeAll_of_not_ok hok, executeAll_of_not_ok (by rwa [houtcome])]
      exact ⟨hway, houtcome⟩

end Auxiliary

namespace Interpreter
variable {s r : Station} {b : Block Number} {bs : List (Block Number)}

theorem runGCodes_sameWay (h : s.Twin r) (b : Block Number) :
    Auxiliary.Result.SameWay s (runGCodes b s) r (runGCodes b r) := by
  unfold runGCodes
  cases Number.sort b.g.keys with
  | error f => exact ⟨.refl h, rfl⟩
  | ok codes =>
    -- both controllers are the same one with different reports in front
    have hs : s.control = (⟨s.machine, s.control.path, []⟩ : Controller Number).after
        s.control.reports := by
      simp [Controller.after, Station.machine]
    have hr : r.control = (⟨s.machine, s.control.path, []⟩ : Controller Number).after
        r.control.reports := by
      rw [← h.machine, ← h.path]
      simp [Controller.after, Station.machine]
    simp only
    rw [hs, hr, Motion.executeAll_after, Motion.executeAll_after]
    exact ⟨⟨⟨rfl, rfl, h.actions⟩, ⟨_, rfl, rfl⟩, ⟨id, rfl, rfl⟩⟩, rfl⟩

def runMCodes (b : Block Number) (s : Station) : Auxiliary.Result :=
  match Number.sort b.m.keys with
  | .error f => ⟨s, .error f⟩
  | .ok codes => Auxiliary.executeAll b codes s

theorem runCodes_of_ok (h : (runMCodes b s).outcome = .ok true) :
    runCodes b s = runGCodes b (runMCodes b s).station := by
  unfold runMCodes at h ⊢
  unfold runCodes
  cases hsort : Number.sort b.m.keys with
  | error f =>
    rw [hsort] at h
    cases h
  | ok codes =>
    rw [hsort] at h
    simp only at h ⊢
    cases hall : Auxiliary.executeAll b codes s with
    | mk s' outcome =>
      rw [hall] at h
      simp only at h
      rw [h]

theorem runCodes_of_not_ok (h : (runMCodes b s).outcome ≠ .ok true) :
    runCodes b s = runMCodes b s := by
  unfold runMCodes at h ⊢
  unfold runCodes
  cases hsort : Number.sort b.m.keys with
  | error f => rfl
  | ok codes =>
    rw [hsort] at h
    simp only at h ⊢
    split
    · rename_i s' hall
      rw [hall] at h
      exact absurd rfl h
    · rfl

theorem runMCodes_sameWay (h : s.Twin r) (bare : s.Bare) (b : Block Number) :
    Auxiliary.Result.SameWay s (runMCodes b s) r (runMCodes b r) := by
  unfold runMCodes
  cases Number.sort b.m.keys with
  | error f => exact ⟨.refl h, rfl⟩
  | ok codes => exact Auxiliary.executeAll_sameWay h bare codes

theorem runCodes_sameWay (h : s.Twin r) (bare : s.Bare) (b : Block Number) :
    Auxiliary.Result.SameWay s (runCodes b s) r (runCodes b r) := by
  obtain ⟨hway, houtcome⟩ := runMCodes_sameWay h bare b
  by_cases hok : (runMCodes b s).outcome = .ok true
  · rw [runCodes_of_ok hok, runCodes_of_ok (houtcome.trans hok)]
    obtain ⟨hrest, heq⟩ := runGCodes_sameWay hway.toTwin b
    exact ⟨hway.trans hrest, heq⟩
  · rw [runCodes_of_not_ok hok, runCodes_of_not_ok (by rwa [houtcome])]
    exact ⟨hway, houtcome⟩

/-- A block does the same on stations that are alike, whatever they have reported and printed. -/
theorem carry_sameWay (h : s.Twin r) (bare : s.Bare) (b : Block Number) :
    Station.SameWay s (carry s b) r (carry r b) := by
  have htwin : Station.Twin { s with printed := s.printed ++ announcements b }
      { r with printed := r.printed ++ announcements b } := ⟨h.machine, h.path, h.actions⟩
  obtain ⟨hway, -⟩ := runCodes_sameWay htwin bare b
  exact ⟨hway.toTwin, hway.reports, hway.modes⟩

end Interpreter

end Machining
