import Machining.Proofs.Lockstep
import Machining.Proofs.SinglePass

namespace Machining

structure Station.Agree (σ : Scope) (s t : Station) : Prop where
  control : s.control.Agree σ t.control
  left : s.Bare
  right : t.Bare

namespace Machine
variable {σ : Scope} {m n : Machine Number}

/-- Tool numbers do not count, and speeds only as settings. -/
theorem Agree.setSpeed (h : m.Agree σ n) {v w : Number} (hv : v.IsFloat) (hw : w.IsFloat)
    (hvw : σ.settings → v = w ∨ v.holds .le (.int 0) = .ok true ∧ w.holds .le (.int 0) = .ok true)
    (t u : Number) :
    ({ m with speed := v, tool := t } : Machine Number).Agree σ
      { n with speed := w, tool := u } where
  left := { h.left with speed := hv }
  right := { h.right with speed := hw }
  position := h.position
  shift := h.shift_congr ⟨rfl, rfl⟩ ⟨rfl, rfl⟩
  groups := h.groups
  plane := h.plane
  absolute := h.absolute
  trail := h.trail
  feed := h.feed
  speed := hvw

theorem Agree.setTool (h : m.Agree σ n) (t u : Number) :
    ({ m with tool := t } : Machine Number).Agree σ { n with tool := u } :=
  h.setSpeed h.left.speed h.right.speed h.speed t u

end Machine

def MCode.asksSpeed : MCode → Bool
  | .spindleCw | .spindleCcw => true
  | _ => false

namespace Auxiliary
variable {σ : Scope} {s t : Station} {b : Block Number}

structure Result.Agree (σ : Scope) (r q : Result) : Prop where
  station : r.station.Agree σ q.station
  outcome : r.outcome = q.outcome

/-- Without a speed word it is the speed of the machine that counts: both have one, or neither
has. -/
def SameSpeed (b : Block Number) (s t : Station) : Prop :=
  b.param .s = none → s.machine.speed.holds .le (.int 0) = t.machine.speed.holds .le (.int 0)

theorem done_agree (h : s.Agree σ t) : (done s).Agree σ (done t) := ⟨h, rfl⟩

theorem print_agree (h : s.Agree σ t) (x y : String) : (s.print x).Agree σ (t.print y) :=
  ⟨h.control, h.left, h.right⟩

theorem report_agree (h : s.Agree σ t) (e : Diagnostic) : (s.report e).Agree σ (t.report e) :=
  ⟨⟨h.control.machine, h.control.path,
    by simp [Station.report, Controller.report, h.control.reports]⟩, h.left, h.right⟩

theorem takeSpeed_agree (h : s.Agree σ t) (hb : b.Written) :
    (takeSpeed b s).Agree σ (takeSpeed b t) := by
  refine ⟨⟨?_, h.control.path, h.control.reports⟩, h.left, h.right⟩
  cases hp : b.param .s with
  | none =>
    simp only [takeSpeed, hp]
    exact h.control.machine.setSpeed h.control.machine.left.speed h.control.machine.right.speed
      h.control.machine.speed _ _
  | some v =>
    have hv := hb.params .s v hp
    simp only [takeSpeed, hp]
    exact h.control.machine.setSpeed hv hv (fun _ => .inl rfl) _ _

theorem takeSpeed_same (hs : SameSpeed b s t) :
    (takeSpeed b s).machine.speed.holds .le (.int 0) =
      (takeSpeed b t).machine.speed.holds .le (.int 0) := by
  cases hp : b.param .s with
  | none =>
    simp only [takeSpeed, hp]
    exact hs hp
  | some v =>
    simp only [takeSpeed, hp]
    rfl

theorem startSpindle_agree (h : s.Agree σ t) (hb : b.Written) (hs : SameSpeed b s t)
    (code direction : String) :
    (startSpindle code direction b s).Agree σ (startSpindle code direction b t) := by
  have htaken := takeSpeed_agree h hb
  have hnone : (Block.empty b.line : Block Number).param .s = none := rfl
  rw [startSpindle_takeSpeed, startSpindle_takeSpeed code direction b t]
  simp only [startSpindle, hnone, takeSpeed_same hs]
  cases (takeSpeed b t).machine.speed.holds .le (.int 0) with
  | error f => exact ⟨htaken, rfl⟩
  | ok unset =>
    cases unset with
    | true => exact ⟨report_agree htaken _, rfl⟩
    | false => exact done_agree (print_agree htaken _ _)

theorem setTool_machine_agree (h : s.Agree σ t) (n k : Number) :
    (s.setMachine { s.machine with tool := n }).Agree σ
      (t.setMachine { t.machine with tool := k }) :=
  ⟨⟨h.control.machine.setTool n k, h.control.path, h.control.reports⟩, h.left, h.right⟩

/-- One built-in code does the same on both, provided that both have a speed where it asks for
one. -/
theorem perform_agree (h : s.Agree σ t) (hb : b.Written) (m : MCode)
    (hs : m.asksSpeed → SameSpeed b s t) : (perform m b s).Agree σ (perform m b t) := by
  cases m with
  | spindleCw => exact startSpindle_agree h hb (hs rfl) "M3" "CW"
  | spindleCcw => exact startSpindle_agree h hb (hs rfl) "M4" "CCW"
  | toolChange =>
    simp only [perform, toolChange]
    cases b.tool with
    | none => exact done_agree (print_agree h _ _)
    | some n => exact done_agree (print_agree (setTool_machine_agree h n n) _ _)
  | setTool =>
    simp only [perform, setTool]
    split
    · exact ⟨report_agree h _, rfl⟩
    · split
      · exact ⟨h, rfl⟩
      · exact done_agree (print_agree (setTool_machine_agree h _ _) _ _)
  | feedOverride | spindleOverride | adaptiveFeed | feedStop =>
    simp only [perform, switch]
    split
    · exact done_agree h
    · exact done_agree (print_agree h _ _)
  | programEnd | programEndRewind =>
    exact done_agree ⟨h.control, h.left, h.right⟩
  | _ => exact done_agree (print_agree h _ _)

theorem execute_agree (h : s.Agree σ t) (hb : b.Written) (code : Number)
    (hs : ∀ m, MCode.ofNumber? code = some m → m.asksSpeed → SameSpeed b s t) :
    (execute code b s).Agree σ (execute code b t) := by
  unfold execute
  cases hm : MCode.ofNumber? code with
  | some m =>
    have hp := perform_agree h hb m (hs m hm)
    simp only [executeBuiltin, hp.outcome]
    cases (perform m b t).outcome with
    | ok ok => exact ⟨⟨hp.station.control, hp.station.left, hp.station.right⟩, rfl⟩
    | error f => exact ⟨report_agree hp.station _, rfl⟩
  | none =>
    simp only
    cases isCustom code with
    | error f => exact ⟨h, rfl⟩
    | ok custom =>
      cases custom with
      | false => exact ⟨report_agree h _, rfl⟩
      | true =>
        have hleft : s.actions.get? code = none := by rw [h.left]; rfl
        have hright : t.actions.get? code = none := by rw [h.right]; rfl
        simp only [executeCustom, hleft, hright]
        exact ⟨report_agree h _, rfl⟩

/-- Without a speed, a code that asks for one is refused. -/
theorem execute_unsped {code : Number} {m : MCode} (hm : MCode.ofNumber? code = some m)
    (hask : m.asksSpeed) (hnone : b.param .s = none)
    (hle : s.machine.speed.holds .le (.int 0) = .ok true) :
    ∃ s' e, execute code b s = ⟨s', .ok false⟩ ∧ s'.control.reports = s.control.reports ++ [e] ∧
      e.opening = some 'S' := by
  have hstart : ∀ name direction : String,
      startSpindle name direction b s = refuse s b s!"Spindle speed must be set before {name}" := by
    intro name direction
    simp only [startSpindle, hnone, hle]
  have hperform : ∃ name : String, perform m b s =
      refuse s b s!"Spindle speed must be set before {name}" := by
    cases m with
    | spindleCw => exact ⟨"M3", by rw [perform, hstart]⟩
    | spindleCcw => exact ⟨"M4", by rw [perform, hstart]⟩
    | _ => cases hask
  obtain ⟨name, hn⟩ := hperform
  let e := Diagnostic.onLine b.line .semantic s!"Spindle speed must be set before {name}"
  have hop : e.opening = some 'S' := Diagnostic.opening_append (by decide)
  refine ⟨{ s.report e with modes := noteMode m code s.modes }, e, ?_, rfl, hop⟩
  simp only [execute, hm, executeBuiltin, hn, refuse]
  rfl

end Auxiliary

namespace Interpreter
variable {σ : Scope} {s t : Station} {b : Block Number}

def runFrom (b : Block Number) (codes : List Number) (s : Station) : Auxiliary.Result :=
  match Auxiliary.executeAll b codes s with
  | ⟨s, .ok true⟩ => runGCodes b s
  | r => r

theorem runCodes_eq_runFrom (b : Block Number) (s : Station) :
    runCodes b s = match Number.sort b.m.keys with
      | .error f => ⟨s, .error f⟩
      | .ok codes => runFrom b codes s := rfl

theorem runFrom_cons (b : Block Number) (code : Number) (rest : List Number) (s : Station) :
    runFrom b (code :: rest) s = match Auxiliary.execute code b s with
      | ⟨s, .ok true⟩ => runFrom b rest s
      | r => r := by
  simp only [runFrom, Auxiliary.executeAll]
  generalize Auxiliary.execute code b s = r
  obtain ⟨u, outcome⟩ := r
  cases outcome with
  | error f => rfl
  | ok ok => cases ok <;> rfl

theorem runGCodes_agree (h : s.Agree σ t) (hb : b.Written)
    (hf : Motion.SameFeed b s.control t.control) : (runGCodes b s).Agree σ (runGCodes b t) := by
  unfold runGCodes
  split
  · exact ⟨h, rfl⟩
  · rename_i codes _
    obtain ⟨hflag, hagree⟩ := Motion.executeAll_agree h.control hb hf codes
    exact ⟨⟨hagree, h.left, h.right⟩, congrArg Except.ok hflag⟩

theorem runGCodes_same (h : s.Agree σ t) (hb : b.Written)
    (hr : (runGCodes b s).station.control.reports = (runGCodes b t).station.control.reports) :
    (runGCodes b s).Agree σ (runGCodes b t) := by
  unfold runGCodes at hr ⊢
  split
  · exact ⟨h, rfl⟩
  · rename_i codes hsort
    rw [hsort] at hr
    obtain ⟨hflag, hagree⟩ := Motion.executeAll_same h.control hb codes hr
    exact ⟨⟨hagree, h.left, h.right⟩, congrArg Except.ok hflag⟩

/-- M-codes leave the feed alone. -/
theorem execute_feed (h : s.Bare) (code : Number) (b : Block Number) :
    (Auxiliary.execute code b s).station.machine.feed = s.machine.feed := by
  obtain ⟨speed, tool, hm⟩ := (Auxiliary.execute_bare h code b).rests.machine
  rw [Station.machine, hm]
  rfl

/-- The codes of a block in lockstep. -/
theorem runFrom_agree (h : s.Agree σ t) (hb : b.Written)
    (hf : Motion.SameFeed b s.control t.control) (hs : Auxiliary.SameSpeed b s t)
    (codes : List Number) : (runFrom b codes s).Agree σ (runFrom b codes t) := by
  induction codes generalizing s t with
  | nil => exact runGCodes_agree h hb hf
  | cons code rest ih =>
    have hagree := Auxiliary.execute_agree h hb code fun _ _ _ => hs
    have hf' : Motion.SameFeed b (Auxiliary.execute code b s).station.control
        (Auxiliary.execute code b t).station.control := by
      intro hnone
      have hleft := execute_feed h.left code b
      have hright := execute_feed h.right code b
      simp only [Station.machine] at hleft hright
      rw [hleft, hright]
      exact hf hnone
    have hs' : Auxiliary.SameSpeed b (Auxiliary.execute code b s).station
        (Auxiliary.execute code b t).station := by
      intro hnone
      rw [(Auxiliary.execute_bare h.left code b).sped.eq hnone,
        (Auxiliary.execute_bare h.right code b).sped.eq hnone]
      exact hs hnone
    rw [runFrom_cons, runFrom_cons]
    generalize Auxiliary.execute code b s = x at *
    generalize Auxiliary.execute code b t = y at *
    obtain ⟨s', outcome⟩ := x
    obtain ⟨t', outcome'⟩ := y
    obtain ⟨hst, rfl⟩ := hagree
    cases outcome with
    | error f => exact ⟨hst, rfl⟩
    | ok ok =>
      cases ok with
      | false => exact ⟨hst, rfl⟩
      | true => exact ih hst hf' hs'

/-- With a speed, no code asks for one. -/
theorem runFrom_sped (h : s.Bare) (hnone : b.param .s = none)
    (hle : s.machine.speed.holds .le (.int 0) ≠ .ok true) (codes : List Number) :
    ∃ more, (runFrom b codes s).station.control.reports = s.control.reports ++ more ∧
      ∀ e ∈ more, e.opening ≠ some 'S' := by
  induction codes generalizing s with
  | nil =>
    change ∃ more, (runGCodes b s).station.control.reports = _ ∧ _
    unfold runGCodes
    split
    · exact ⟨[], by simp, by simp⟩
    · rename_i codes _
      apply Motion.executeAll_keeps (b := b)
        (P := fun c => ∃ more, c.reports = s.control.reports ++ more ∧ ∀ e ∈ more,
          e.opening ≠ some 'S')
      · rintro code c ⟨more, hmore, hno⟩
        obtain ⟨new, hnew, hrefusal⟩ := (Motion.execute_effect code b c).newReports
        refine ⟨more ++ new, ?_, ?_⟩
        · rw [← List.append_assoc, ← hmore]
          exact hnew
        · intro e he
          rcases List.mem_append.mp he with he | he
          · exact hno e he
          · exact (hrefusal e he).speed
      · exact ⟨[], by simp, by simp⟩
  | cons code rest ih =>
    have heffect := Auxiliary.execute_bare h code b
    obtain ⟨new, hnew, hremark⟩ := heffect.newReports
    have hspeed := heffect.sped.eq hnone
    have hbare := heffect.rests.actions.trans h
    have hno : ∀ e ∈ new, e.opening ≠ some 'S' := by
      intro e he hop
      have := (hremark e he).speed hop
      rw [hnone] at this
      exact hle this
    rw [runFrom_cons]
    generalize Auxiliary.execute code b s = x at *
    obtain ⟨s', outcome⟩ := x
    cases outcome with
    | error f => exact ⟨new, hnew, hno⟩
    | ok ok =>
      cases ok with
      | false => exact ⟨new, hnew, hno⟩
      | true =>
        obtain ⟨more, hmore, hno'⟩ := ih hbare (by rw [hspeed]; exact hle)
        refine ⟨new ++ more, ?_, ?_⟩
        · simp only
          rw [hmore, hnew, List.append_assoc]
        · intro e he
          rcases List.mem_append.mp he with he | he
          · exact hno e he
          · exact hno' e he

/-- A code that asks for a speed which only one of two stations has shows in the reports. -/
theorem runFrom_unsped (h : s.control.reports = t.control.reports) (ht : t.Bare) {code : Number}
    {m : MCode} (hm : MCode.ofNumber? code = some m) (hask : m.asksSpeed)
    (hnone : b.param .s = none) (hs : s.machine.speed.holds .le (.int 0) = .ok true)
    (hle : t.machine.speed.holds .le (.int 0) ≠ .ok true) (rest : List Number) :
    (runFrom b (code :: rest) s).station.control.reports ≠
      (runFrom b (code :: rest) t).station.control.reports := by
  obtain ⟨s', e, hexec, hreports, hop⟩ := Auxiliary.execute_unsped hm hask hnone hs
  obtain ⟨more, hmore, hno⟩ := runFrom_sped ht hnone hle (code :: rest)
  intro heq
  rw [hmore, runFrom_cons, hexec, hreports, h] at heq
  have hmem : e ∈ more := by
    rw [← List.append_cancel_left heq]
    exact List.mem_singleton_self e
  exact hno e hmem hop

/-- Two runs through the codes of a block that make the same reports are in lockstep. -/
theorem runFrom_same (h : s.Agree σ t) (hb : b.Written) (codes : List Number)
    (hr : (runFrom b codes s).station.control.reports =
      (runFrom b codes t).station.control.reports) :
    (runFrom b codes s).Agree σ (runFrom b codes t) := by
  induction codes generalizing s t with
  | nil => exact runGCodes_same h hb hr
  | cons code rest ih =>
    have hquiet : ∀ m, MCode.ofNumber? code = some m → m.asksSpeed → Auxiliary.SameSpeed b s t := by
      intro m hm hask hnone
      obtain ⟨x, hx⟩ := Motion.le_zero_float h.control.machine.left.speed
      obtain ⟨y, hy⟩ := Motion.le_zero_float h.control.machine.right.speed
      have hleft : s.machine.speed.holds .le (.int 0) = .ok x := hx
      have hright : t.machine.speed.holds .le (.int 0) = .ok y := hy
      rw [hleft, hright]
      cases x <;> cases y
      · rfl
      · exact absurd hr.symm (runFrom_unsped h.control.reports.symm h.left hm hask hnone hright
          (by rw [hleft]; simp) rest)
      · exact absurd hr (runFrom_unsped h.control.reports h.right hm hask hnone hleft
          (by rw [hright]; simp) rest)
      · rfl
    have hagree := Auxiliary.execute_agree h hb code hquiet
    rw [runFrom_cons, runFrom_cons] at hr ⊢
    generalize Auxiliary.execute code b s = x at *
    generalize Auxiliary.execute code b t = y at *
    obtain ⟨s', outcome⟩ := x
    obtain ⟨t', outcome'⟩ := y
    obtain ⟨hst, rfl⟩ := hagree
    cases outcome with
    | error f => exact ⟨hst, rfl⟩
    | ok ok =>
      cases ok with
      | false => exact ⟨hst, rfl⟩
      | true => exact ih hst hr

/-- A block in lockstep: both stations have a feed and a speed, or neither has. -/
theorem carry_agree (h : s.Agree σ t) (hb : b.Written) (hf : Motion.SameFeed b s.control t.control)
    (hs : Auxiliary.SameSpeed b s t) : (carry s b).Agree σ (carry t b) := by
  obtain ⟨codes, hcodes, _⟩ := Number.sort_given hb.coded.m
  have hprint := runFrom_agree (s := { s with printed := s.printed ++ announcements b })
    (t := { t with printed := t.printed ++ announcements b }) ⟨h.control, h.left,
      h.right⟩ hb hf hs codes
  unfold carry
  rw [runCodes_eq_runFrom, runCodes_eq_runFrom, hcodes]
  exact hprint.station

/-- A block on which two stations make the same reports goes in lockstep. -/
theorem carry_same (h : s.Agree σ t) (hb : b.Written)
    (hr : (carry s b).control.reports = (carry t b).control.reports) :
    (carry s b).Agree σ (carry t b) := by
  obtain ⟨codes, hcodes, _⟩ := Number.sort_given hb.coded.m
  unfold carry at hr ⊢
  rw [runCodes_eq_runFrom, runCodes_eq_runFrom, hcodes] at hr ⊢
  have hprint := runFrom_same (s := { s with printed := s.printed ++ announcements b })
    (t := { t with printed := t.printed ++ announcements b }) ⟨h.control, h.left,
      h.right⟩ hb codes hr
  exact hprint.station

/-- Where settings are compared, nothing more is asked. -/
theorem carry_settings (h : s.Agree σ t) (hσ : σ.settings) (hb : b.Written) :
    (carry s b).Agree σ (carry t b) := by
  apply carry_agree h hb
  · intro _
    rw [h.control.machine.feed hσ]
  · intro _
    rcases h.control.machine.speed hσ with heq | ⟨hs, ht⟩
    · simp only [Station.machine, heq]
    · exact hs.trans ht.symm

theorem foldl_carry_settings (h : s.Agree σ t) (hσ : σ.settings) {bs : List (Block Number)}
    (hb : ∀ b ∈ bs, b.Written) : (bs.foldl carry s).Agree σ (bs.foldl carry t) := by
  induction bs generalizing s t with
  | nil => exact h
  | cons b bs ih =>
    exact ih (carry_settings h hσ (hb b List.mem_cons_self)) fun b' hb' =>
      hb b' (List.mem_cons_of_mem b hb')

end Interpreter
end Machining
