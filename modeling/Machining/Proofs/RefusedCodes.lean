import Machining.Proofs.BlockStep

namespace Machining

structure Station.SameSettings (s t : Station) : Prop where
  modes : t.modes = s.modes
  speed : t.machine.speed = s.machine.speed
  feed : t.machine.feed = s.machine.feed
  tool : t.machine.tool = s.machine.tool

/-- Only missing speeds do not compare with zero. -/
theorem Number.holds_le_zero {v : Number} {f : Fault} (h : v.holds .le (.int 0) = .error f) :
    v = .missing := by
  cases v with
  | missing => rfl
  | int _ | float _ => cases h

namespace Auxiliary
variable {m : MCode} {code : Number} {b : Block Number} {s : Station}

def speedFor (b : Block Number) (s : Station) : Number := (b.param .s).getD s.machine.speed

def toolFor (b : Block Number) : Option Int := (b.param .q).bind fun q => q.truncate.toOption

/-- Whether a built-in code fails: the speed it asks for is not above zero, or the tool number is
not there. -/
def Fails (m : MCode) (b : Block Number) (s : Station) : Prop :=
  m.asksSpeed = true ∧ (speedFor b s).holds .le (.int 0) ≠ .ok false ∨ m = .setTool ∧
    toolFor b = none

inductive Failed (m : MCode) (code : Number) (b : Block Number) (s : Station) : Station → Prop where
  /-- A speed that does not compare is taken, and the mode is as it was. -/
  | unordered (asks : m.asksSpeed = true) (missing : speedFor b s = .missing) (e : Diagnostic)
      (on : e.line = b.line)
      (error : e.severity = .error) : Failed m code b s ((takeSpeed b s).report e)
  /-- A speed that is not above zero is taken, and the code is noted as the spindle mode. -/
  | refused (asks : m.asksSpeed = true) (nonpositive : (speedFor b s).holds .le (.int 0) = .ok true)
      (e : Diagnostic) (on : e.line = b.line) (error : e.severity = .error) :
      Failed m code b s { (takeSpeed b s).report e with modes := { s.modes with spindle := code } }
  /-- Without a tool number nothing changes. -/
  | toolless (sets : m = .setTool) (e : Diagnostic) (on : e.line = b.line)
      (error : e.severity = .error) :
      Failed m code b s (s.report e)

theorem ne_setTool (h : m.asksSpeed = true) : m ≠ .setTool := by
  rintro rfl
  cases h

/-- A code that neither asks for a speed nor sets the tool is always carried out. -/
theorem perform_succeeds (hspeed : m.asksSpeed = false) (htool : m ≠ .setTool) (b : Block Number)
    (s : Station) : (perform m b s).outcome = .ok true := by
  cases m with
  | spindleCw | spindleCcw => cases hspeed
  | setTool => exact absurd rfl htool
  | feedOverride | spindleOverride | adaptiveFeed | feedStop =>
    simp only [perform, switch]
    cases b.param .p <;> rfl
  | _ => rfl

theorem perform_spindle (h : m.asksSpeed = true) :
    ∃ name direction, ∀ (b : Block Number) (s : Station),
      perform m b s = startSpindle name direction b s := by
  cases m with
  | spindleCw => exact ⟨"M3", "CW", fun _ _ => rfl⟩
  | spindleCcw => exact ⟨"M4", "CCW", fun _ _ => rfl⟩
  | _ => cases h

theorem noteMode_spindle (h : m.asksSpeed = true) (code : Number) (modes : AuxModes) :
    noteMode m code modes = { modes with spindle := code } := by
  cases m with
  | spindleCw | spindleCcw => rfl
  | _ => cases h

/-- The check of the speed decides: it comes after the speed was taken and before the mode is
noted. -/
theorem executeBuiltin_spindle (h : m.asksSpeed = true) (code : Number) (b : Block Number)
    (s : Station) :
    (speedFor b s).holds .le (.int 0) = .ok false ∧ (executeBuiltin m code b s).1 = true ∨
      (speedFor b s).holds .le (.int 0) ≠ .ok false ∧ (executeBuiltin m code b s).1 = false ∧
        Failed m code b s (executeBuiltin m code b s).2 := by
  obtain ⟨name, direction, hperform⟩ := perform_spindle h
  have hnone : (Block.empty b.line : Block Number).param .s = none := rfl
  have hspeed : (takeSpeed b s).machine.speed = speedFor b s := rfl
  simp only [executeBuiltin, hperform]
  rw [startSpindle_takeSpeed]
  simp only [startSpindle, hnone, hspeed]
  cases hle : (speedFor b s).holds .le (.int 0) with
  | error f => exact .inr ⟨by simp, rfl, .unordered h (Number.holds_le_zero hle) _ rfl rfl⟩
  | ok nonpositive =>
    cases nonpositive with
    | false => exact .inl ⟨rfl, rfl⟩
    | true =>
      refine .inr ⟨by simp, rfl, ?_⟩
      simp only [refuse, noteMode_spindle h]
      exact .refused h hle _ rfl rfl

theorem executeBuiltin_setTool (code : Number) (b : Block Number) (s : Station) :
    (∃ n, toolFor b = some n) ∧ (executeBuiltin .setTool code b s).1 = true ∨
      toolFor b = none ∧ (executeBuiltin .setTool code b s).1 = false ∧
        Failed .setTool code b s (executeBuiltin .setTool code b s).2 := by
  simp only [executeBuiltin, perform, setTool, toolFor]
  cases b.param .q with
  | none => exact .inr ⟨rfl, rfl, .toolless rfl _ rfl rfl⟩
  | some q =>
    simp only [Option.bind_some]
    cases q.truncate with
    | error f => exact .inr ⟨rfl, rfl, .toolless rfl _ rfl rfl⟩
    | ok n => exact .inl ⟨⟨n, rfl⟩, rfl⟩

/-- A built-in code fails in no other way. -/
theorem executeBuiltin_fails_iff (m : MCode) (code : Number) (b : Block Number) (s : Station) :
    ((executeBuiltin m code b s).1 = false ↔ Fails m b s) ∧
      ((executeBuiltin m code b s).1 = false →
        Failed m code b s (executeBuiltin m code b s).2) := by
  unfold Fails
  cases hspeed : m.asksSpeed with
  | true =>
    have htool := ne_setTool hspeed
    rcases executeBuiltin_spindle hspeed code b s with ⟨hle, hok⟩ | ⟨hle, hno, hfailed⟩
    · simp [hok, hle, htool]
    · simp [hno, hle, hfailed]
  | false =>
    by_cases htool : m = .setTool
    · subst htool
      rcases executeBuiltin_setTool code b s with ⟨⟨n, hn⟩, hok⟩ | ⟨hn, hno, hfailed⟩
      · simp [hok, hn]
      · simp [hno, hn, hfailed]
    · have hok : (executeBuiltin m code b s).1 = true := by
        simp only [executeBuiltin, perform_succeeds hspeed htool b s]
      simp [hok, htool]

/-- A failure is seen in the settings unless it brings no new speed and no new mode. -/
theorem Failed.sameSettings_iff {t : Station} (h : Failed m code b s t) :
    s.SameSettings t ↔ m = .setTool ∨
      speedFor b s = s.machine.speed ∧ (s.machine.speed = .missing ∨ s.modes.spindle = code) := by
  cases h with
  | toolless sets e _ _ => exact ⟨fun _ => .inl sets, fun _ => ⟨rfl, rfl, rfl, rfl⟩⟩
  | unordered asks missing e _ _ =>
    constructor
    · intro hsame
      have hspeed : speedFor b s = s.machine.speed := hsame.speed
      exact .inr ⟨hspeed, .inl (hspeed.symm.trans missing)⟩
    · rintro (hset | ⟨hspeed, -⟩)
      · exact absurd hset (ne_setTool asks)
      · exact ⟨rfl, hspeed, rfl, rfl⟩
  | refused asks nonpositive e _ _ =>
    constructor
    · intro hsame
      exact .inr ⟨hsame.speed, .inr (congrArg AuxModes.spindle hsame.modes).symm⟩
    · rintro (hset | ⟨hspeed, hmissing | hmode⟩)
      · exact absurd hset (ne_setTool asks)
      · -- a missing speed does not compare with zero
        rw [hspeed, hmissing] at nonpositive
        cases nonpositive
      · exact ⟨by rw [← hmode], hspeed, rfl, rfl⟩

/-- A built-in code fails exactly if it has no speed above zero to start the spindle with, or no
tool number to set. Settings are then as they were if and only if the code sets the tool, or it
brings no new speed and is the spindle mode already (a speed that is missing altogether ends the
check before the mode is noted). -/
theorem execute_failing_keeps_iff (hcode : MCode.ofNumber? code = some m) (b : Block Number)
    (s : Station) :
    ((execute code b s).outcome = .ok false ↔ Fails m b s) ∧
      (Fails m b s → Failed m code b s (execute code b s).station ∧
        (s.SameSettings (execute code b s).station ↔ m = .setTool ∨
          speedFor b s = s.machine.speed ∧
          (s.machine.speed = .missing ∨ s.modes.spindle = code))) := by
  obtain ⟨hiff, hfailed⟩ := executeBuiltin_fails_iff m code b s
  simp only [execute, hcode, Except.ok.injEq]
  refine ⟨hiff, fun hfails => ?_⟩
  have hleft := hfailed (hiff.mpr hfails)
  exact ⟨hleft, hleft.sameSettings_iff⟩

def backwards : Block Number :=
  { (Block.empty 1 : Block Number) with params := (Params.fill none).set .s (some (.float (-5.0))) }

/-- A spindle start at a negative speed is refused, and leaves that speed and a running spindle
behind; a tool setting without a number leaves nothing. -/
theorem execute_failing_keeps_iff_backwards :
    (execute (.int 3) backwards .initial).outcome = .ok false ∧
      ¬ Station.initial.SameSettings (execute (.int 3) backwards .initial).station ∧
      (execute (.int 3) backwards .initial).station.modes.spindle = .int 3 ∧
      (execute (.int 61) backwards .initial).outcome = .ok false ∧
      Station.initial.SameSettings (execute (.int 61) backwards .initial).station := by
  have hspindle : MCode.ofNumber? (.int 3) = some .spindleCw := rfl
  have htool : MCode.ofNumber? (.int 61) = some .setTool := rfl
  obtain ⟨hstart, hkeeps⟩ := execute_failing_keeps_iff hspindle backwards .initial
  obtain ⟨hset, hkeeps'⟩ := execute_failing_keeps_iff htool backwards .initial
  have hclosed : (execute (.int 3) backwards .initial).outcome = .ok false ∧
      (execute (.int 3) backwards .initial).station.modes.spindle = .int 3 := by decide +kernel
  obtain ⟨hrefused, hmode⟩ := hclosed
  have htoolless : Fails .setTool backwards .initial := .inr ⟨rfl, rfl⟩
  refine ⟨hrefused, ?_, hmode, hset.mpr htoolless, (hkeeps' htoolless).2.mpr (.inl rfl)⟩
  intro hsame
  rcases (hkeeps (hstart.mp hrefused)).2.mp hsame with hsets | ⟨-, hmissing | hsame⟩
  · cases hsets
  · cases hmissing
  · cases hsame

end Auxiliary
end Machining
