import Machining.Interpreter
import Machining.Proofs.Movement

namespace Machining

/-- A report on a code: it concerns a line as a whole, and does not stop the program. -/
structure Diagnostic.OnCode (d : Diagnostic) : Prop where
  columns : d.start = 0 ∧ d.stop = 0
  category : d.category = .semantic ∨ d.category = .runtime
  severity : d.severity ≠ .fatal

/-- Reports on codes and segments were added, all of them on certain lines. -/
structure Controller.Grows {α : Type} (on : Int → Prop) (c d : Controller α) : Prop where
  reports : ∃ more, d.reports = c.reports ++ more ∧ ∀ e ∈ more, on e.line ∧ e.OnCode
  segments : ∃ more, d.path.segments = c.path.segments ++ more ∧ ∀ s ∈ more, on s.line

namespace Controller.Grows
variable {α : Type} {on on' : Int → Prop} {c d e : Controller α}

theorem of_same (hr : d.reports = c.reports) (hs : d.path.segments = c.path.segments) :
    c.Grows on d :=
  ⟨⟨[], by simp [hr], by simp⟩, ⟨[], by simp [hs], by simp⟩⟩

theorem trans (h : c.Grows on d) (h' : d.Grows on e) : c.Grows on e := by
  obtain ⟨⟨ds, hds, hd⟩, ⟨ss, hss, hs⟩⟩ := h
  obtain ⟨⟨ds', hds', hd'⟩, ⟨ss', hss', hs'⟩⟩ := h'
  refine ⟨⟨ds ++ ds', by rw [hds', hds, List.append_assoc], ?_⟩,
    ⟨ss ++ ss', by rw [hss', hss, List.append_assoc], ?_⟩⟩
  · intro x hx
    rcases List.mem_append.mp hx with hx | hx
    · exact hd x hx
    · exact hd' x hx
  · intro x hx
    rcases List.mem_append.mp hx with hx | hx
    · exact hs x hx
    · exact hs' x hx

theorem mono (h : c.Grows on d) (hon : ∀ l, on l → on' l) : c.Grows on' d := by
  obtain ⟨⟨ds, hds, hd⟩, ⟨ss, hss, hs⟩⟩ := h
  exact ⟨⟨ds, hds, fun x hx => ⟨hon _ (hd x hx).1, (hd x hx).2⟩⟩,
    ⟨ss, hss, fun x hx => hon _ (hs x hx)⟩⟩

theorem of_report {x : Diagnostic} (hr : d.reports = c.reports ++ [x]) (hx : on x.line ∧ x.OnCode)
    (hs : d.path.segments = c.path.segments) : c.Grows on d :=
  ⟨⟨[x], hr, by simpa using hx⟩, ⟨[], by simp [hs], by simp⟩⟩

end Controller.Grows

theorem Motion.Effect.grows {α : Type} [Scalar α] {b : Block α} {c : Controller α}
    {r : Motion.Result α} (e : Effect b c r) : c.Grows (· = b.line) r.controller := by
  cases e with
  | stays still _ reports _ => exact .of_same reports (by rw [still.path])
  | refuses still _ e refusal reports =>
    have hcode : e.OnCode := ⟨refusal.columns, refusal.category, by rw [refusal.severity]; decide⟩
    exact .of_report reports ⟨refusal.line, hcode⟩ (by rw [still.path])
  | moves _ s path on _ _ _ reports _ =>
    exact ⟨⟨[], by simp [reports], by simp⟩, ⟨[s], path, by simpa using on⟩⟩

theorem Auxiliary.Effect.grows {b : Block Number} {s : Station} {r : Result} (e : Effect b s r) :
    s.control.Grows (· = b.line) r.station.control := by
  cases e with
  | accepts rests _ reports _ => exact .of_same reports (by rw [rests.path])
  | remarks rests _ e remark reports =>
    have hcode : e.OnCode := ⟨remark.columns, remark.category, remark.severity⟩
    exact .of_report reports ⟨remark.line, hcode⟩ (by rw [rests.path])

def Station.Bare (s : Station) : Prop := s.actions = .empty

theorem Auxiliary.execute_bare {s : Station} (h : s.Bare) (code : Number) (b : Block Number) :
    Effect b s (execute code b s) :=
  execute_effect code b s (by rw [h]; rfl)

namespace Interpreter

theorem foldl_print (texts : List String) (s : Station) :
    texts.foldl Station.print s = { s with printed := s.printed ++ texts } := by
  induction texts generalizing s with
  | nil => simp
  | cons text texts ih => simp [ih, Station.print]

/-- What every code keeps, the codes of a block keep. -/
theorem runCodes_keeps {P : Station → Prop} {b : Block Number}
    (hm : ∀ code s, P s → P (Auxiliary.execute code b s).station)
    (hg : ∀ code s, P s → P { s with control := (Motion.execute code b s.control).2 })
    {s : Station} (h : P s) : P (runCodes b s).station := by
  unfold runCodes
  split
  · exact h
  · rename_i codes _
    have hall := Auxiliary.executeAll_keeps hm codes s h
    split
    · rename_i t he
      rw [he] at hall
      unfold runGCodes
      split
      · exact hall
      · rename_i gcodes _
        exact Motion.executeAll_keeps (P := fun c => P { t with control := c })
          (fun code c hc => hg code { t with control := c } hc) gcodes t.control hall
    · exact hall

/-- The codes of a block add to their own line, and give no custom code an action. -/
theorem runCodes_grows (b : Block Number) {s : Station} (h : s.Bare) :
    s.control.Grows (· = b.line) (runCodes b s).station.control ∧ (runCodes b s).station.Bare := by
  apply runCodes_keeps (P := fun t => s.control.Grows (· = b.line) t.control ∧ t.Bare)
  · rintro code t ⟨hg, hb⟩
    have he := Auxiliary.execute_bare hb code b
    exact ⟨hg.trans he.grows, he.rests.actions.trans hb⟩
  · rintro code t ⟨hg, hb⟩
    exact ⟨hg.trans (Motion.execute_effect code b t.control).grows, hb⟩
  · exact ⟨.of_same rfl rfl, h⟩

/-- Blocks add to their own lines. -/
theorem foldl_grows {f : Station → Block Number → Station}
    (hf : ∀ b s, s.Bare → s.control.Grows (· = b.line) (f s b).control ∧ (f s b).Bare)
    {on : Int → Prop}
    {bs : List (Block Number)} {s : Station} (hs : s.Bare) (hon : ∀ b ∈ bs, on b.line) :
    s.control.Grows on (bs.foldl f s).control := by
  induction bs generalizing s with
  | nil => exact .of_same rfl rfl
  | cons b bs ih =>
    obtain ⟨hgrows, hbare⟩ := hf b s hs
    have hfirst : s.control.Grows on (f s b).control := by
      apply hgrows.mono
      rintro l rfl
      exact hon b List.mem_cons_self
    exact hfirst.trans (ih hbare fun b' hb' => hon b' (List.mem_cons_of_mem b hb'))

/-- The interpreter as it takes up a text: everything of the run before is cleared, and scanning and
reading have made their reports. -/
def begin (text : String) (t : Interpreter) : Interpreter :=
  { t.clear with text, tokens := (Token.scan text).1 }.setReports
    ((Token.scan text).2 ++ (Block.ofTokens (Token.scan text).1).reports)

variable [Expression.Evaluator] {P : Interpreter → Prop} {t : Interpreter}

theorem step_keeps (hfollow : ∀ b t, P t → P (follow b t).1)
    (hblock : ∀ b t, P t → P (executeBlock b t).1)
    (hgo : ∀ t i, P t → P { t with position := i }) (h : P t) : P t.step.1 := by
  unfold step
  split
  · split
    · exact h
    · rename_i b _
      have hf := hfollow b t h
      split
      · rename_i t' f he
        rw [he] at hf
        exact hf
      · rename_i t' next he
        rw [he] at hf
        exact hgo t' next hf
      · rename_i t' he
        rw [he] at hf
        have hb := hblock b t' hf
        split
        · rename_i t'' f hx
          rw [hx] at hb
          exact hb
        · rename_i t'' ok hx
          rw [hx] at hb
          split
          · exact hb
          · exact hgo t'' _ hb
  · exact h

/-- What a step keeps, any number of steps keeps. -/
theorem run_keeps (hstep : ∀ t, P t → P t.step.1) (n : Nat) (h : P t) : P (run n t).1 := by
  induction n generalizing t with
  | zero => exact h
  | succ n ih =>
    have hs := hstep t h
    unfold run
    split
    · rename_i t' verdict he
      rw [he] at hs
      exact hs
    · rename_i t' he
      rw [he] at hs
      exact ih hs

def perform (blocks : List (Block Number)) (t : Interpreter) : Interpreter × Except Fault Bool :=
  match t.load blocks.toArray with
  | (t, .ok true) =>
    match t.executeBlocks (t.blocks.size + 1) with
    | (t, .ok ok) => (t, .ok (ok && !Diagnostic.hasFatal t.reports))
    | (t, .error f) => (t, .error f)
  | (t, verdict) => (t, verdict)

theorem process_eq_perform (text : String) (t : Interpreter) :
    t.process text =
      match (Block.ofTokens (Token.scan text).1).blocks? with
      | none => (begin text t, .error .infinityToInteger)
      | some blocks => (begin text t).perform blocks := rfl

/-- What loading and every number of steps keep, processing keeps. -/
theorem process_keeps (hload : ∀ t blocks, P t → P (load blocks t).1)
    (hrun : ∀ n t, P t → P (executeBlocks n t).1) (text : String) (t : Interpreter)
    (h : P (begin text t)) : P (t.process text).1 := by
  rw [process_eq_perform]
  split
  · exact h
  · rename_i blocks _
    have hl := hload _ blocks.toArray h
    unfold perform
    split
    · rename_i t₁ he
      rw [he] at hl
      have hr := hrun (t₁.blocks.size + 1) t₁ hl
      split
      · rename_i t₂ ok hx
        rw [hx] at hr
        exact hr
      · rename_i t₂ f hx
        rw [hx] at hr
        exact hr
    · rename_i t₁ verdict _ he
      rw [he] at hl
      exact hl

end Interpreter
end Machining
