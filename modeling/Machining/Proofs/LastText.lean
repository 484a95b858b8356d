import Machining.Proofs.LineIndex
import Machining.Proofs.Unreadable

namespace Machining

def Unreadable (text : String) : Prop := ∃ word ∈ (Token.scan text).1, word.Unbounded

/-- Without custom actions, a text is given up or it is accepted. -/
theorem Interpreter.process_decided {t : Interpreter} (bare : t.station.Bare) (text : String) :
    (Unreadable text ∧ ∃ f, (t.process text).2 = .error f) ∨ ¬ Unreadable text ∧
    (t.process text).2 = .ok true := by
  unfold Unreadable
  rw [← Block.ofText_none_iff]
  cases hbs : (Block.ofTokens (Token.scan text).1).blocks? with
  | none =>
    rw [process_eq_perform, hbs]
    exact .inl ⟨rfl, _, rfl⟩
  | some bs =>
    rw [process_pass hbs bare]
    exact .inr ⟨by simp, rfl⟩

namespace Session

structure Trial where
  text : String
  verdict : Except Fault Bool

def Trial.answer? (t : Trial) : Option Bool := t.verdict.toOption

theorem Trial.answer?_ok {t : Trial} {verdict : Bool} (h : t.verdict = .ok verdict) :
    t.answer? = some verdict := by
  rw [answer?, h]
  rfl

theorem Trial.answer?_error {t : Trial} {f : Fault} (h : t.verdict = .error f) :
    t.answer? = none := by
  rw [answer?, h]
  rfl

/-- The trials since the last reset, the latest first, with one request more. -/
def recorded (s : Session) (ts : List Trial) : Request → List Trial
  | .process text => ⟨text, (s.process text).2⟩ :: ts
  | .validate _ | .register _ _ => ts
  | .reset => []

def trialsFrom (s : Session) (ts : List Trial) : List Request → List Trial
  | [] => ts
  | r :: rs => trialsFrom (s.after r) (s.recorded ts r) rs

def trials (rs : List Request) : List Trial := trialsFrom .initial [] rs

def noted (given : List String) : Request → List String
  | .process text => text :: given
  | .validate _ | .register _ _ => given
  | .reset => []

def texts (rs : List Request) : List String := rs.foldl noted []

variable {s : Session} {ts : List Trial} {rs : List Request}

structure Shows (s : Session) (ts : List Trial) : Prop where
  text : s.text = (ts.head?.map Trial.text).getD ""
  succeeded : s.succeeded = (ts.findSome? Trial.answer?).getD false

theorem Shows.after (h : s.Shows ts) (r : Request) : (s.after r).Shows (s.recorded ts r) := by
  cases r with
  | process text =>
    refine ⟨rfl, ?_⟩
    simp only [Session.after, recorded, process, List.findSome?_cons, Trial.answer?]
    cases (s.interpreter.process text).2 with
    | ok verdict => rfl
    | error f => exact h.succeeded
  | validate text => exact ⟨h.text, h.succeeded⟩
  | register code a =>
    simp only [Session.after]
    split
    · exact ⟨h.text, h.succeeded⟩
    · exact h
  | reset => exact ⟨rfl, rfl⟩

theorem afterAll_shows (rs : List Request) : (afterAll rs).Shows (trials rs) := by
  have hfrom : ∀ (s : Session) (ts : List Trial), s.Shows ts →
      (rs.foldl Session.after s).Shows (trialsFrom s ts rs) := by
    induction rs with
    | nil => exact fun s ts h => h
    | cons r rs ih => exact fun s ts h => ih _ _ (h.after r)
  exact hfrom .initial [] ⟨rfl, rfl⟩

def Request.isPlain : Request → Bool
  | .register _ _ => false
  | .process _ | .validate _ | .reset => true

/-- A trial as it ends where there are no custom actions. -/
def Trial.Decided (t : Trial) : Prop :=
  (Unreadable t.text ∧ ∃ f, t.verdict = .error f) ∨ ¬ Unreadable t.text ∧ t.verdict = .ok true

theorem after_plain {r : Request} (hr : r.isPlain = true) (hs : s.interpreter.station.Usual)
    (hts : ∀ t ∈ ts, t.Decided) :
    (s.after r).interpreter.station.Usual ∧ ∀ t ∈ s.recorded ts r, t.Decided := by
  cases r with
  | process text =>
    refine ⟨Interpreter.after_usual hs (.process text), ?_⟩
    intro t ht
    rcases List.mem_cons.mp ht with rfl | ht
    · exact Interpreter.process_decided hs.bare text
    · exact hts t ht
  | validate text => exact ⟨Interpreter.after_usual hs (.validate text), hts⟩
  | register code a => cases hr
  | reset => exact ⟨Interpreter.after_usual hs .reset, by simp [recorded]⟩

theorem trials_decided (hrs : ∀ r ∈ rs, r.isPlain = true) : ∀ t ∈ trials rs, t.Decided := by
  have hfrom : ∀ (s : Session) (ts : List Trial), s.interpreter.station.Usual →
      (∀ t ∈ ts, t.Decided) →
      ∀ t ∈ trialsFrom s ts rs, t.Decided := by
    induction rs with
    | nil => exact fun s ts _ hts => hts
    | cons r rs ih =>
      intro s ts hs hts
      obtain ⟨hr, hrs⟩ := List.forall_mem_cons.mp hrs
      obtain ⟨hs, hts⟩ := after_plain hr hs hts
      exact ih hrs _ _ hs hts
  exact hfrom .initial [] Interpreter.initial_usual (by simp)

theorem map_text_trials (rs : List Request) : (trials rs).map Trial.text = texts rs := by
  have hfrom : ∀ (s : Session) (ts : List Trial),
      (trialsFrom s ts rs).map Trial.text = rs.foldl noted (ts.map Trial.text) := by
    induction rs with
    | nil => exact fun s ts => rfl
    | cons r rs ih =>
      intro s ts
      rw [trialsFrom, ih, List.foldl_cons]
      cases r <;> rfl
  exact hfrom .initial []

/-- Where there are no custom actions, the latest answer is success if any text was read. -/
theorem latest_answer (h : ∀ t ∈ ts, t.Decided) :
    ts.findSome? Trial.answer? = some true ↔ ∃ t ∈ ts, ¬ Unreadable t.text := by
  induction ts with
  | nil => simp
  | cons t ts ih =>
    obtain ⟨ht, hts⟩ := List.forall_mem_cons.mp h
    rcases ht with ⟨hlost, f, hf⟩ | ⟨hread, hok⟩
    · simp [Trial.answer?_error hf, ih hts, hlost]
    · simp [Trial.answer?_ok hok, hread]

/-- The flag of a session belongs to the text that it shows: it is up exactly if this text was
processed last, since the last reset, and was accepted. -/
def FlagFits (rs : List Request) : Prop :=
  (afterAll rs).succeeded = true ↔
    ∃ t ∈ (trials rs).head?, t.text = (afterAll rs).text ∧ t.verdict = .ok true

/-- The last text was given up, and the last answer before it was success. -/
def Stale (ts : List Trial) : Prop :=
  (∃ t ∈ ts.head?, ∃ f, t.verdict = .error f) ∧ ts.findSome? Trial.answer? = some true

theorem flagFits_iff_not_stale (rs : List Request) : FlagFits rs ↔ ¬ Stale (trials rs) := by
  obtain ⟨htext, hsucceeded⟩ := afterAll_shows rs
  unfold FlagFits Stale
  rw [htext, hsucceeded]
  cases trials rs with
  | nil => simp
  | cons t ts =>
    cases hv : t.verdict with
    | ok verdict => simp [Trial.answer?_ok hv, hv]
    | error f =>
      cases hlater : ts.findSome? Trial.answer? with
      | none => simp [Trial.answer?_error hv, hlater, hv]
      | some verdict => simp [Trial.answer?_error hv, hlater, hv]

theorem stale_iff (h : ∀ t ∈ ts, t.Decided) :
    Stale ts ↔ ∃ last earlier, ts.map Trial.text = last :: earlier ∧ Unreadable last ∧
      ∃ text ∈ earlier, ¬ Unreadable text := by
  rw [Stale, latest_answer h]
  cases ts with
  | nil => simp
  | cons t ts =>
    rcases h t List.mem_cons_self with ⟨hlost, f, hf⟩ | ⟨hread, hok⟩
    · simp [hf, hlost]
    · simp [hok, hread]

/-- A session shows the text given last, and its flag is the answer to the last text since the last
reset that came to an answer. So the flag belongs to that text unless it was given up and the last
answer before was success: without custom actions, unless the last text has an infinite tool or
label and an earlier one since the last reset has none. -/
theorem flagFits_iff (rs : List Request) :
    (afterAll rs).text = (texts rs).head?.getD "" ∧
    ((afterAll rs).succeeded = true ↔ (trials rs).findSome? Trial.answer? = some true) ∧
    (FlagFits rs ↔ ¬ Stale (trials rs)) ∧
    ((∀ r ∈ rs, r.isPlain = true) →
      (FlagFits rs ↔ ¬ ∃ last earlier, texts rs = last :: earlier ∧ Unreadable last ∧
        ∃ text ∈ earlier, ¬ Unreadable text)) := by
  obtain ⟨htext, hsucceeded⟩ := afterAll_shows rs
  refine ⟨?_, ?_, flagFits_iff_not_stale rs, ?_⟩
  · rw [htext, ← map_text_trials, List.head?_map]
  · rw [hsucceeded]
    cases (trials rs).findSome? Trial.answer? with
    | none => simp
    | some verdict => simp
  · intro hrs
    rw [flagFits_iff_not_stale, stale_iff (trials_decided hrs), map_text_trials]

/-- A text that is given up behind one that was accepted is shown with the flag up. A reset between
them, or another text behind it, takes the flag back to the text that is shown. -/
theorem flagFits_iff_infinite_tool :
    ¬ FlagFits [.process "G0 X9", .validate "X1", .process "T1e999"] ∧
    FlagFits [.process "G0 X9", .reset, .process "T1e999"] ∧
    FlagFits [.process "G0 X9", .process "T1e999", .process "T2"] := by
  have hlost : Unreadable "T1e999" :=
    ⟨⟨.word .t, "1e999", 1, 0, 6⟩,
      by decide +kernel, .inl rfl, Binary64.posInf, by decide +kernel, by decide +kernel⟩
  have hread : ¬ Unreadable "G0 X9" ∧ ¬ Unreadable "T2" := by
    unfold Unreadable
    rw [← Block.ofText_none_iff, ← Block.ofText_none_iff]
    decide +kernel
  refine ⟨?_, ?_, ?_⟩
  · rw [(flagFits_iff _).2.2.2 (by decide), not_not]
    exact ⟨"T1e999", ["G0 X9"], rfl, hlost, "G0 X9", by simp, hread.1⟩
  · rw [(flagFits_iff _).2.2.2 (by decide)]
    rintro ⟨last, earlier, htexts, -, text, hmem, -⟩
    cases htexts
    cases hmem
  · rw [(flagFits_iff _).2.2.2 (by decide)]
    rintro ⟨last, earlier, htexts, hlast, -⟩
    cases htexts
    exact hread.2 hlast

end Session
end Machining
