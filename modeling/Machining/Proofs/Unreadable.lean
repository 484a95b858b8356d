import Machining.Proofs.Carryover
import Machining.Proofs.Locality

namespace Machining

theorem Binary64.isNaN_of_isInf {x : Float} (h : x.isInf = true) : x.isNaN = false := by
  change x.toModel.unpack.isInf = true at h
  change x.toModel.unpack.isNaN = false
  cases hu : x.toModel.unpack with
  | notANumber =>
    rw [hu] at h
    cases h
  | infinity sign | zero sign | finite _ _ _ _ => rfl

/-- A tool or label word with an infinite value. -/
def Token.Unbounded (t : Token) : Prop :=
  (t.kind = .word .t ∨ t.kind = .word .n) ∧ ∃ x, Decimal.ofText? t.value = some x ∧ x.isInf = true

theorem Token.mem_rowsFrom {n : Nat} {ls : List (List Char)} {t : Token} (h : t ∈ rowsFrom n ls) :
    t.kind = .newline ∨ ∃ k cs, t ∈ row k cs := by
  induction ls generalizing n with
  | nil => cases h
  | cons cs ls ih =>
    rw [rowsFrom_cons] at h
    rcases List.mem_append.mp h with h | h
    · exact .inr ⟨n, cs, h⟩
    · rcases List.mem_cons.mp h with rfl | h
      · exact .inl rfl
      · exact ih h

/-- The end of the text is marked once, behind all rows. -/
theorem Token.rowsFrom_open {n : Nat} {ls : List (List Char)} :
    ∀ t ∈ rowsFrom n ls, t.kind ≠ .endOfText := by
  intro t h hk
  rcases mem_rowsFrom h with hn | ⟨k, cs, hrow⟩
  · rw [hk] at hn
    cases hn
  · exact row_open t hrow hk

namespace Block
variable {b : Block Number} {t : Token} {ts : List Token}
    {current : Option (Block Number)} {e : Fault}

theorem wholeWord_error {value : String} (h : wholeWord value = .error e) :
    e = .nanToInteger ∨
      e = .infinityToInteger ∧ ∃ x, Decimal.ofText? value = some x ∧ x.isInf = true := by
  unfold wholeWord at h
  split at h
  · rename_i x hx
    unfold Number.truncate at h
    simp only at h
    split_ifs at h with hnan hinf
    · cases h
      exact .inl rfl
    · cases h
      exact .inr ⟨rfl, x, hx, hinf⟩
  · cases h

theorem wholeWord_infinite {value : String} {x : Float} (hx : Decimal.ofText? value = some x)
    (hinf : x.isInf = true) : wholeWord value = .error .infinityToInteger := by
  simp only [wholeWord, hx, Number.truncate, Binary64.isNaN_of_isInf hinf, hinf,
    Bool.false_eq_true, ↓reduceIte]

/-- Only tool and label words can fail, for want of a whole number. -/
theorem add_error (h : b.add t = .error e) :
    e = .nanToInteger ∨ e = .infinityToInteger ∧ t.Unbounded := by
  unfold add at h
  split at h
  · rename_i l hk
    cases l with
    | g | m =>
      simp only [addWord] at h
      split at h <;> cases h
    | o | axis i | param d => cases h
    | t | n =>
      simp only [addWord] at h
      cases hw : wholeWord t.value with
      | ok n =>
        rw [hw] at h
        cases h
      | error e' =>
        rw [hw] at h
        cases h
        exact (wholeWord_error hw).imp_right fun hinf => ⟨hinf.1, by simp [hk], hinf.2⟩
  all_goals cases h

theorem add_unbounded (h : t.Unbounded) (b : Block Number) :
    b.add t = .error .infinityToInteger := by
  obtain ⟨hk, x, hx, hinf⟩ := h
  rcases hk with hk | hk <;> simp [add, hk, addWord, wholeWord_infinite hx hinf, Except.map]

theorem Reading.close_none {r : Reading} :
    (Reading.close current r).blocks? = none ↔ r.blocks? = none := by
  cases current with
  | none => rfl
  | some b =>
    simp only [Reading.close, Reading.report]
    split <;> simp

/-- Reading stops at the first unbounded word, and nowhere else. -/
theorem readFrom_none_iff (hts : ∀ t ∈ ts, t.kind ≠ .endOfText) :
    (readFrom current ts).blocks? = none ↔ ∃ t ∈ ts, t.Unbounded := by
  induction ts generalizing current with
  | nil => simp [readFrom, Reading.nothing]
  | cons t ts ih =>
    have htail : ∀ {current}, (readFrom current ts).blocks? = none ↔ ∃ t ∈ ts, t.Unbounded :=
      ih fun u hu => hts u (List.mem_cons_of_mem t hu)
    have hskip : ¬ t.Unbounded → ((∃ u ∈ ts, u.Unbounded) ↔ ∃ u ∈ t :: ts, u.Unbounded) := by
      intro hn
      simp [hn]
    simp only [readFrom]
    split
    · rename_i hk
      rw [Reading.close_none, htail]
      exact hskip fun hu => by rcases hu.1 with h | h <;> rw [hk] at h <;> cases h
    · exact absurd ‹_› (hts t List.mem_cons_self)
    · split
      · rename_i b' hadd
        rw [htail]
        refine hskip fun hu => ?_
        rw [add_unbounded hu] at hadd
        cases hadd
      · rename_i hadd
        rcases add_error hadd with h | ⟨-, hu⟩
        · cases h
        · exact ⟨fun _ => ⟨t, List.mem_cons_self, hu⟩, fun _ => rfl⟩
      · rename_i e he hadd
        simp only [Reading.report]
        rw [htail]
        refine hskip fun hu => ?_
        rw [add_unbounded hu] at hadd
        cases hadd
        exact he rfl

/-- A text has blocks unless one of its tokens is unbounded. -/
theorem ofText_none_iff (text : String) :
    (ofTokens (Token.scan text).1).blocks? = none ↔ ∃ t ∈ (Token.scan text).1, t.Unbounded := by
  rw [ofText_rows, readFrom_none_iff Token.rowsFrom_open, Token.scan_tokens]
  constructor
  · rintro ⟨t, ht, hu⟩
    exact ⟨t, List.mem_append_left _ ht, hu⟩
  · rintro ⟨t, ht, hu⟩
    rcases List.mem_append.mp ht with ht | ht
    · exact ⟨t, ht, hu⟩
    · rw [List.mem_singleton.mp ht] at hu
      rcases hu.1 with h | h <;> cases h

end Block

namespace Interpreter
variable {t : Interpreter} {text : String}

/-- Without custom actions, processing a text fails exactly if one of its tool or label words is
infinite, and then says so. No block has been carried out by then: the path is empty, and the
machine of the codes, their modes and what was printed are as they were. -/
theorem process_fails_iff (bare : t.station.Bare) (text : String) :
    ((∃ f, (t.process text).2 = .error f) ↔ ∃ word ∈ (Token.scan text).1, word.Unbounded) ∧
    ∀ f, (t.process text).2 = .error f →
      f = .infinityToInteger ∧ f.message = "cannot convert float infinity to integer" ∧
      (t.process text).1 = begin text t ∧
      (t.process text).1.path = .empty ∧
      (t.process text).1.station.machine = t.station.machine ∧
      (t.process text).1.station.modes = t.station.modes ∧
      (t.process text).1.station.printed = t.station.printed := by
  rw [← Block.ofText_none_iff]
  cases hbs : (Block.ofTokens (Token.scan text).1).blocks? with
  | none =>
    rw [process_eq_perform, hbs]
    refine ⟨by simp, ?_⟩
    rintro f ⟨⟩
    exact ⟨rfl, rfl, rfl, rfl, rfl, rfl, rfl⟩
  | some bs =>
    rw [process_pass hbs bare]
    simp

def afterCut : Interpreter := (initial.process "M8\nG1 X5 F100").1

theorem afterCut_bare : afterCut.station.Bare :=
  (after_usual initial_usual (.process "M8\nG1 X5 F100")).bare

/-- An infinite tool behind a move gives the whole text up; an infinite coordinate does not. -/
theorem process_fails_iff_tool :
    (∃ f, (afterCut.process "G0 X9\nT-1e999").2 = .error f) ∧
    (afterCut.process "G0 X9\nT-1e999").1.path = .empty ∧
    (afterCut.process "G0 X9\nT-1e999").1.station.machine = afterCut.station.machine ∧
    ¬ ∃ f, (afterCut.process "G0 X1e999\nT2").2 = .error f := by
  have hword : ∃ word ∈ (Token.scan "G0 X9\nT-1e999").1, word.Unbounded := by
    refine ⟨⟨.word .t, "-1e999", 2, 0, 7⟩, by decide +kernel, .inl rfl, Binary64.negInf, ?_, ?_⟩
    · decide +kernel
    · decide +kernel
  obtain ⟨f, hf⟩ := (process_fails_iff afterCut_bare "G0 X9\nT-1e999").1.mpr hword
  obtain ⟨-, -, -, hpath, hmachine, -, -⟩ :=
    (process_fails_iff afterCut_bare "G0 X9\nT-1e999").2 f hf
  refine ⟨⟨f, hf⟩, hpath, hmachine, ?_⟩
  rw [(process_fails_iff afterCut_bare "G0 X1e999\nT2").1, ← Block.ofText_none_iff]
  decide +kernel

end Interpreter
end Machining
