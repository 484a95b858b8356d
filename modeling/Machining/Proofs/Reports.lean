import Machining.Proofs.Rounds

namespace Machining
open Text

structure Diagnostic.Within (n : Nat) (cs : List Char) (d : Diagnostic) : Prop where
  line : d.line = n
  columns : 0 ≤ d.start ∧ d.start ≤ d.stop ∧ d.stop ≤ cs.length

structure Diagnostic.PointsInto (text : String) (d : Diagnostic) : Prop where
  line : 1 ≤ d.line ∧ d.line ≤ (Token.lines text).length
  columns : 0 ≤ d.start ∧ d.start ≤ d.stop ∧
    d.stop ≤ ((Token.lines text).getD (d.line.toNat - 1) []).length

theorem Diagnostic.Within.pointsInto {text : String} {d : Diagnostic} {k : Nat} {cs : List Char}
    (h : d.Within (1 + k) cs) (hk : (Token.lines text)[k]? = some cs) : d.PointsInto text := by
  obtain ⟨hline, hcolumns⟩ := h
  have hlt : k < (Token.lines text).length := (List.getElem?_eq_some_iff.mp hk).1
  have hindex : d.line.toNat - 1 = k := by omega
  refine ⟨by omega, ?_⟩
  rw [hindex, List.getD_eq_getElem?_getD, hk]
  exact hcolumns

namespace Token
variable {n line width pos : Nat} {cs : List Char} {ls : List (List Char)} {items : List Item}
    {d : Diagnostic}

theorem Piece.report_span {taken : List Char} (h : Piece line pos taken (.report d)) :
    d.line = line ∧ d.start = pos ∧ d.stop = pos + taken.length := by
  generalize hi : Item.report d = item at h
  cases h with
  | word l capital present unblanked => cases hi
  | expression closed => cases hi
  | unknown letter =>
    cases hi
    refine ⟨rfl, rfl, ?_⟩
    simp only [Diagnostic.error, List.length_cons]
    omega
  | stray c =>
    cases hi
    exact ⟨rfl, rfl, rfl⟩

theorem Laid.report_inside (h : Laid line width pos cs items) (hw : pos + cs.length ≤ width)
    (hd : .report d ∈ items) : d.line = line ∧ 0 ≤ d.start ∧ d.start ≤ d.stop ∧ d.stop ≤ width := by
  induction h with
  | done pos => cases hd
  | blank gap behind ih => exact ih (by simp at hw; omega) hd
  | @piece pos taken cs item items fits behind ih =>
    rw [List.length_append] at hw
    rcases List.mem_cons.mp hd with rfl | hd
    · have := fits.report_span
      omega
    · exact ih (by omega) hd
  | remark ends =>
    cases ends with
    | closed kind inner plain => simp [tokenAt] at hd
    | unclosed inner =>
      rcases List.mem_cons.mp hd with hd | hd
      · cases hd
        refine ⟨rfl, ?_⟩
        simp only [Diagnostic.error]
        omega
      · simp [tokenAt] at hd
    | semicolon body => simp [tokenAt] at hd

/-- The trimmed part of a line lies within the line. -/
theorem trim_width (cs : List Char) :
    cs.length - (trimStart cs).length + (trim cs).length ≤ cs.length := by
  obtain ⟨pre, post, hsplit, hpre, -, -⟩ := trim_split cs
  have hlength := congrArg List.length hsplit
  simp only [List.length_append] at hlength
  omega

theorem scanLine_laid (n : Nat) (cs : List Char) :
    Laid n cs.length (cs.length - (trimStart cs).length) (trim cs) (scanLine n cs) :=
  scanFrom_laid n cs.length _ (trim cs)

theorem scanLine_within (h : .report d ∈ scanLine n cs) : d.Within n cs := by
  obtain ⟨hline, hcolumns⟩ := (scanLine_laid n cs).report_inside (trim_width cs) h
  exact ⟨hline, hcolumns⟩

theorem scanLines_within (h : .report d ∈ scanLines n ls) :
    ∃ k cs, ls[k]? = some cs ∧ d.Within (n + k) cs := by
  induction ls generalizing n with
  | nil => cases h
  | cons cs ls ih =>
    rcases List.mem_append.mp h with h | h
    · exact ⟨0, cs, rfl, scanLine_within h⟩
    · rcases List.mem_cons.mp h with h | h
      · cases h
      · obtain ⟨k, cs', hk, hd⟩ := ih h
        refine ⟨k + 1, cs', hk, ?_⟩
        rwa [Nat.add_assoc, Nat.add_comm 1 k] at hd

theorem scan_pointsInto {text : String} (h : d ∈ (scan text).2) : d.PointsInto text := by
  obtain ⟨item, hmem, hitem⟩ := List.mem_filterMap.mp h
  cases item with
  | token t => cases hitem
  | report e =>
    cases hitem
    rcases List.mem_append.mp hmem with hmem | hmem
    · obtain ⟨k, cs, hk, hd⟩ := scanLines_within hmem
      exact hd.pointsInto hk
    · simp at hmem

theorem row_span {t : Token} (h : t ∈ row n cs) :
    0 ≤ t.start ∧ t.start < t.stop ∧ t.stop ≤ cs.length := by
  have := (scanLine_laid n cs).inside (trim_width cs) h
  omega

theorem row_apart (n : Nat) (cs : List Char) : (row n cs).Pairwise fun t u => t.stop ≤ u.start :=
  (scanLine_laid n cs).apart (trim_width cs)

/-- From the first to the last of some tokens of a row. -/
theorem row_reach {p : Token → Bool} {first last : Token}
    (hfirst : ((row n cs).filter p).head? = some first)
    (hlast : ((row n cs).filter p).getLast? = some last) :
    0 ≤ first.start ∧ first.start ≤ last.stop ∧ last.stop ≤ cs.length := by
  have hinside : ∀ t ∈ (row n cs).filter p, 0 ≤ t.start ∧ t.start < t.stop ∧ t.stop ≤ cs.length :=
    fun t ht => row_span (List.mem_filter.mp ht).1
  have hapart := (row_apart n cs).filter p
  generalize (row n cs).filter p = ts at hfirst hlast hinside hapart
  have hspan := hinside first (List.mem_of_head? hfirst)
  have hspan' := hinside last (List.mem_of_getLast? hlast)
  have horder : first = last ∨ first.stop ≤ last.start := by
    cases hapart with
    | nil => cases hfirst
    | @cons t ts hbefore _ =>
      cases hfirst
      cases ts with
      | nil =>
        cases hlast
        exact .inl rfl
      | cons u ts =>
        rw [List.getLast?_cons_cons] at hlast
        exact .inr (hbefore last (List.mem_of_getLast? hlast))
  rcases horder with rfl | horder <;> omega

end Token

namespace Block
variable {b : Block Number} {n : Nat} {cs : List Char} {d : Diagnostic}

/-- The reports on a block of all the tokens of a line point into the line. -/
theorem reports_within (hline : b.line = n) (htokens : b.tokens = Token.row n cs)
    (h : d ∈ b.reports) : d.Within n cs := by
  rcases List.mem_append.mp h with h | h
  · obtain ⟨⟨name, codes⟩, -, h⟩ := List.mem_flatMap.mp h
    simp only at h
    split at h
    · simp only [groupReport] at h
      split at h
      · rename_i first last hfirst hlast
        rw [List.mem_singleton.mp h]
        rw [htokens] at hfirst hlast
        exact ⟨hline, Token.row_reach hfirst hlast⟩
      · cases h
    · cases h
  · unfold contestReports at h
    split at h
    · rw [List.mem_singleton.mp h]
      exact ⟨hline, le_refl 0, le_refl 0, Int.natCast_nonneg _⟩
    · cases h

theorem readFrom_row_within
    (h : d ∈ (readFrom none (Token.row n cs ++ [Token.lineEnd n cs])).reports) : d.Within n cs := by
  have hends : (Token.lineEnd n cs).kind = .newline := rfl
  rcases readFrom_row_filled (fun t => Token.row_inner) hends with ⟨-, hread⟩ |
    ⟨-, last, ds, hfilled, hread⟩
  · rw [hread] at h
    cases h
  · rw [hread, Reading.ofRow_reports] at h
    rcases List.mem_append.mp h with h | h
    · obtain ⟨t, ht, message, rfl⟩ := hfilled.reports d h
      have hspan := Token.row_span ht
      exact ⟨(Token.row_inner ht).1, hspan.1, le_of_lt hspan.2.1, hspan.2.2⟩
    · cases last with
      | none => cases h
      | some b =>
        obtain ⟨htokens, hline⟩ := hfilled.tokens b rfl
        exact reports_within hline htokens h

theorem Reading.mem_andThen_reports {r s : Reading} (h : d ∈ (r.andThen s).reports) :
    d ∈ r.reports ∨ d ∈ s.reports := by
  unfold andThen at h
  split at h
  · exact .inl h
  · exact List.mem_append.mp h

theorem readFrom_rows_within {ls : List (List Char)}
    (h : d ∈ (readFrom none (Token.rowsFrom n ls)).reports) :
    ∃ k cs, ls[k]? = some cs ∧ d.Within (n + k) cs := by
  induction ls generalizing n with
  | nil => cases h
  | cons cs ls ih =>
    have hends : (Token.lineEnd n cs).kind = .newline := rfl
    rw [Token.rowsFrom_cons, readFrom_append Token.row_open hends] at h
    rcases Reading.mem_andThen_reports h with h | h
    · exact ⟨0, cs, rfl, readFrom_row_within h⟩
    · obtain ⟨k, cs', hk, hd⟩ := ih h
      refine ⟨k + 1, cs', hk, ?_⟩
      rwa [Nat.add_assoc, Nat.add_comm 1 k] at hd

theorem ofText_pointsInto {text : String} (h : d ∈ (ofTokens (Token.scan text).1).reports) :
    d.PointsInto text := by
  rw [ofText_rows] at h
  obtain ⟨k, cs, hk, hd⟩ := readFrom_rows_within h
  exact hd.pointsInto hk

end Block

/-- A report on a line as a whole points into a text that has the line. -/
theorem Diagnostic.pointsInto_line {text : String} {d : Diagnostic}
    (hcolumns : d.start = 0 ∧ d.stop = 0)
    (hline : 1 ≤ d.line ∧ d.line ≤ (Token.lines text).length) : d.PointsInto text := by
  obtain ⟨hstart, hstop⟩ := hcolumns
  refine ⟨hline, ?_⟩
  rw [hstart, hstop]
  exact ⟨le_refl 0, le_refl 0, Int.natCast_nonneg _⟩

/-- The reports on the first lines, line by line, are the reports on those lines. -/
theorem Diagnostic.flatMap_forLine (ds : List Diagnostic) (n : Nat) :
    ((List.range n).flatMap fun k => forLine ds (k + 1 : Nat)).Perm
      (ds.filter fun d => decide (1 ≤ d.line ∧ d.line ≤ (n : Int))) := by
  induction n with
  | zero =>
    have hnone : (ds.filter fun d => decide (1 ≤ d.line ∧ d.line ≤ ((0 : Nat) : Int))) = [] := by
      rw [List.filter_eq_nil_iff]
      intro d _
      simp only [decide_eq_true_eq]
      omega
    rw [hnone]
    exact .nil
  | succ n ih =>
    -- the reports up to line `n + 1` are those up to line `n` and those on line `n + 1`
    have hparts := List.filter_append_perm (fun d : Diagnostic => decide (d.line ≤ (n : Int)))
      (ds.filter fun d => decide (1 ≤ d.line ∧ d.line ≤ ((n + 1 : Nat) : Int)))
    rw [List.filter_filter, List.filter_filter] at hparts
    have hbefore : (ds.filter fun d => decide (d.line ≤ (n : Int)) &&
        decide (1 ≤ d.line ∧ d.line ≤ ((n + 1 : Nat) : Int))) =
        ds.filter fun d => decide (1 ≤ d.line ∧ d.line ≤ (n : Int)) := by
      apply List.filter_congr
      intro d _
      rw [← Bool.decide_and, decide_eq_decide]
      omega
    have hlast : (ds.filter fun d => !decide (d.line ≤ (n : Int)) &&
        decide (1 ≤ d.line ∧ d.line ≤ ((n + 1 : Nat) : Int))) = forLine ds (n + 1 : Nat) := by
      apply List.filter_congr
      intro d _
      rw [← decide_not, ← Bool.decide_and, decide_eq_decide]
      omega
    rw [hbefore, hlast] at hparts
    rw [List.range_succ, List.flatMap_append, List.flatMap_singleton]
    exact (ih.append_right _).trans hparts

/-- Reports that point into a text. Asked for line by line they come up once each. -/
structure Diagnostic.Located (text : String) (ds : List Diagnostic) : Prop where
  inside : ∀ d ∈ ds, d.PointsInto text
  byLine : ((List.range (Token.lines text).length).flatMap fun k => forLine ds (k + 1 : Nat)).Perm
    ds

theorem Diagnostic.located_of_inside {text : String} {ds : List Diagnostic}
    (h : ∀ d ∈ ds, d.PointsInto text) : Located text ds := by
  refine ⟨h, ?_⟩
  have hall : (ds.filter fun d => decide (1 ≤ d.line ∧
      d.line ≤ ((Token.lines text).length : Int))) = ds := by
    rw [List.filter_eq_self]
    intro d hd
    simpa using (h d hd).line
  have hperm := flatMap_forLine ds (Token.lines text).length
  rwa [hall] at hperm

namespace Interpreter
variable {t : Interpreter} {text : String} {bs : List (Block Number)}

theorem readingReports_pointInto (text : String) :
    ∀ d ∈ readingReports text, d.PointsInto text := by
  intro d hd
  rcases List.mem_append.mp hd with hd | hd
  · exact Token.scan_pointsInto hd
  · exact Block.ofText_pointsInto hd

theorem readingReports_error (text : String) : ∀ d ∈ readingReports text, d.severity = .error := by
  intro d hd
  rcases List.mem_append.mp hd with hd | hd
  · exact Token.scan_reports hd
  · exact Block.readFrom_reports hd

/-- What is reported and left on the path by a text: first what scanning and reading find, then the
control words, then what the codes of the blocks report, each on the line of its block. -/
theorem process_grows (hbs : (Block.ofTokens (Token.scan text).1).blocks? = some bs)
    (bare : t.station.Bare) :
    (∃ more, (t.process text).1.reports =
        readingReports text ++ bs.filterMap Block.controlReport? ++ more ∧
      ∀ d ∈ more, d.OnCode ∧ ∃ b ∈ bs, d.line = b.line) ∧
    ∀ s ∈ (t.process text).1.path.segments, ∃ b ∈ bs, s.line = b.line := by
  have hgrows : (openedStation text bs t.station).control.Grows (fun l => ∃ b ∈ bs, l = b.line)
      (bs.foldl carry (openedStation text bs t.station)).control :=
    foldl_grows (fun b _ hs => carry_grows b hs) bare fun b hb => ⟨b, hb, rfl⟩
  obtain ⟨⟨more, hmore, hreports⟩, ⟨segments, hpath, hsegments⟩⟩ := hgrows
  rw [process_eq hbs bare]
  refine ⟨⟨more, ?_, fun d hd => ⟨(hreports d hd).2, (hreports d hd).1⟩⟩, ?_⟩
  · rw [← openingReports_eq hbs]
    exact hmore
  · intro s hs
    rw [path, hpath] at hs
    exact hsegments s hs

theorem process_pointsInto (bare : t.station.Bare) (text : String) :
    ∀ d ∈ (t.process text).1.reports, d.PointsInto text := by
  intro d hd
  cases hbs : (Block.ofTokens (Token.scan text).1).blocks? with
  | none =>
    rw [process_eq_perform, hbs] at hd
    exact readingReports_pointInto text d hd
  | some bs =>
    have hwithin := (Block.ofText_lined hbs).within
    obtain ⟨more, hmore, hcode⟩ := (process_grows hbs bare).1
    rw [hmore] at hd
    rcases List.mem_append.mp hd with hd | hd
    · rcases List.mem_append.mp hd with hd | hd
      · exact readingReports_pointInto text d hd
      · obtain ⟨b, hb, hcontrol⟩ := List.mem_filterMap.mp hd
        obtain ⟨w, -, rfl⟩ := Option.map_eq_some_iff.mp hcontrol
        exact Diagnostic.pointsInto_line ⟨rfl, rfl⟩ (hwithin b hb)
    · obtain ⟨honcode, b, hb, hline⟩ := hcode d hd
      exact Diagnostic.pointsInto_line honcode.columns (hline ▸ hwithin b hb)

theorem validate_eq (text : String) (t : Interpreter) :
    t.validate text =
      if (Block.ofTokens (Token.scan text).1).blocks?.isNone then (t, .error .infinityToInteger)
      else (t.setReports (readingReports text),
        .ok (!Diagnostic.hasErrors (readingReports text))) := rfl

/-- After a text is processed without custom actions, or checked, every report points into the text:
to a line that it has and to columns of that line. Line by line the reports come up once each. What
is left on the path belongs to lines of blocks. -/
theorem reports_located (text : String) (t : Interpreter) :
    (t.station.Bare →
      Diagnostic.Located text (t.process text).1.reports ∧
      ∀ s ∈ (t.process text).1.path.segments,
        ∃ bs, (Block.ofTokens (Token.scan text).1).blocks? = some bs ∧ ∃ b ∈ bs, s.line = b.line) ∧
    ∀ ok, (t.validate text).2 = .ok ok → Diagnostic.Located text (t.validate text).1.reports := by
  refine ⟨fun bare => ⟨Diagnostic.located_of_inside (process_pointsInto bare text), ?_⟩, ?_⟩
  · intro s hs
    cases hbs : (Block.ofTokens (Token.scan text).1).blocks? with
    | none =>
      rw [process_eq_perform, hbs] at hs
      cases hs
    | some bs => exact ⟨bs, rfl, (process_grows hbs bare).2 s hs⟩
  · intro ok hok
    cases hbs : (Block.ofTokens (Token.scan text).1).blocks? with
    | none =>
      rw [validate_eq, hbs] at hok
      cases hok
    | some bs =>
      rw [validate_eq, hbs]
      exact Diagnostic.located_of_inside (readingReports_pointInto text)

def faulty : String := "G1 X1 ?\n G2 X1  G3\nO7\nG0 X9 ("

/-- Each of these reports points into the text, and the move that is made belongs to the last
line. -/
theorem reports_located_faulty :
    initial.station.Bare ∧
    (initial.process faulty).1.reports.map (fun d => (d.line, d.start, d.stop)) =
      [(1, 6, 7), (4, 6, 7), (2, 1, 10), (3, 0, 0), (1, 0, 0)] ∧
    Diagnostic.Located faulty (initial.process faulty).1.reports ∧
    (initial.process faulty).1.path.segments.map (·.line) = [4] ∧
    (∀ s ∈ (initial.process faulty).1.path.segments,
      ∃ bs, (Block.ofTokens (Token.scan faulty).1).blocks? = some bs ∧ ∃ b ∈ bs, s.line = b.line) ∧
    (initial.validate faulty).2 = .ok false ∧
    Diagnostic.Located faulty (initial.validate faulty).1.reports := by
  have hbare : initial.station.Bare := rfl
  have hread : (Block.ofTokens (Token.scan faulty).1).blocks?.isNone = false ∧
      Diagnostic.hasErrors (readingReports faulty) = true := by decide +kernel
  have hchecked : (initial.validate faulty).2 = .ok false := by simp [validate_eq, hread]
  obtain ⟨hprocess, hvalidate⟩ := reports_located faulty initial
  obtain ⟨hreports, hsegments⟩ := hprocess hbare
  exact ⟨hbare,
    by decide +kernel, hreports, by decide +kernel, hsegments, hchecked, hvalidate false hchecked⟩

/-- Checking a text finds what processing it finds first. All that processing reports besides is on
control words, one report for each, or on codes of blocks. The text passes the check if there is
nothing to report, and the check changes nothing but the reports. -/
theorem validate_agrees (hbs : (Block.ofTokens (Token.scan text).1).blocks? = some bs)
    (bare : t.station.Bare) :
    (∃ more, (t.process text).1.reports =
        (t.validate text).1.reports ++ bs.filterMap Block.controlReport? ++ more ∧
      ∀ d ∈ more, d.OnCode ∧ ∃ b ∈ bs, d.line = b.line) ∧
    (t.validate text).2 = .ok (t.validate text).1.reports.isEmpty ∧
    (t.validate text).1.setReports t.reports = t := by
  rw [validate_eq, hbs]
  refine ⟨(process_grows hbs bare).1, ?_, rfl⟩
  have herror := readingReports_error text
  change Except.ok (!Diagnostic.hasErrors (readingReports text)) = .ok (readingReports text).isEmpty
  generalize readingReports text = ds at herror
  cases ds with
  | nil => rfl
  | cons d ds =>
    have hd : d.isError = true := by simp [Diagnostic.isError, herror d List.mem_cons_self]
    simp [Diagnostic.hasErrors, hd]

/-- A dropped block fails the check; a control word and an unknown code are found only when the text
is carried out. -/
theorem validate_agrees_later :
    ∃ bs more, (Block.ofTokens (Token.scan "G2 G3\nO7\nG0 X3 M999").1).blocks? = some bs ∧
      afterCut.station.Bare ∧
      (afterCut.validate "G2 G3\nO7\nG0 X3 M999").2 = .ok false ∧
      (afterCut.validate "G2 G3\nO7\nG0 X3 M999").1.setReports afterCut.reports = afterCut ∧
      (afterCut.process "G2 G3\nO7\nG0 X3 M999").1.reports =
        (afterCut.validate "G2 G3\nO7\nG0 X3 M999").1.reports ++
          bs.filterMap Block.controlReport? ++ more ∧
      more.map (·.line) = [3] := by
  have hcontrol : (Block.ofTokens (Token.scan "G2 G3\nO7\nG0 X3 M999").1).blocks?.map
      (fun bs => (bs.filterMap Block.controlReport?).map (·.line)) = some [2] := by decide +kernel
  have hlines : (afterCut.process "G2 G3\nO7\nG0 X3 M999").1.reports.map (·.line) = [1, 2, 3] ∧
      (afterCut.validate "G2 G3\nO7\nG0 X3 M999").1.reports.map (·.line) = [1] := by decide +kernel
  obtain ⟨bs, hbs, hline⟩ := Option.map_eq_some_iff.mp hcontrol
  obtain ⟨⟨more, hmore, -⟩, hverdict, hframe⟩ := validate_agrees hbs afterCut_bare
  refine ⟨bs, more, hbs, afterCut_bare, ?_, hframe, hmore, ?_⟩
  · rw [hverdict, ← List.isEmpty_map, hlines.2]
    rfl
  · have hall := congrArg (List.map (·.line)) hmore
    rw [hlines.1, List.map_append, List.map_append, hlines.2, hline] at hall
    exact (List.cons.inj (List.cons.inj hall).2).2.symm

end Interpreter
end Machining
