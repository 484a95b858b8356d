import Machining.Proofs.Program

namespace Machining
open Text

def Token.down (k : Nat) (t : Token) : Token := { t with line := t.line + k }

def Diagnostic.down (k : Nat) (d : Diagnostic) : Diagnostic := { d with line := d.line + k }

def Token.Item.down (k : Nat) : Item → Item
  | .token t => .token (t.down k)
  | .report d => .report (d.down k)

def Block.down (k : Nat) (b : Block Number) : Block Number :=
  { b with line := b.line + k, tokens := b.tokens.map (Token.down k) }

def Block.Reading.down (k : Nat) (r : Reading) : Reading :=
  ⟨r.blocks?.map fun bs => bs.map (Block.down k), r.reports.map (Diagnostic.down k)⟩

/-- What is read first and what is read behind it. Nothing is read behind a stop. -/
def Block.Reading.andThen (r s : Reading) : Reading :=
  match r.blocks? with
  | none => r
  | some bs => ⟨s.blocks?.map (bs ++ ·), r.reports ++ s.reports⟩

def Token.endsLine (t : Token) : Bool := t.kind = .newline || t.kind = .endOfText

namespace Text

theorem splitAt_ne_nil (sep : Char) (cs : List Char) : splitAt sep cs ≠ [] := by
  cases cs with
  | nil => simp [splitAt]
  | cons c cs =>
    unfold splitAt
    split
    · simp
    · split <;> simp

/-- The parts of two texts with a separator between them. -/
theorem splitAt_append (sep : Char) (cs ds : List Char) :
    splitAt sep (cs ++ sep :: ds) = splitAt sep cs ++ splitAt sep ds := by
  induction cs with
  | nil =>
    obtain ⟨p, ps, hp⟩ := List.exists_cons_of_ne_nil (splitAt_ne_nil sep ds)
    simp [splitAt, hp]
  | cons c cs ih =>
    obtain ⟨p, ps, hp⟩ := List.exists_cons_of_ne_nil (splitAt_ne_nil sep cs)
    rw [List.cons_append, splitAt, splitAt, ih, hp]
    simp only [List.cons_append]
    split <;> rfl

end Text

namespace Token
variable {k line width pos : Nat} {c : Char} {cs : List Char}

theorem lines_append (a b : String) : lines (a ++ "\n" ++ b) = lines a ++ lines b := by
  have hsplit : (a ++ "\n" ++ b).toList = a.toList ++ '\n' :: b.toList := by
    simp [String.toList_append]
  rw [lines, hsplit, splitAt_append]
  rfl

theorem tokenAt_down (k line : Nat) (kind : TokenKind) (value : List Char) (start stop : Nat) :
    tokenAt (line + k) kind value start stop = (tokenAt line kind value start stop).down k := by
  simp [tokenAt, Item.down, down]

theorem reportAt_down (k line start stop : Nat) (message : String) :
    reportAt (line + k) start stop message = (reportAt line start stop message).down k := by
  simp [reportAt, Item.down, Diagnostic.down, Diagnostic.error]

def Step.down (k : Nat) (s : Step) : Step := { s with items := s.items.map (Item.down k) }

theorem unrecognized_down (k line pos : Nat) (c : Char) :
    unrecognized (line + k) pos c = (unrecognized line pos c).down k := by
  simp [unrecognized, Step.down, reportAt_down]

theorem comment_down (k line width pos : Nat) (cs : List Char) :
    comment (line + k) width pos cs = (comment line width pos cs).down k := by
  simp only [comment, reportAt_down k, tokenAt_down k]
  split <;> rfl

theorem bracketed_down (k line pos : Nat) (cs : List Char) :
    bracketed (line + k) pos cs = (bracketed line pos cs).down k := by
  simp only [bracketed, unrecognized_down, tokenAt_down]
  split <;> rfl

theorem word_down (k line pos : Nat) (c letter : Char) (cs : List Char) :
    word (line + k) pos c letter cs = (word line pos c letter cs).down k := by
  simp only [word, unrecognized_down, tokenAt_down, reportAt_down]
  split
  · rfl
  · split <;> rfl

/-- The line number of a step is only written into what it finds. -/
theorem step_down (k line width pos : Nat) (c : Char) (cs : List Char) :
    step (line + k) width pos c cs = (step line width pos c cs).down k := by
  simp only [step, comment_down, bracketed_down, word_down, unrecognized_down, tokenAt_down]
  split_ifs
  · rfl
  · rfl
  · rfl
  · rfl
  · split <;> rfl

theorem scanFrom_down (k line width pos skip : Nat) (cs : List Char) :
    scanFrom (line + k) width pos skip cs = (scanFrom line width pos skip cs).map
      (Item.down k) := by
  induction cs generalizing pos skip with
  | nil => rfl
  | cons c cs ih =>
    cases skip with
    | succ skip => exact ih (pos + 1) skip
    | zero =>
      unfold scanFrom
      simp only [step_down, Step.down, List.map_append]
      split
      · rw [ih]
      · rfl

theorem scanLines_down (k line : Nat) (ls : List (List Char)) :
    scanLines (line + k) ls = (scanLines line ls).map (Item.down k) := by
  induction ls generalizing line with
  | nil => rfl
  | cons cs ls ih =>
    have hnext : line + k + 1 = line + 1 + k := by omega
    rw [scanLines, scanLines, scanLine, scanLine, scanFrom_down, hnext, ih, tokenAt_down,
      List.map_append, List.map_cons]

theorem scanLines_append (line : Nat) (ls ms : List (List Char)) :
    scanLines line (ls ++ ms) = scanLines line ls ++ scanLines (line + ls.length) ms := by
  induction ls generalizing line with
  | nil => rfl
  | cons cs ls ih =>
    have hnext : line + 1 + ls.length = line + (ls.length + 1) := by omega
    simp only [List.cons_append, scanLines, ih, List.length_cons, hnext, List.append_assoc]

theorem token?_down (k : Nat) (items : List Item) :
    (items.map (Item.down k)).filterMap Item.token? =
      (items.filterMap Item.token?).map (Token.down k) := by
  rw [List.filterMap_map, List.map_filterMap]
  congr 1
  funext item
  cases item <;> rfl

theorem report?_down (k : Nat) (items : List Item) :
    (items.map (Item.down k)).filterMap Item.report? =
      (items.filterMap Item.report?).map (Diagnostic.down k) := by
  rw [List.filterMap_map, List.map_filterMap]
  congr 1
  funext item
  cases item <;> rfl

def row (n : Nat) (cs : List Char) : List Token := (scanLine n cs).filterMap Item.token?

def lineEnd (n : Nat) (cs : List Char) : Token := ⟨.newline, "\n", n, cs.length, cs.length⟩

def rowsFrom (n : Nat) (ls : List (List Char)) : List Token :=
  (scanLines n ls).filterMap Item.token?

theorem rowsFrom_cons (n : Nat) (cs : List Char) (ls : List (List Char)) :
    rowsFrom n (cs :: ls) = row n cs ++ lineEnd n cs :: rowsFrom (n + 1) ls := by
  simp only [rowsFrom, scanLines, tokenAt, List.filterMap_append, List.filterMap_cons, Item.token?]
  rfl

theorem row_inner {n : Nat} {cs : List Char} {t : Token} (h : t ∈ row n cs) :
    t.line = n ∧ t.Inner :=
  (scanFrom_laid n cs.length _ (trim cs)).inner (mem_tokens.mp h)

theorem row_open {n : Nat} {cs : List Char} : ∀ t ∈ row n cs, t.kind ≠ .endOfText := by
  intro t h hk
  have hinner := (row_inner h).2
  simp [Inner, hk] at hinner

def isOn (line : Int) (t : Token) : Bool := t.line = line && !t.endsLine

theorem Inner.not_endsLine {t : Token} (h : t.Inner) : t.endsLine = false := by
  cases hk : t.kind <;> simp_all [Inner, endsLine]

theorem row_filter (n : Nat) (cs : List Char) : (row n cs).filter (isOn n) = row n cs := by
  rw [List.filter_eq_self]
  intro t h
  obtain ⟨hline, hinner⟩ := row_inner h
  simp [isOn, hline, hinner.not_endsLine]

theorem row_filter_other {n : Nat} {cs : List Char} {line : Int} (h : line ≠ n) :
    (row n cs).filter (isOn line) = [] := by
  rw [List.filter_eq_nil_iff]
  intro t ht
  simp [isOn, (row_inner ht).1, h.symm]

theorem rowsFrom_filter_before {n : Nat} {ls : List (List Char)} {line : Int} (h : line < n) :
    (rowsFrom n ls).filter (isOn line) = [] := by
  induction ls generalizing n with
  | nil => rfl
  | cons cs ls ih =>
    have hend : isOn line (lineEnd n cs) = false := by simp [isOn, endsLine, lineEnd]
    rw [rowsFrom_cons, List.filter_append, row_filter_other (by omega),
      List.filter_cons_of_neg (by simp [hend]), ih (by omega)]
    rfl

def endMark (text : String) : Token := ⟨.endOfText, "", (lines text).length, 0, 0⟩

theorem scan_tokens (text : String) :
    (scan text).1 = rowsFrom 1 (lines text) ++ [endMark text] := by
  simp [scan, scanText, rowsFrom, endMark, List.filterMap_append, Item.token?]

theorem endMark_append (a b : String) :
    endMark (a ++ "\n" ++ b) = (endMark b).down (lines a).length := by
  simp only [endMark, lines_append, down, List.length_append, Token.mk.injEq, true_and, and_true]
  omega

theorem scanText_append (a b : String) :
    scanText (a ++ "\n" ++ b) = scanLines 1 (lines a) ++
      (scanText b).map (Item.down (lines a).length) := by
  have hmark : ∀ text, scanText text = scanLines 1 (lines text) ++ [.token (endMark text)] :=
    fun _ => rfl
  rw [hmark, hmark, lines_append, scanLines_append, scanLines_down, endMark_append, List.map_append,
    List.append_assoc]
  rfl

/-- The tokens of two parts of a text: those of the first without its end mark, then those of the
second. -/
theorem scan_append_tokens (a b : String) :
    (scan (a ++ "\n" ++ b)).1 =
      rowsFrom 1 (lines a) ++ (scan b).1.map (Token.down (lines a).length) := by
  simp only [scan, scanText_append, List.filterMap_append, token?_down, rowsFrom]

theorem scan_append_reports (a b : String) :
    (scan (a ++ "\n" ++ b)).2 = (scan a).2 ++ (scan b).2.map
      (Diagnostic.down (lines a).length) := by
  have ha : (scan a).2 = (scanLines 1 (lines a)).filterMap Item.report? := by
    simp [scan, scanText, List.filterMap_append, Item.report?]
  rw [ha]
  simp only [scan, scanText_append, List.filterMap_append, report?_down]

end Token

namespace Block
variable {b b' : Block Number} {t next : Token} {ts rest : List Token}
    {current : Option (Block Number)}

theorem addWord_down (k : Nat) (b : Block Number) (l : Letter) (value : String) :
    (b.down k).addWord l value = (b.addWord l value).map (Block.down k) := by
  cases l with
  | g | m =>
    simp only [addWord]
    cases (Decimal.ofText? value).map Number.float <;> rfl
  | t | n =>
    simp only [addWord]
    cases wholeWord value <;> rfl
  | o | axis i | param d => rfl

def record (b : Block Number) (t : Token) : Block Number := { b with tokens := b.tokens ++ [t] }

theorem record_down (k : Nat) (b : Block Number) (t : Token) :
    (b.down k).record (t.down k) = (b.record t).down k := by
  simp [record, Block.down]

/-- A token is recorded in the same way wherever its line is. -/
theorem add_down (k : Nat) (b : Block Number) (t : Token) :
    (b.down k).add (t.down k) = (b.add t).map (Block.down k) := by
  have hrecord := record_down k b t
  have hkind : (t.down k).kind = t.kind := rfl
  have hvalue : (t.down k).value = t.value := rfl
  simp only [record] at hrecord
  simp only [add, hrecord, hkind, hvalue]
  split
  · exact addWord_down k _ _ _
  all_goals simp [Except.map, Block.down]

theorem groupReport_down (k : Nat) (b : Block Number) (name : String) (active : List Number) :
    (b.down k).groupReport name active = (b.groupReport name active).map (Diagnostic.down k) := by
  have hwords : (b.down k).tokens.filter (namesCode active) =
      (b.tokens.filter (namesCode active)).map (Token.down k) := by
    rw [Block.down, List.filter_map]
    rfl
  simp only [groupReport, hwords, List.head?_map, List.getLast?_map]
  cases (b.tokens.filter (namesCode active)).head? with
  | none => rfl
  | some first => cases (b.tokens.filter (namesCode active)).getLast? <;> rfl

theorem reports_down (k : Nat) (b : Block Number) :
    (b.down k).reports = b.reports.map (Diagnostic.down k) := by
  have hgroups : (b.down k).groupReports = b.groupReports.map (Diagnostic.down k) := by
    simp only [groupReports, List.map_flatMap, groupReport_down]
    congr 1
    funext group
    have hactive : (b.down k).activeCodes group.2 = b.activeCodes group.2 := rfl
    rw [hactive]
    split <;> rfl
  have hcontest : (b.down k).contestReports = b.contestReports.map (Diagnostic.down k) := by
    have hcontested : (b.down k).axesContested = b.axesContested := rfl
    simp only [contestReports, hcontested]
    split <;> rfl
  rw [reports, reports, hgroups, hcontest, List.map_append]

namespace Reading
variable {r s : Reading}

theorem report_down (k : Nat) (ds : List Diagnostic) (r : Reading) :
    (report ds r).down k = report (ds.map (Diagnostic.down k)) (r.down k) := by
  simp [report, down]

theorem close_down (k : Nat) (current : Option (Block Number)) (r : Reading) :
    (close current r).down k = close (current.map (Block.down k)) (r.down k) := by
  cases current with
  | none => rfl
  | some b =>
    have hvalid : (b.down k).isValid = b.isValid := rfl
    simp only [close, Option.map_some, hvalid, reports_down, report_down]
    split
    · simp [down, Option.map_map, Function.comp_def]
    · rfl

theorem report_andThen (ds : List Diagnostic) (r s : Reading) :
    (report ds r).andThen s = report ds (r.andThen s) := by
  obtain ⟨blocks?, reports⟩ := r
  cases blocks? <;> simp [report, andThen]

theorem close_andThen (current : Option (Block Number)) (r s : Reading) :
    (close current r).andThen s = close current (r.andThen s) := by
  cases current with
  | none => rfl
  | some b =>
    simp only [close, report_andThen]
    obtain ⟨blocks?, reports⟩ := r
    split
    · cases blocks? <;> simp [andThen, Option.map_map, Function.comp_def]
    · rfl

theorem nothing_andThen (r : Reading) : nothing.andThen r = r := by
  simp [nothing, andThen]

theorem andThen_nothing (r : Reading) : r.andThen nothing = r := by
  obtain ⟨blocks?, reports⟩ := r
  cases blocks? <;> simp [nothing, andThen]

theorem andThen_assoc (r s u : Reading) : (r.andThen s).andThen u = r.andThen (s.andThen u) := by
  obtain ⟨rs, rds⟩ := r
  obtain ⟨ss, sds⟩ := s
  obtain ⟨us, uds⟩ := u
  cases rs with
  | none => rfl
  | some bs =>
    cases ss with
    | none => simp [andThen]
    | some bs' => simp [andThen, Option.map_map, Function.comp_def]

end Reading

/-- Reading further down reads the same, further down. -/
theorem readFrom_down (k : Nat) (current : Option (Block Number)) (ts : List Token) :
    readFrom (current.map (Block.down k)) (ts.map (Token.down k)) =
      (readFrom current ts).down k := by
  induction ts generalizing current with
  | nil => rfl
  | cons t ts ih =>
    have hkind : (t.down k).kind = t.kind := rfl
    have hopen : (current.map (Block.down k)).getD (.empty (t.down k).line) =
        (current.getD (.empty t.line)).down k := by
      cases current <;> rfl
    simp only [List.map_cons, readFrom, hkind, hopen, add_down]
    generalize current.getD (.empty t.line) = b
    split
    · rw [Reading.close_down, ← ih]
      rfl
    · rw [Reading.close_down]
      rfl
    · cases b.add t with
      | ok b' => exact ih (some b')
      | error e =>
        simp only [Except.map]
        split
        · cases ‹_ = _›
        · rfl
        · have hrest := ih (some (b.record t))
          rw [Option.map_some, ← record_down] at hrest
          rw [Reading.report_down]
          exact congrArg (Reading.report _) hrest

/-- A line end closes the block, so reading goes on behind it as at the start. -/
theorem readFrom_append (hts : ∀ t ∈ ts, t.kind ≠ .endOfText) (ends : next.kind = .newline)
    (current : Option (Block Number)) (rest : List Token) :
    readFrom current (ts ++ next :: rest) = (readFrom current (ts ++ [next])).andThen
      (readFrom none rest) := by
  induction ts generalizing current with
  | nil =>
    simp only [List.nil_append, readFrom, ends, Reading.close_andThen, Reading.nothing_andThen]
  | cons t ts ih =>
    have htail := ih fun u hu => hts u (List.mem_cons_of_mem t hu)
    simp only [List.cons_append, readFrom]
    split
    · rw [Reading.close_andThen, htail]
    · exact absurd ‹_› (hts t List.mem_cons_self)
    · split
      · exact htail _
      · rfl
      · rw [Reading.report_andThen, htail]

/-- Rows are read one after the other. -/
theorem readFrom_rows (n : Nat) (ls : List (List Char)) (rest : List Token) :
    readFrom none (Token.rowsFrom n ls ++ rest) =
      (readFrom none (Token.rowsFrom n ls)).andThen (readFrom none rest) := by
  induction ls generalizing n with
  | nil => exact (Reading.nothing_andThen _).symm
  | cons cs ls ih =>
    have hends : (Token.lineEnd n cs).kind = .newline := rfl
    rw [Token.rowsFrom_cons, List.append_assoc, List.cons_append,
      readFrom_append Token.row_open hends, readFrom_append Token.row_open hends
        none (Token.rowsFrom (n + 1) ls), ih, Reading.andThen_assoc]

/-- The end mark closes nothing, since a line end stands before it. -/
theorem ofText_rows (text : String) :
    ofTokens (Token.scan text).1 = readFrom none (Token.rowsFrom 1 (Token.lines text)) := by
  rw [Token.scan_tokens, ofTokens, readFrom_rows]
  exact Reading.andThen_nothing _

/-- The reading of two parts of a text. -/
theorem ofText_append (a b : String) :
    ofTokens (Token.scan (a ++ "\n" ++ b)).1 =
      (ofTokens (Token.scan a).1).andThen
        ((ofTokens (Token.scan b).1).down (Token.lines a).length) := by
  rw [Token.scan_append_tokens, ofTokens, readFrom_rows, ← ofText_rows]
  congr 1
  exact readFrom_down _ none _

theorem addWord_tokens {l : Letter} {value : String} (h : b.addWord l value = .ok b') :
    b'.tokens = b.tokens ∧ b'.line = b.line := by
  cases l with
  | g | m =>
    simp only [addWord] at h
    split at h <;> cases h <;> exact ⟨rfl, rfl⟩
  | t | n =>
    simp only [addWord] at h
    cases hw : wholeWord value with
    | error e => rw [hw] at h; cases h
    | ok n => rw [hw] at h; cases h; exact ⟨rfl, rfl⟩
  | o | axis i | param d => cases h; exact ⟨rfl, rfl⟩

theorem add_tokens (h : b.add t = .ok b') : b'.tokens = b.tokens ++ [t] ∧ b'.line = b.line := by
  unfold add at h
  split at h
  · exact addWord_tokens h
  all_goals cases h; exact ⟨rfl, rfl⟩

/-- What recording the tokens of a row in a block comes to: a block, unless a token stops the
reading, and reports on the tokens that cannot be recorded. -/
inductive Filled : Block Number → List Token → Option (Block Number) → List Diagnostic → Prop where
  | done (b : Block Number) : Filled b [] (some b) []
  | adds {b b' : Block Number} {t : Token} {ts : List Token} {last : Option (Block Number)}
      {ds : List Diagnostic} (added : b.add t = .ok b') (behind : Filled b' ts last ds) :
      Filled b (t :: ts) last ds
  | skips {b : Block Number} {t : Token} {ts : List Token} {last : Option (Block Number)}
      {ds : List Diagnostic}
      {e : Fault} (failed : b.add t = .error e) (behind : Filled (b.record t) ts last ds) :
      Filled b (t :: ts) last (.error t.line t.start t.stop .syntactic e.message :: ds)
  | stops {b : Block Number} {t : Token} {ts : List Token}
      (failed : b.add t = .error .infinityToInteger) :
      Filled b (t :: ts) none []

/-- The block of a row holds the tokens of the row, behind those that were there already. -/
theorem Filled.tokens {last : Option (Block Number)} {ds : List Diagnostic}
    (h : Filled b ts last ds) : ∀ b' ∈ last, b'.tokens = b.tokens ++ ts ∧ b'.line = b.line := by
  induction h with
  | done b =>
    rintro _ ⟨⟩
    simp
  | @adds b b₁ t ts last ds added behind ih =>
    obtain ⟨htokens, hline⟩ := add_tokens added
    intro b' hb'
    simpa [htokens, hline] using ih b' hb'
  | skips failed behind ih =>
    intro b' hb'
    simpa [record] using ih b' hb'
  | stops failed => simp

theorem Filled.reports {last : Option (Block Number)} {ds : List Diagnostic}
    (h : Filled b ts last ds) :
    ∀ d ∈ ds, ∃ t ∈ ts, ∃ message, d = .error t.line t.start t.stop .syntactic message := by
  induction h with
  | done b => simp
  | adds added behind ih =>
    intro d hd
    obtain ⟨t, ht, hmessage⟩ := ih d hd
    exact ⟨t, List.mem_cons_of_mem _ ht, hmessage⟩
  | skips failed behind ih =>
    intro d hd
    rcases List.mem_cons.mp hd with rfl | hd
    · exact ⟨_, List.mem_cons_self, _, rfl⟩
    · obtain ⟨t, ht, hmessage⟩ := ih d hd
      exact ⟨t, List.mem_cons_of_mem _ ht, hmessage⟩
  | stops failed => simp

def Reading.ofRow (last : Option (Block Number)) (ds : List Diagnostic) : Reading :=
  match last with
  | none => ⟨none, ds⟩
  | some b => .report ds (.close (some b) .nothing)

theorem Reading.ofRow_reports (last : Option (Block Number)) (ds : List Diagnostic) :
    (ofRow last ds).reports = ds ++ last.elim [] Block.reports := by
  cases last with
  | none => simp [ofRow]
  | some b =>
    simp only [ofRow, close, report, nothing]
    split <;> simp

theorem Reading.ofRow_blocks (b : Block Number) (ds : List Diagnostic) :
    (ofRow (some b) ds).blocks? = some (if b.isValid then [b] else []) := by
  simp only [ofRow, close, report, nothing]
  split <;> rfl

theorem readFrom_end (ends : next.endsLine = true) (current : Option (Block Number)) :
    readFrom current [next] = .close current .nothing := by
  rcases (Bool.or_eq_true _ _).mp ends with hk | hk <;> simp [readFrom, of_decide_eq_true hk]

theorem readFrom_filled (inner : ∀ t ∈ ts, t.endsLine = false) (ends : next.endsLine = true)
    (b : Block Number) :
    ∃ last ds, Filled b ts last ds ∧ readFrom (some b) (ts ++ [next]) = .ofRow last ds := by
  induction ts generalizing b with
  | nil => exact ⟨some b, [], .done b, readFrom_end ends (some b)⟩
  | cons t ts ih =>
    have ht := inner t List.mem_cons_self
    have hinner : ∀ u ∈ ts, u.endsLine = false := fun u hu => inner u (List.mem_cons_of_mem t hu)
    simp only [List.cons_append, readFrom, Option.getD_some]
    split
    · simp [Token.endsLine, ‹t.kind = _›] at ht
    · simp [Token.endsLine, ‹t.kind = _›] at ht
    · split
      · rename_i b' hadd
        obtain ⟨last, ds, hfilled, hread⟩ := ih hinner b'
        exact ⟨last, ds, .adds hadd hfilled, hread⟩
      · rename_i hadd
        exact ⟨none, [], .stops hadd, rfl⟩
      · rename_i e _ hadd
        obtain ⟨last, ds, hfilled, hread⟩ := ih hinner (b.record t)
        refine ⟨last, _, .skips hadd hfilled, ?_⟩
        change Reading.report _ (readFrom (some (b.record t)) _) = _
        rw [hread]
        cases last <;> simp [Reading.ofRow, Reading.report]

/-- The first token between two line ends opens the block of its line, and the tokens behind it fill
that. -/
theorem readFrom_run (inner : ∀ u ∈ t :: ts, u.endsLine = false) (ends : next.endsLine = true) :
    ∃ last ds, Filled (.empty t.line) (t :: ts) last ds ∧
      readFrom none (t :: ts ++ [next]) = .ofRow last ds := by
  have hopen : readFrom none (t :: ts ++ [next]) = readFrom (some (.empty t.line))
      (t :: ts ++ [next]) := by
    have ht := inner t List.mem_cons_self
    simp only [List.cons_append, readFrom]
    split
    · simp [Token.endsLine, ‹t.kind = _›] at ht
    · simp [Token.endsLine, ‹t.kind = _›] at ht
    · rfl
  rw [hopen]
  exact readFrom_filled inner ends (.empty t.line)

/-- A row opens the block of its line with its first token; without tokens there is nothing to
read. -/
theorem readFrom_row_filled {n : Nat} (inner : ∀ t ∈ ts, t.line = n ∧ t.Inner)
    (ends : next.kind = .newline) :
    (ts = [] ∧ readFrom none (ts ++ [next]) = .nothing) ∨
      ts ≠ [] ∧ ∃ last ds, Filled (.empty n) ts last ds ∧
      readFrom none (ts ++ [next]) = .ofRow last ds := by
  have hends : next.endsLine = true := by simp [Token.endsLine, ends]
  cases ts with
  | nil => exact .inl ⟨rfl, readFrom_end hends none⟩
  | cons t ts =>
    refine .inr ⟨by simp, ?_⟩
    obtain ⟨hline, -⟩ := inner t List.mem_cons_self
    rw [← hline]
    exact readFrom_run (fun u hu => (inner u hu).2.not_endsLine) hends

/-- The block of a row holds the tokens of the row. -/
theorem readFrom_row_tokens {n : Nat} {bs : List (Block Number)}
    (inner : ∀ t ∈ ts, t.line = n ∧ t.Inner) (ends : next.kind = .newline)
    (h : (readFrom none (ts ++ [next])).blocks? = some bs) (hb : b ∈ bs) :
    b.line = n ∧ b.tokens ≠ [] ∧ b.tokens = ts := by
  rcases readFrom_row_filled inner ends with ⟨-, hread⟩ | ⟨hne, last, ds, hfilled, hread⟩
  · rw [hread] at h
    cases h
    cases hb
  · rw [hread] at h
    cases last with
    | none => cases h
    | some b' =>
      rw [Reading.ofRow_blocks] at h
      have hmem : b = b' := by
        split at h <;> cases h
        · exact List.mem_singleton.mp hb
        · cases hb
      subst hmem
      obtain ⟨htokens, hline⟩ := hfilled.tokens b rfl
      exact ⟨hline, by simpa [htokens, empty] using hne, htokens⟩

theorem Reading.andThen_blocks {r s : Reading} {bs : List (Block Number)}
    (h : (r.andThen s).blocks? = some bs) :
    ∃ first rest, r.blocks? = some first ∧ s.blocks? = some rest ∧ bs = first ++ rest := by
  obtain ⟨blocks?, reports⟩ := r
  cases blocks? with
  | none => cases h
  | some first =>
    obtain ⟨rest, hrest, rfl⟩ := Option.map_eq_some_iff.mp h
    exact ⟨first, rest, rfl, hrest, rfl⟩

/-- The blocks of rows hold the tokens of their lines. -/
theorem readFrom_rows_tokens {n : Nat} {ls : List (List Char)} {bs : List (Block Number)}
    (h : (readFrom none (Token.rowsFrom n ls)).blocks? = some bs) (hb : b ∈ bs) :
    (n ≤ b.line ∧ b.line < n + ls.length) ∧ b.tokens ≠ [] ∧
      b.tokens = (Token.rowsFrom n ls).filter (·.isOn b.line) := by
  induction ls generalizing n bs with
  | nil =>
    cases h
    cases hb
  | cons cs ls ih =>
    have hends : (Token.lineEnd n cs).kind = .newline := rfl
    rw [Token.rowsFrom_cons, readFrom_append Token.row_open hends] at h
    obtain ⟨first, rest, hfirst, hrest, rfl⟩ := Reading.andThen_blocks h
    rw [Token.rowsFrom_cons, List.filter_append,
      List.filter_cons_of_neg (by simp [Token.isOn, Token.endsLine, hends])]
    rcases List.mem_append.mp hb with hb | hb
    · obtain ⟨hline, hne, htokens⟩ := readFrom_row_tokens (fun t => Token.row_inner) hends hfirst hb
      refine ⟨by simp; omega, hne, ?_⟩
      rw [hline, Token.row_filter, Token.rowsFrom_filter_before (by omega), htokens]
      simp
    · obtain ⟨hline, hne, htokens⟩ := ih hrest hb
      refine ⟨by simp; omega, hne, ?_⟩
      rw [Token.row_filter_other (by omega), htokens]
      simp

/-- Blocks that stand for lines of a text: at most one for each line, in the order of the lines, and
each with the tokens of its line. -/
structure Lined (text : String) (bs : List (Block Number)) : Prop where
  ascending : bs.Pairwise fun b b' => b.line < b'.line
  single : ∀ line : Int, (bs.filter fun b => b.line = line).length ≤ 1
  within : ∀ b ∈ bs, 1 ≤ b.line ∧ b.line ≤ (Token.lines text).length
  tokens : ∀ b ∈ bs, b.tokens ≠ [] ∧ b.tokens = (Token.scan text).1.filter (·.isOn b.line)

theorem single_of_ascending {bs : List (Block Number)}
    (h : bs.Pairwise fun b b' => b.line < b'.line) (line : Int) :
    (bs.filter fun b => b.line = line).length ≤ 1 := by
  have hsorted := h.filter (fun b => decide (b.line = line))
  have hlines : ∀ b ∈ bs.filter fun b => b.line = line, b.line = line := by
    intro b hb
    simpa using (List.mem_filter.mp hb).2
  generalize (bs.filter fun b => b.line = line) = cs at hsorted hlines
  cases hsorted with
  | nil => simp
  | @cons b cs hbefore _ =>
    cases cs with
    | nil => simp
    | cons c cs =>
      have hlt := hbefore c List.mem_cons_self
      have hb := hlines b (by simp)
      have hc := hlines c (by simp)
      omega

theorem ofText_lined {text : String} {bs : List (Block Number)}
    (h : (ofTokens (Token.scan text).1).blocks? = some bs) : Lined text bs := by
  have hlisted := ofText_listed h
  rw [ofText_rows] at h
  refine ⟨hlisted.ascending, single_of_ascending hlisted.ascending, ?_, ?_⟩
  · intro b hb
    obtain ⟨hline, -⟩ := readFrom_rows_tokens h hb
    omega
  · intro b hb
    obtain ⟨-, hne, htokens⟩ := readFrom_rows_tokens h hb
    refine ⟨hne, ?_⟩
    have hend : ¬ (Token.endMark text).isOn b.line := by
      simp [Token.isOn, Token.endsLine, Token.endMark]
    rw [Token.scan_tokens, List.filter_append, List.filter_cons_of_neg hend]
    simpa using htokens

/-- A text in two parts with a line end between them is scanned as the two parts are, the second one
further down, and so are its blocks and the reports on them if neither part stops the reading. Hence
the blocks of any text are lined up with its lines. -/
theorem ofText_local :
    (∀ a b : String,
      (∃ ts, (Token.scan a).1 = ts ++ [Token.endMark a] ∧
        (Token.scan (a ++ "\n" ++ b)).1 = ts ++ (Token.scan b).1.map
          (Token.down (Token.lines a).length)) ∧
      (Token.scan (a ++ "\n" ++ b)).2 =
        (Token.scan a).2 ++ (Token.scan b).2.map (Diagnostic.down (Token.lines a).length) ∧
      ∀ as bs, (ofTokens (Token.scan a).1).blocks? = some as →
        (ofTokens (Token.scan b).1).blocks? = some bs →
        (ofTokens (Token.scan (a ++ "\n" ++ b)).1).blocks? =
          some (as ++ bs.map (Block.down (Token.lines a).length)) ∧
        (ofTokens (Token.scan (a ++ "\n" ++ b)).1).reports =
          (ofTokens (Token.scan a).1).reports ++
            (ofTokens (Token.scan b).1).reports.map (Diagnostic.down (Token.lines a).length)) ∧
    ∀ text bs, (ofTokens (Token.scan text).1).blocks? = some bs → Lined text bs := by
  refine ⟨?_, fun text bs h => ofText_lined h⟩
  intro a b
  refine ⟨⟨_, Token.scan_tokens a, Token.scan_append_tokens a b⟩, Token.scan_append_reports a b, ?_⟩
  intro as bs ha hb
  rw [ofText_append]
  simp [Reading.andThen, Reading.down, ha, hb]

/-- A kept block and a stray character, then an empty line, a block that is dropped and one that is
kept. -/
theorem ofText_local_five :
    ∃ as bs, (ofTokens (Token.scan "N1 G0 X1\n?").1).blocks? = some as ∧
      (ofTokens (Token.scan "\nG2 G3\nM3 S5").1).blocks? = some bs ∧
      (ofTokens (Token.scan "N1 G0 X1\n?\n\nG2 G3\nM3 S5").1).blocks? =
        some (as ++ bs.map (Block.down 2)) ∧
      (as ++ bs.map (Block.down 2)).map (·.line) = [1, 5] ∧
      Lined "N1 G0 X1\n?\n\nG2 G3\nM3 S5" (as ++ bs.map (Block.down 2)) := by
  have hlines : (ofTokens (Token.scan "N1 G0 X1\n?\n\nG2 G3\nM3 S5").1).blocks?.map
      (·.map (·.line)) =
      some [1, 5] := by decide +kernel
  obtain ⟨as, has⟩ : ∃ as, (ofTokens (Token.scan "N1 G0 X1\n?").1).blocks? = some as :=
    Option.isSome_iff_exists.mp (by decide +kernel)
  obtain ⟨bs, hbs⟩ : ∃ bs, (ofTokens (Token.scan "\nG2 G3\nM3 S5").1).blocks? = some bs :=
    Option.isSome_iff_exists.mp (by decide +kernel)
  have hwhole := ((ofText_local.1 "N1 G0 X1\n?" "\nG2 G3\nM3 S5").2.2 as bs has hbs).1
  have hcount : (Token.lines "N1 G0 X1\n?").length = 2 := by decide +kernel
  have htext : "N1 G0 X1\n?" ++ "\n" ++ "\nG2 G3\nM3 S5" = "N1 G0 X1\n?\n\nG2 G3\nM3 S5" := by
    decide
  rw [hcount, htext] at hwhole
  rw [hwhole, Option.map_some] at hlines
  exact ⟨as, bs, has, hbs, hwhole, Option.some.inj hlines, ofText_local.2 _ _ hwhole⟩

end Block
end Machining
