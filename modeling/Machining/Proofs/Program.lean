import Machining.Block.OfTokens
import Machining.Proofs.Layout

namespace Machining
open Text

def Number.IsFloat (v : Number) : Prop := ∃ x, v = .float x

/-- Tokens that do not end a line; words hold no blanks. -/
def Token.Inner (t : Token) : Prop :=
  match t.kind with
  | .word _ => ∀ c ∈ t.value.toList, isBlank c = false
  | .newline | .endOfText => False
  | _ => True

inductive Token.Rows : Nat → List Token → Prop where
  | stop {n : Nat} {last : Token} (ends : last.kind = .endOfText) : Rows n [last]
  | row {n : Nat} {ts rest : List Token} {next : Token} (inner : ∀ t ∈ ts, t.line = n ∧ t.Inner)
      (ends : next.kind = .newline) (behind : Rows (n + 1) rest) : Rows n (ts ++ next :: rest)

namespace Token

theorem Piece.inner {line pos : Nat} {taken : List Char} {t : Token}
    (h : Piece line pos taken (.token t)) : t.line = line ∧ t.Inner := by
  generalize hi : Item.token t = item at h
  cases h with
  | word l capital present unblanked =>
    cases hi
    exact ⟨rfl, by simpa [Inner] using unblanked⟩
  | expression closed =>
    cases hi
    exact ⟨rfl, trivial⟩
  | unknown letter => cases hi
  | stray c => cases hi

theorem Remark.inner {line width pos : Nat} {cs : List Char} {items : List Item} {t : Token}
    (h : Remark line width pos cs items) (ht : .token t ∈ items) : t.line = line ∧ t.Inner := by
  cases h <;> simp [tokenAt, reportAt] at ht <;> subst ht <;> exact ⟨rfl, trivial⟩

theorem Laid.inner {line width pos : Nat} {cs : List Char} {items : List Item} {t : Token}
    (h : Laid line width pos cs items) (ht : .token t ∈ items) : t.line = line ∧ t.Inner := by
  induction h with
  | done pos => cases ht
  | blank gap behind ih => exact ih ht
  | piece fits behind ih =>
    rcases List.mem_cons.mp ht with rfl | ht
    · exact fits.inner
    · exact ih ht
  | remark ends => exact ends.inner ht

theorem mem_tokens {items : List Item} {t : Token} :
    t ∈ items.filterMap Item.token? ↔ .token t ∈ items := by
  rw [List.mem_filterMap]
  constructor
  · rintro ⟨item, hmem, htok⟩
    cases item with
    | token u => cases htok; exact hmem
    | report d => cases htok
  · intro h
    exact ⟨_, h, rfl⟩

theorem rows_lines (last : Token) (ends : last.kind = .endOfText) (n : Nat)
    (ls : List (List Char)) :
    Rows n ((scanLines n ls ++ [Item.token last]).filterMap Item.token?) := by
  induction ls generalizing n with
  | nil => exact .stop ends
  | cons cs ls ih =>
    have hinner : ∀ t ∈ (scanLine n cs).filterMap Item.token?, t.line = n ∧ t.Inner :=
      fun t ht => (scanFrom_laid n cs.length _ (trim cs)).inner (mem_tokens.mp ht)
    let next : Token := ⟨.newline, String.ofList ['\n'], n, cs.length, cs.length⟩
    have hrow := Rows.row hinner (rfl : next.kind = .newline) (ih (n + 1))
    simpa [scanLines, List.filterMap_append, List.filterMap_cons, Item.token?, tokenAt] using hrow

/-- The tokens of a text stand in rows. -/
theorem scan_rows (text : String) : Rows 1 (scan text).1 :=
  rows_lines ⟨.endOfText, "", (lines text).length, 0, 0⟩ rfl 1 (lines text)

/-- What holds of the three reports that scanning makes holds of every report on a line. -/
theorem Laid.reports {P : Diagnostic → Prop} {line width pos : Nat} {cs : List Char}
    {items : List Item} {d : Diagnostic} (unknown : ∀ start stop : Nat, ∀ letter : Char,
      P (.error line start stop .syntactic s!"Unknown G-code letter: {letter}"))
    (stray : ∀ start stop : Nat, ∀ c : Char,
      P (.error line start stop .syntactic s!"Unrecognized character: '{c}'"))
    (unclosed : ∀ start stop : Nat,
      P (.error line start stop .syntactic "Unclosed parenthesis in comment"))
    (h : Laid line width pos cs items) (hd : .report d ∈ items) : P d := by
  induction h with
  | done pos => cases hd
  | blank gap behind ih => exact ih hd
  | piece fits behind ih =>
    rcases List.mem_cons.mp hd with rfl | hd
    · generalize hi : Item.report d = item at fits
      cases fits with
      | word l capital present unblanked => cases hi
      | expression closed => cases hi
      | unknown letter =>
        cases hi
        exact unknown _ _ letter
      | stray c =>
        cases hi
        exact stray _ _ c
    · exact ih hd
  | remark ends =>
    cases ends with
    | closed kind inner plain => simp [tokenAt] at hd
    | unclosed inner =>
      rcases List.mem_cons.mp hd with h | h
      · cases h
        exact unclosed _ _
      · simp [tokenAt] at h
    | semicolon body => simp [tokenAt] at hd

theorem scanLines_reports {P : Diagnostic → Prop} {d : Diagnostic}
    (unknown : ∀ line start stop : Nat, ∀ letter : Char,
      P (.error line start stop .syntactic s!"Unknown G-code letter: {letter}"))
    (stray : ∀ line start stop : Nat, ∀ c : Char,
      P (.error line start stop .syntactic s!"Unrecognized character: '{c}'"))
    (unclosed : ∀ line start stop : Nat,
      P (.error line start stop .syntactic "Unclosed parenthesis in comment"))
    {n : Nat} {ls : List (List Char)} (h : .report d ∈ scanLines n ls) : P d := by
  induction ls generalizing n with
  | nil => cases h
  | cons cs ls ih =>
    rcases List.mem_append.mp h with h | h
    · exact (scanFrom_laid n cs.length _ (trim cs)).reports (unknown n) (stray n) (unclosed n) h
    · rcases List.mem_cons.mp h with h | h
      · cases h
      · exact ih h

/-- What holds of the three reports that scanning makes holds of every report on a text. -/
theorem scan_reports_of {P : Diagnostic → Prop} {text : String} {d : Diagnostic}
    (unknown : ∀ line start stop : Nat, ∀ letter : Char,
      P (.error line start stop .syntactic s!"Unknown G-code letter: {letter}"))
    (stray : ∀ line start stop : Nat, ∀ c : Char,
      P (.error line start stop .syntactic s!"Unrecognized character: '{c}'"))
    (unclosed : ∀ line start stop : Nat,
      P (.error line start stop .syntactic "Unclosed parenthesis in comment"))
    (h : d ∈ (scan text).2) : P d := by
  obtain ⟨item, hmem, hitem⟩ := List.mem_filterMap.mp h
  cases item with
  | token t => cases hitem
  | report e =>
    cases hitem
    rcases List.mem_append.mp hmem with hmem | hmem
    · exact scanLines_reports unknown stray unclosed hmem
    · simp at hmem

/-- Scanning reports errors that do not end the program. -/
theorem scan_reports {text : String} {d : Diagnostic} (h : d ∈ (scan text).2) :
    d.severity = .error :=
  scan_reports_of (P := fun d => d.severity = .error) (fun _ _ _ _ => rfl) (fun _ _ _ _ => rfl)
    (fun _ _ _ => rfl) h

end Token

theorem Table.mem_keys_put {κ ν : Type} [BEq κ] {t : Table κ ν} {k k' : κ} {v : ν}
    (h : k' ∈ (t.put k v).keys) : k' ∈ t.keys ∨ k' = k := by
  obtain ⟨entries⟩ := t
  simp only [keys, put] at h ⊢
  induction entries with
  | nil => exact .inr (by simpa [put.go] using h)
  | cons e es ih =>
    unfold put.go at h
    split at h
    · exact .inl (by simpa using h)
    · rcases List.mem_cons.mp h with rfl | h
      · exact .inl (by simp)
      · rcases ih h with h | h
        · exact .inl (List.mem_cons_of_mem _ h)
        · exact .inr h

theorem Table.mem_entries_put {κ ν : Type} [BEq κ] {t : Table κ ν} {k : κ} {v : ν} {e : κ × ν}
    (h : e ∈ (t.put k v).entries) : e ∈ t.entries ∨ e = (k, v) ∨ (e.1 == k) = true ∧ e.2 = v := by
  obtain ⟨entries⟩ := t
  simp only [put] at h
  induction entries with
  | nil => exact .inr (.inl (List.mem_singleton.mp h))
  | cons e' es ih =>
    unfold put.go at h
    split at h
    · rename_i heq
      rcases List.mem_cons.mp h with rfl | h
      · exact .inr (.inr ⟨heq, rfl⟩)
      · exact .inl (List.mem_cons_of_mem _ h)
    · rcases List.mem_cons.mp h with rfl | h
      · exact .inl List.mem_cons_self
      · exact (ih h).imp_left (List.mem_cons_of_mem _)

namespace Block

/-- What blocks from texts look like: the numbers of codes, axes and parameters are binary64 values,
and the control word is a single one. -/
structure Written (b : Block Number) : Prop where
  g : ∀ code ∈ b.g.keys, code.IsFloat
  m : ∀ code ∈ b.m.keys, code.IsFloat
  axes : ∀ i v, b.axis i = some v → v.IsFloat
  params : ∀ d v, b.param d = some v → v.IsFloat
  control : ∀ w, b.oWord = some w → ∀ c ∈ w.toList, isBlank c = false

variable {b b' : Block Number} {t : Token}

theorem written_empty (line : Int) : Written (empty line) where
  g := by simp [empty, Table.empty, Table.keys]
  m := by simp [empty, Table.empty, Table.keys]
  axes i v h := by simp [empty, axis, Axes.fill] at h
  params d v h := by simp [empty, param, Params.fill] at h
  control w h := by simp [empty] at h

theorem isFloat_of_map {o : Option Float} {v : Number} (h : o.map Number.float = some v) :
    v.IsFloat := by
  obtain ⟨x, _, rfl⟩ := Option.map_eq_some_iff.mp h
  exact ⟨x, rfl⟩

theorem Written.addWord {l : Letter} {value : String} (h : b.Written)
    (hv : ∀ c ∈ value.toList, isBlank c = false) (ha : b.addWord l value = .ok b') :
    b'.Written ∧ b'.line = b.line := by
  cases l with
  | g =>
    simp only [Block.addWord] at ha
    split at ha
    · rename_i v hn
      cases ha
      refine ⟨⟨?_, h.m, h.axes, h.params, h.control⟩, rfl⟩
      intro code hc
      rcases Table.mem_keys_put hc with hc | rfl
      · exact h.g code hc
      · exact isFloat_of_map hn
    · cases ha
      exact ⟨h, rfl⟩
  | m =>
    simp only [Block.addWord] at ha
    split at ha
    · rename_i v hn
      cases ha
      refine ⟨⟨h.g, ?_, h.axes, h.params, h.control⟩, rfl⟩
      intro code hc
      rcases Table.mem_keys_put hc with hc | rfl
      · exact h.m code hc
      · exact isFloat_of_map hn
    · cases ha
      exact ⟨h, rfl⟩
  | o =>
    cases ha
    refine ⟨⟨h.g, h.m, h.axes, h.params, ?_⟩, rfl⟩
    intro w hw
    cases hw
    exact hv
  | axis i =>
    cases ha
    refine ⟨⟨h.g, h.m, ?_, h.params, h.control⟩, rfl⟩
    intro j v hj
    simp only [Block.axis, Axes.get_set] at hj
    split at hj
    · exact isFloat_of_map hj
    · exact h.axes j v hj
  | param d =>
    cases ha
    refine ⟨⟨h.g, h.m, h.axes, ?_, h.control⟩, rfl⟩
    intro e v he
    simp only [Block.param, Params.get_set] at he
    split at he
    · exact isFloat_of_map he
    · exact h.params e v he
  | t | n =>
    simp only [Block.addWord] at ha
    cases hw : wholeWord value with
    | error e => rw [hw] at ha; cases ha
    | ok n =>
      rw [hw] at ha
      cases ha
      exact ⟨⟨h.g, h.m, h.axes, h.params, h.control⟩, rfl⟩

theorem Written.add (h : b.Written) (ht : t.Inner) (ha : b.add t = .ok b') :
    b'.Written ∧ b'.line = b.line := by
  unfold Block.add at ha
  have hb : Written { b with tokens := b.tokens ++ [t] } := ⟨h.g, h.m, h.axes, h.params, h.control⟩
  split at ha
  · rename_i l hk
    have hv : ∀ c ∈ t.value.toList, isBlank c = false := by simpa [Token.Inner, hk] using ht
    exact hb.addWord hv ha
  all_goals
    cases ha
    exact ⟨⟨h.g, h.m, h.axes, h.params, h.control⟩, rfl⟩

structure Listed (n : Nat) (bs : List (Block Number)) : Prop where
  ascending : bs.Pairwise fun b b' => b.line < b'.line
  lines : ∀ b ∈ bs, (n : Int) ≤ b.line
  written : ∀ b ∈ bs, b.Written

theorem Listed.nil (n : Nat) : Listed n [] := ⟨.nil, by simp, by simp⟩

/-- A block that is closed stands before those of the lines behind it. -/
theorem listed_close {n : Nat} {current : Option (Block Number)} {r : Reading}
    {bs : List (Block Number)} (hc : ∀ b ∈ current, b.line = n ∧ b.Written)
    (hr : ∀ bs, r.blocks? = some bs → Listed (n + 1) bs)
    (h : (Reading.close current r).blocks? = some bs) : Listed n bs := by
  have weaken : ∀ bs, r.blocks? = some bs → Listed n bs := by
    intro bs h
    obtain ⟨asc, lines, written⟩ := hr bs h
    exact ⟨asc, fun b hb => by have := lines b hb; omega, written⟩
  cases current with
  | none => exact weaken bs h
  | some b =>
    obtain ⟨hline, hb⟩ := hc b rfl
    simp only [Reading.close] at h
    split at h
    · obtain ⟨bs', hbs', rfl⟩ := Option.map_eq_some_iff.mp h
      obtain ⟨asc, lines, written⟩ := hr bs' hbs'
      refine ⟨.cons ?_ asc, ?_, ?_⟩
      · intro b' hb'
        have := lines b' hb'
        omega
      · intro b' hb'
        rcases List.mem_cons.mp hb' with rfl | hb'
        · omega
        · have := lines b' hb'
          omega
      · intro b' hb'
        rcases List.mem_cons.mp hb' with rfl | hb'
        · exact hb
        · exact written b' hb'
    · exact weaken bs h

/-- Reading a row adds to the block of its line, which closes at the end of the row. -/
theorem readFrom_row {n : Nat} {ts rest : List Token} {next : Token}
    {current : Option (Block Number)} {bs : List (Block Number)}
    (inner : ∀ t ∈ ts, t.line = n ∧ t.Inner) (ends : next.kind = .newline)
    (hrest : ∀ bs, (readFrom none rest).blocks? = some bs → Listed (n + 1) bs)
    (hc : ∀ b ∈ current, b.line = n ∧ b.Written)
    (h : (readFrom current (ts ++ next :: rest)).blocks? = some bs) : Listed n bs := by
  induction ts generalizing current with
  | nil =>
    simp only [List.nil_append, readFrom, ends] at h
    exact listed_close hc hrest h
  | cons t ts ih =>
    obtain ⟨hline, ht⟩ := inner t List.mem_cons_self
    have hinner : ∀ u ∈ ts, u.line = n ∧ u.Inner := fun u hu => inner u (List.mem_cons_of_mem t hu)
    have hopen : (current.getD (.empty t.line)).line = n ∧
        (current.getD (.empty t.line)).Written := by
      cases current with
      | none => exact ⟨hline, written_empty _⟩
      | some b => exact hc b rfl
    simp only [List.cons_append, readFrom] at h
    split at h
    · rename_i hk
      simp [Token.Inner, hk] at ht
    · rename_i hk
      simp [Token.Inner, hk] at ht
    · split at h
      · rename_i b' hadd
        apply ih hinner _ h
        rintro _ ⟨⟩
        have := hopen.2.add ht hadd
        exact ⟨this.2.trans hopen.1, this.1⟩
      · cases h
      · apply ih hinner _ h
        rintro _ ⟨⟩
        have hw := hopen.2
        exact ⟨hopen.1, hw.g, hw.m, hw.axes, hw.params, hw.control⟩

theorem ofTokens_listed {n : Nat} {ts : List Token} {bs : List (Block Number)}
    (hr : Token.Rows n ts) (h : (ofTokens ts).blocks? = some bs) : Listed n bs := by
  unfold ofTokens at h
  induction hr generalizing bs with
  | stop ends =>
    simp only [readFrom, ends] at h
    cases h
    exact .nil _
  | row inner ends behind ih =>
    exact readFrom_row inner ends (fun bs hbs => ih hbs) (by simp) h

/-- What holds of the two reports on conflicting codes holds of every report on a block. -/
theorem reports_of {P : Diagnostic → Prop} {d : Diagnostic}
    (group : ∀ (start stop : Int) (name : String) (active : List Number),
      P (.error b.line start stop .semantic
        s!"Multiple codes from {name} modal group: {Number.listText active}"))
    (contest : ∀ single motion : String, P (.onLine b.line .semantic
      s!"Group 0 code {single} conflicts with motion code {motion} when axis words present"))
    (h : d ∈ b.reports) : P d := by
  rcases List.mem_append.mp h with h | h
  · obtain ⟨⟨name, codes⟩, _, h⟩ := List.mem_flatMap.mp h
    simp only at h
    split at h
    · simp only [groupReport] at h
      split at h
      · rw [List.mem_singleton.mp h]
        exact group _ _ _ _
      · cases h
    · cases h
  · unfold contestReports at h
    split at h
    · rw [List.mem_singleton.mp h]
      exact contest _ _
    · cases h

theorem close_reports {P : Diagnostic → Prop} {d : Diagnostic} {current : Option (Block Number)}
    {r : Reading} (hb : ∀ b : Block Number, d ∈ b.reports → P d) (hr : d ∈ r.reports → P d)
    (h : d ∈ (Reading.close current r).reports) : P d := by
  cases current with
  | none => exact hr h
  | some b =>
    simp only [Reading.close, Reading.report] at h
    rcases List.mem_append.mp h with h | h
    · exact hb b h
    · split at h <;> exact hr h

/-- What holds of the reports on blocks and of those on words that cannot be recorded holds of every
report that reading makes. -/
theorem readFrom_reports_of {P : Diagnostic → Prop} {d : Diagnostic}
    (block : ∀ b : Block Number, d ∈ b.reports → P d)
    (word : ∀ (b : Block Number) (t : Token) (e : Fault),
      b.add t = .error e → e ≠ .infinityToInteger →
      P (.error t.line t.start t.stop .syntactic e.message))
    {current : Option (Block Number)} {ts : List Token}
    (h : d ∈ (readFrom current ts).reports) : P d := by
  induction ts generalizing current with
  | nil => cases h
  | cons t ts ih =>
    simp only [readFrom] at h
    split at h
    · exact close_reports block ih h
    · exact close_reports block (fun hn => by cases hn) h
    · split at h
      · exact ih h
      · cases h
      · rename_i e he hadd
        rcases List.mem_append.mp h with h | h
        · rw [List.mem_singleton.mp h]
          exact word _ t e hadd he
        · exact ih h

/-- Reading reports errors that do not end the program. -/
theorem readFrom_reports {d : Diagnostic} {current : Option (Block Number)} {ts : List Token}
    (h : d ∈ (readFrom current ts).reports) : d.severity = .error :=
  readFrom_reports_of (P := fun d => d.severity = .error)
    (fun _ => reports_of (P := fun d => d.severity = .error) (fun _ _ _ _ => rfl) (fun _ _ => rfl))
    (fun _ _ _ _ _ => rfl) h

/-- The blocks of a text. -/
theorem ofText_listed {text : String} {bs : List (Block Number)}
    (h : (ofTokens (Token.scan text).1).blocks? = some bs) : Listed 1 bs :=
  ofTokens_listed (Token.scan_rows text) h

end Block
end Machining
