import Machining.Proofs.Layout

namespace Machining
open Text

def Token.covers (t : Token) (i : Nat) : Bool := t.start ≤ i && i < t.stop

def Diagnostic.covers (d : Diagnostic) (i : Nat) : Bool := d.start ≤ i && i < d.stop

theorem Token.covers_iff {t : Token} {i : Nat} : t.covers i = true ↔ t.start ≤ i ∧ i < t.stop := by
  simp [Token.covers]

theorem Diagnostic.covers_iff {d : Diagnostic} {i : Nat} :
    d.covers i = true ↔ d.start ≤ i ∧ i < d.stop := by
  simp [Diagnostic.covers]

def Diagnostic.isLexical (d : Diagnostic) : Bool :=
  "Unknown G-code letter: ".toList.isPrefixOf d.message.toList ||
    "Unrecognized character: ".toList.isPrefixOf d.message.toList

def Token.slice (t : Token) (cs : List Char) : List Char :=
  (cs.drop t.start.toNat).take (t.stop - t.start).toNat

def Token.IsComment (t : Token) : Prop := ∃ kind, t.kind = .comment kind

/-- What stands in the line where a token is. A comment is closed, or it reaches to the end of the
line. -/
def Token.Spells (t : Token) (cs : List Char) : Prop :=
  match t.kind with
  | .word l => ∃ c, upperForm c = [l.char] ∧ t.slice cs = c :: t.value.toList
  | .expression => t.slice cs = '[' :: t.value.toList ++ [']']
  | .comment kind =>
    (∃ body, t.slice cs = '(' :: body ++ [')'] ∧ ')' ∉ body ∧
      (kind = .plain → t.value.toList = body)) ∨
    (kind = .plain ∧ t.stop = cs.length ∧ ∃ body, t.slice cs = '(' :: body ∧ ')' ∉ body) ∨
    (kind = .plain ∧ t.stop = cs.length ∧ ∃ body, t.slice cs = ';' :: body)
  | _ => False

def Token.Dropped (ts : List Token) (cs : List Char) (i : Nat) : Prop :=
  ∃ t ∈ ts, t.IsComment ∧ cs[t.start.toNat]? = some '(' ∧ t.stop ≤ i

/-- Tokens and reports that account for a line. -/
structure Token.Lossless (line : Nat) (cs : List Char) (ts : List Token)
    (ds : List Diagnostic) : Prop where
  inside : ∀ t ∈ ts, t.line = line ∧ 0 ≤ t.start ∧ t.start < t.stop ∧ t.stop ≤ cs.length
  apart : ts.Pairwise fun t u => t.stop ≤ u.start
  spells : ∀ t ∈ ts, t.Spells cs
  once : ∀ i c, cs[i]? = some c → isBlank c = false → ¬ Dropped ts cs i →
    ts.countP (·.covers i) + ds.countP (·.covers i) = 1
  dropped : ∀ i, Dropped ts cs i → ts.countP (·.covers i) + ds.countP (·.covers i) = 0
  last : ∀ t ∈ ts.dropLast, ¬ t.IsComment

namespace Token
variable {line width pos : Nat} {taken cs : List Char} {item : Item} {items : List Item}

/-- Whether an item is a token on column `i`, or a report that no token takes it. -/
def Item.marks (i : Nat) : Item → Bool
  | .token t => t.covers i
  | .report d => d.isLexical && d.covers i

theorem countP_marks (items : List Item) (i : Nat) :
    (items.filterMap Item.token?).countP (·.covers i) +
      ((items.filterMap Item.report?).filter Diagnostic.isLexical).countP (·.covers i) =
    items.countP (Item.marks i) := by
  induction items with
  | nil => rfl
  | cons item items ih =>
    cases item with
    | token t =>
      have hm : Item.marks i (.token t) = t.covers i := rfl
      simp only [List.filterMap_cons, Item.token?, Item.report?, List.countP_cons, hm, ← ih]
      omega
    | report d =>
      have hm : Item.marks i (.report d) = (d.isLexical && d.covers i) := rfl
      simp only [List.filterMap_cons, Item.token?, Item.report?, List.countP_cons, hm, ← ih]
      cases hd : d.isLexical with
      | false => simp [hd]
      | true =>
        simp only [List.filter_cons, hd, ↓reduceIte, List.countP_cons, Bool.true_and]
        omega

/-- A text starts with its first part. -/
theorem isPrefixOf_append (a b : String) : a.toList.isPrefixOf (a ++ b).toList = true := by
  rw [List.isPrefixOf_iff_prefix, String.toList_append]
  exact List.prefix_append _ _

theorem isLexical_unknown (line start stop : Int) (category : Category) (letter : Char) :
    (Diagnostic.error line start stop category s!"Unknown G-code letter: {letter}").isLexical =
      true :=
  Bool.or_eq_true_iff.mpr (.inl (isPrefixOf_append "Unknown G-code letter: " _))

theorem isLexical_stray (line start stop : Int) (category : Category) (c : Char) :
    (Diagnostic.error line start stop category s!"Unrecognized character: '{c}'").isLexical =
      true := by
  have h : s!"Unrecognized character: '{c}'" = "Unrecognized character: " ++
      ("'" ++ toString c ++ "'") := by
    simp only [String.append_assoc]
    rfl
  rw [h]
  exact Bool.or_eq_true_iff.mpr (.inr (isPrefixOf_append "Unrecognized character: " _))

theorem isLexical_unclosed (line start stop : Int) (category : Category) :
    (Diagnostic.error line start stop category "Unclosed parenthesis in comment").isLexical =
      false := by
  have h : (Diagnostic.error 0 0 0 .syntactic "Unclosed parenthesis in comment").isLexical =
      false := by decide
  exact h

/-- A piece marks just the columns it takes up. -/
theorem Piece.marks (h : Piece line pos taken item) (i : Nat) :
    item.marks i = decide (pos ≤ i ∧ i < pos + taken.length) := by
  rw [Bool.eq_iff_iff]
  cases h with
  | word l capital present unblanked =>
    rw [tokenAt, Item.marks, Token.covers_iff]
    simp only [List.length_cons, decide_eq_true_eq]
    omega
  | expression closed =>
    rw [tokenAt, Item.marks, Token.covers_iff]
    simp only [List.length_cons, List.length_append, List.length_nil, decide_eq_true_eq]
    omega
  | unknown letter =>
    rw [reportAt, Item.marks, isLexical_unknown, Bool.true_and]
    rw [Diagnostic.covers_iff, Diagnostic.error]
    simp only [List.length_cons, decide_eq_true_eq]
    omega
  | stray c =>
    rw [reportAt, Item.marks, isLexical_stray, Bool.true_and]
    rw [Diagnostic.covers_iff, Diagnostic.error]
    simp only [List.length_cons, List.length_nil, decide_eq_true_eq]
    omega

theorem Piece.token_span {t : Token} (h : Piece line pos taken (.token t)) :
    t.line = line ∧ t.start = pos ∧ t.stop = pos + taken.length ∧ taken ≠ [] ∧ ¬ t.IsComment := by
  generalize hi : Item.token t = item at h
  cases h with
  | word l capital present unblanked =>
    cases hi
    refine ⟨rfl, rfl, ?_, by simp, by simp [Token.IsComment]⟩
    simp only [List.length_cons]
    omega
  | expression closed =>
    cases hi
    refine ⟨rfl, rfl, ?_, by simp, by simp [Token.IsComment]⟩
    simp only [List.length_cons, List.length_append, List.length_nil]
    omega
  | unknown letter => cases hi
  | stray c => cases hi

/-- A token whose span takes up a stretch of the line covers that stretch. -/
theorem slice_eq {t : Token} {part post L : List Char} (hL : L.drop pos = part ++ post)
    (hs : t.start = pos) (he : t.stop = pos + part.length) : t.slice L = part := by
  have hstart : t.start.toNat = pos := by omega
  have hlength : (t.stop - t.start).toNat = part.length := by omega
  rw [Token.slice, hstart, hlength, hL, List.take_left]

theorem Piece.spells {t : Token} {L post : List Char} (h : Piece line pos taken (.token t))
    (hL : L.drop pos = taken ++ post) : t.Spells L := by
  obtain ⟨-, hstart, hstop, -, -⟩ := h.token_span
  have hslice := slice_eq hL hstart hstop
  generalize hi : Item.token t = item at h
  cases h with
  | word l capital present unblanked =>
    cases hi
    exact ⟨_, capital, by rw [hslice, String.toList_ofList]⟩
  | expression closed =>
    cases hi
    simpa [Token.Spells] using hslice
  | unknown letter => cases hi
  | stray c => cases hi

/-- A comment is the one token of the remark that it ends the line with. -/
theorem Remark.token_span (h : Remark line width pos cs items) (hw : pos + cs.length ≤ width) :
    ∃ t, items.filterMap Item.token? = [t] ∧ t.line = line ∧ t.start = pos ∧ t.start < t.stop ∧
      t.stop ≤ width ∧ t.IsComment ∧ ∀ i, items.countP (Item.marks i) =
        [t].countP (·.covers i) := by
  cases h with
  | closed kind inner plain =>
    refine ⟨_, rfl, rfl, rfl, ?_, ?_, ⟨_, rfl⟩, fun i => ?_⟩
    · simp; omega
    · simp at hw ⊢; omega
    · rfl
  | unclosed inner =>
    refine ⟨_, rfl, rfl, rfl, ?_, by simp, ⟨_, rfl⟩, fun i => ?_⟩
    · simp at hw ⊢; omega
    · have hno :
          Item.marks i (reportAt line pos width "Unclosed parenthesis in comment") = false := by
        rw [reportAt, Item.marks, isLexical_unclosed, Bool.false_and]
      rw [List.countP_cons_of_neg (by simp [hno])]
      rfl
  | semicolon body =>
    refine ⟨_, rfl, rfl, rfl, ?_, by simp, ⟨_, rfl⟩, fun i => ?_⟩
    · simp at hw ⊢; omega
    · rfl

theorem slice_to_end {t : Token} {L : List Char} (hs : t.start = pos) (he : t.stop = L.length) :
    t.slice L = L.drop pos := by
  have hstart : t.start.toNat = pos := by omega
  rw [Token.slice, hstart, List.take_of_length_le]
  rw [List.length_drop]
  omega

/-- A comment that does not reach the end of the line starts with a parenthesis. -/
theorem Remark.parenthesis {t : Token} (h : Remark line width pos cs items)
    (ht : t ∈ items.filterMap Item.token?) (hlt : t.stop ≠ width) : ∃ rest, cs = '(' :: rest := by
  cases h with
  | closed kind inner plain => exact ⟨_, rfl⟩
  | unclosed inner => exact ⟨_, rfl⟩
  | semicolon body =>
    cases List.mem_singleton.mp ht
    exact absurd rfl hlt

theorem Remark.spells {t : Token} {L post : List Char} (h : Remark line width pos cs items)
    (hL : L.drop pos = cs ++ post) (hp : ∀ c ∈ post, isBlank c = true) (hw : width = L.length)
    (ht : t ∈ items.filterMap Item.token?) : t.Spells L := by
  subst hw
  cases h with
  | @closed body rest value kind inner plain =>
    cases List.mem_singleton.mp ht
    left
    have hrest : L.drop pos = '(' :: body ++ [')'] ++ (rest ++ post) := by
      rw [hL]
      simp
    refine ⟨body, slice_eq hrest rfl (by simp; omega), inner, ?_⟩
    intro hk
    rw [plain hk, String.toList_ofList]
  | @unclosed body inner =>
    cases List.mem_singleton.mp ht
    -- a comment up to the end of the line also covers the blanks there
    refine .inr (.inl ⟨rfl, rfl, body ++ post, ?_, ?_⟩)
    · rw [slice_to_end rfl rfl, hL, List.cons_append]
    · intro hmem
      rcases List.mem_append.mp hmem with hb | hb
      · exact inner hb
      · exact absurd (hp _ hb) (by decide)
  | semicolon body =>
    cases List.mem_singleton.mp ht
    exact .inr (.inr ⟨rfl, rfl, body ++ post, by rw [slice_to_end rfl rfl, hL, List.cons_append]⟩)

/-- The items from a column on mark no column before it. -/
theorem Laid.marks_before {i : Nat} (h : Laid line width pos cs items)
    (hw : pos + cs.length ≤ width) (hi : i < pos) : items.countP (Item.marks i) = 0 := by
  induction h with
  | done pos => rfl
  | blank gap behind ih => exact ih (by simp at hw; omega) (by omega)
  | piece fits behind ih =>
    rw [List.countP_cons_of_neg, ih (by simp at hw; omega) (by omega)]
    rw [fits.marks, decide_eq_true_eq]
    omega
  | remark ends =>
    obtain ⟨t, -, -, hstart, -, -, -, hcount⟩ := ends.token_span hw
    rw [hcount, List.countP_eq_zero]
    intro u hu hcov
    cases List.mem_singleton.mp hu
    have := Token.covers_iff.mp hcov
    omega

theorem Laid.inside {t : Token} (h : Laid line width pos cs items) (hw : pos + cs.length ≤ width)
    (ht : t ∈ items.filterMap Item.token?) :
    t.line = line ∧ pos ≤ t.start ∧ t.start < t.stop ∧ t.stop ≤ width := by
  induction h with
  | done pos => cases ht
  | blank gap behind ih =>
    have := ih (by simp at hw; omega) ht
    omega
  | @piece pos taken cs item items fits behind ih =>
    rw [List.length_append] at hw
    rcases List.mem_filterMap.mp ht with ⟨item', hmem, htok⟩
    rcases List.mem_cons.mp hmem with rfl | hmem
    · cases item' with
      | report d => cases htok
      | token u =>
        cases htok
        obtain ⟨hline, hstart, hstop, hne, -⟩ := fits.token_span
        have := List.length_pos_iff.mpr hne
        omega
    · have := ih (by omega) (List.mem_filterMap.mpr ⟨item', hmem, htok⟩)
      omega
  | remark ends =>
    obtain ⟨u, htok, hline, hstart, hlt, hle, -, -⟩ := ends.token_span hw
    rw [htok] at ht
    cases List.mem_singleton.mp ht
    omega

theorem Laid.apart (h : Laid line width pos cs items) (hw : pos + cs.length ≤ width) :
    (items.filterMap Item.token?).Pairwise fun t u => t.stop ≤ u.start := by
  induction h with
  | done pos => exact .nil
  | blank gap behind ih => exact ih (by simp at hw; omega)
  | @piece pos taken cs item items fits behind ih =>
    rw [List.length_append] at hw
    cases item with
    | report d => exact ih (by omega)
    | token t =>
      refine .cons ?_ (ih (by omega))
      intro u hu
      have := fits.token_span
      have := behind.inside (by omega) hu
      omega
  | remark ends =>
    obtain ⟨t, htok, -⟩ := ends.token_span hw
    rw [htok]
    exact List.pairwise_singleton _ _

theorem Laid.comment_last {t : Token} (h : Laid line width pos cs items)
    (hw : pos + cs.length ≤ width) (ht : t ∈ (items.filterMap Item.token?).dropLast) :
    ¬ t.IsComment := by
  induction h with
  | done pos => cases ht
  | blank gap behind ih => exact ih (by simp at hw; omega) ht
  | @piece pos taken cs item items fits behind ih =>
    rw [List.length_append] at hw
    cases item with
    | report d => exact ih (by omega) ht
    | token u =>
      change t ∈ (u :: items.filterMap Item.token?).dropLast at ht
      rw [List.dropLast_cons_of_ne_nil] at ht
      · rcases List.mem_cons.mp ht with rfl | ht
        · exact fits.token_span.2.2.2.2
        · exact ih (by omega) ht
      · intro hnil
        rw [hnil] at ht
        cases ht
  | remark ends =>
    obtain ⟨u, htok, -⟩ := ends.token_span hw
    rw [htok] at ht
    cases ht

/-- Behind a part of the line comes what follows it. -/
theorem drop_behind {L post : List Char} (h : L.drop pos = taken ++ cs ++ post) :
    L.drop (pos + taken.length) = cs ++ post := by
  rw [← List.drop_drop, h, List.append_assoc, List.drop_left]

theorem length_le_of_drop {L post : List Char} (h : L.drop pos = cs ++ post)
    (hpos : pos ≤ L.length) : pos + cs.length ≤ L.length := by
  have hlength := congrArg List.length h
  rw [List.length_drop, List.length_append] at hlength
  omega

theorem Laid.spells {t : Token} {L post : List Char} (h : Laid line L.length pos cs items)
    (hL : L.drop pos = cs ++ post) (hp : ∀ c ∈ post, isBlank c = true)
    (ht : t ∈ items.filterMap Item.token?) : t.Spells L := by
  induction h with
  | done pos => cases ht
  | @blank pos c cs items gap behind ih =>
    exact ih (drop_behind (show L.drop pos = [c] ++ cs ++ post from hL)) ht
  | @piece pos taken cs item items fits behind ih =>
    cases item with
    | report d => exact ih (drop_behind hL) ht
    | token u =>
      rcases List.mem_cons.mp ht with rfl | ht
      · exact fits.spells (hL.trans (List.append_assoc _ _ _))
      · exact ih (drop_behind hL) ht
  | remark ends => exact ends.spells hL hp rfl ht

/-- Nothing behind a comment is marked. -/
theorem Laid.marks_behind_comment {i : Nat} {t : Token} (h : Laid line width pos cs items)
    (hw : pos + cs.length ≤ width) (ht : t ∈ items.filterMap Item.token?) (hc : t.IsComment)
    (hi : t.stop ≤ i) : items.countP (Item.marks i) = 0 := by
  induction h with
  | done pos => rfl
  | blank gap behind ih => exact ih (by simp at hw; omega) ht
  | @piece pos taken cs item items fits behind ih =>
    rw [List.length_append] at hw
    have hin : t ∈ items.filterMap Item.token? := by
      cases item with
      | report d => exact ht
      | token u =>
        rcases List.mem_cons.mp ht with rfl | ht
        · exact absurd hc fits.token_span.2.2.2.2
        · exact ht
    have := behind.inside (by omega) hin
    rw [List.countP_cons_of_neg, ih (by omega) hin]
    rw [fits.marks, decide_eq_true_eq]
    omega
  | remark ends =>
    obtain ⟨u, htok, -, -, -, -, -, hcount⟩ := ends.token_span hw
    rw [htok] at ht
    cases List.mem_singleton.mp ht
    rw [hcount, List.countP_eq_zero]
    intro v hv hcov
    cases List.mem_singleton.mp hv
    have := Token.covers_iff.mp hcov
    omega

/-- Each character that is no blank is marked once, unless it is dropped behind a closed comment. -/
theorem Laid.marks_once {i : Nat} {c : Char} {L post : List Char}
    (h : Laid line L.length pos cs items) (hL : L.drop pos = cs ++ post)
    (hp : ∀ c ∈ post, isBlank c = true) (hpos : pos ≤ i)
    (hc : L[i]? = some c) (hs : isBlank c = false)
    (hd : ¬ Dropped (items.filterMap Item.token?) L i) : items.countP (Item.marks i) = 1 := by
  have hbelow : i < L.length := (List.getElem?_eq_some_iff.mp hc).1
  induction h with
  | done pos =>
    have hmem : c ∈ L.drop pos := by
      apply List.mem_of_getElem? (i := i - pos)
      rw [List.getElem?_drop, Nat.add_sub_cancel' hpos]
      exact hc
    rw [hL] at hmem
    rw [hp c hmem] at hs
    cases hs
  | @blank pos d cs items gap behind ih =>
    have hne : pos ≠ i := by
      rintro rfl
      have hd' : L[pos]? = some d := by
        rw [← Nat.add_zero pos, ← List.getElem?_drop, hL]
        rfl
      rw [hd'] at hc
      cases hc
      rw [gap] at hs
      cases hs
    exact ih (drop_behind (show L.drop pos = [d] ++ cs ++ post from hL)) (by omega) hd
  | @piece pos taken cs item items fits behind ih =>
    have hw := length_le_of_drop hL (by omega)
    rw [List.length_append, ← Nat.add_assoc] at hw
    by_cases hin : i < pos + taken.length
    · rw [List.countP_cons_of_pos (by rw [fits.marks, decide_eq_true_eq]; exact ⟨hpos, hin⟩),
        behind.marks_before hw hin]
    · rw [List.countP_cons_of_neg (by rw [fits.marks, decide_eq_true_eq]; omega)]
      apply ih (drop_behind hL) (by omega)
      rintro ⟨t, ht, hdrop⟩
      apply hd
      cases item with
      | report d => exact ⟨t, ht, hdrop⟩
      | token u => exact ⟨t, List.mem_cons_of_mem u ht, hdrop⟩
  | @remark pos cs items ends =>
    have hw := length_le_of_drop hL (by omega)
    obtain ⟨t, htok, -, hstart, -, -, hcom, hcount⟩ := ends.token_span hw
    have ht : t ∈ items.filterMap Item.token? := by rw [htok]; exact List.mem_singleton_self t
    have hstop : i < t.stop := by
      by_contra hge
      obtain ⟨rest, rfl⟩ := ends.parenthesis ht (by omega)
      apply hd
      refine ⟨t, ht, hcom, ?_, by omega⟩
      have hnat : t.start.toNat = pos + 0 := by omega
      rw [hnat, ← List.getElem?_drop, hL]
      rfl
    rw [hcount, List.countP_singleton, if_pos (Token.covers_iff.mpr ⟨by omega, hstop⟩)]

/-- The tokens of a line and the reports on the characters that make up none account for the
line. -/
theorem scanLine_lossless (line : Nat) (cs : List Char) :
    Lossless line cs ((scanLine line cs).filterMap Item.token?)
      (((scanLine line cs).filterMap Item.report?).filter Diagnostic.isLexical) := by
  obtain ⟨pre, post, hcs, hpre, hblank, hblank'⟩ := trim_split cs
  have hlaid : Laid line cs.length pre.length (trim cs) (scanLine line cs) := by
    rw [hpre]
    exact scanFrom_laid line cs.length _ (trim cs)
  have hdrop : cs.drop pre.length = trim cs ++ post := by
    conv => lhs; rw [hcs]
    rw [List.append_assoc, List.drop_left]
  have hw : pre.length + (trim cs).length ≤ cs.length := by
    conv => rhs; rw [hcs]
    simp
  refine ⟨?_, hlaid.apart hw, fun t ht => hlaid.spells hdrop hblank' ht, ?_, ?_,
    fun t ht => hlaid.comment_last hw ht⟩
  · intro t ht
    have := hlaid.inside hw ht
    omega
  · intro i c hc hs hd
    rw [countP_marks]
    refine hlaid.marks_once hdrop hblank' ?_ hc hs hd
    by_contra hlt
    have hmem : pre[i]? = some c := by
      rw [hcs, List.append_assoc, List.getElem?_append_left (by omega)] at hc
      exact hc
    rw [hblank c (List.mem_of_getElem? hmem)] at hs
    cases hs
  · rintro i ⟨t, ht, hcom, -, hi⟩
    rw [countP_marks]
    exact hlaid.marks_behind_comment hw ht hcom hi

end Token
end Machining
