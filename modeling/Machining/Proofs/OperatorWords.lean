import Machining.Proofs.Brackets
import Machining.Proofs.Substitution

namespace Machining.Expression
open Machining.Text

variable {c : Char} {cs rest w : List Char} {p : Place} {op : Operator}

theorem mapWordsFrom_append (f : List Char → List Char) (word : List Char)
    (hc : isWordChar c = false) :
    mapWordsFrom f word (cs ++ c :: rest) = mapWordsFrom f word cs ++
      c :: mapWordsFrom f [] rest := by
  induction cs generalizing word with
  | nil => simp [mapWordsFrom, hc]
  | cons d cs ih =>
    rw [List.cons_append, mapWordsFrom, mapWordsFrom]
    split
    · exact ih (d :: word)
    · rw [ih [], List.append_assoc, List.cons_append]

theorem replaceOperators_append (hc : isWordChar c = false) :
    replaceOperators (cs ++ c :: rest) = replaceOperators cs ++ c :: replaceOperators rest := by
  unfold replaceOperators
  generalize Operator.all = ops
  induction ops generalizing cs rest with
  | nil => rfl
  | cons op ops ih =>
    have hstep : op.substitute (cs ++ c :: rest) = op.substitute cs ++ c :: op.substitute rest :=
      mapWordsFrom_append _ _ hc
    rw [List.foldl_cons, hstep, ih]
    rfl

theorem not_mem_mapWordsFrom {f : List Char → List Char} (hf : ∀ w, c ∉ w → c ∉ f w)
    (word : List Char) (hword : c ∉ word) (hcs : c ∉ cs) : c ∉ mapWordsFrom f word cs := by
  have hrun {word : List Char} (hword : c ∉ word) : c ∉ if word.isEmpty then []
      else f word.reverse := by
    split
    · simp
    · apply hf
      simpa using hword
  induction cs generalizing word with
  | nil => exact hrun hword
  | cons d cs ih =>
    simp only [List.mem_cons, not_or] at hcs
    rw [mapWordsFrom]
    split
    · exact ih (d :: word) (by simp [hcs.1, hword]) hcs.2
    · rw [List.mem_append, List.mem_cons, not_or, not_or]
      exact ⟨hrun hword, hcs.1, ih [] (by simp) hcs.2⟩

/-- Replacing operators brings in no character but those of their symbols. -/
theorem not_mem_replaceOperators (hsymbols : ∀ op : Operator, c ∉ op.symbol.toList) (hcs : c ∉ cs) :
    c ∉ replaceOperators cs := by
  unfold replaceOperators
  generalize Operator.all = ops
  induction ops generalizing cs with
  | nil => exact hcs
  | cons op ops ih =>
    apply ih
    refine not_mem_mapWordsFrom (fun w hw => ?_) [] (by simp) hcs
    unfold Operator.replaceWord
    split
    · exact hsymbols op
    · exact hw

/-- A letter is one in small and in capital. -/
theorem isAlpha_of_toUpper (h : c.toUpper.isUpper = true) : c.isAlpha = true := by
  by_cases hlower : c.isLower = true
  · simp [Char.isAlpha, hlower]
  · have hsame : c.toUpper = c := by
      simp only [Char.isLower, Bool.and_eq_true, decide_eq_true_eq] at hlower
      unfold Char.toUpper
      rw [dif_neg hlower]
    rw [hsame] at h
    simp [Char.isAlpha, h]

theorem isAlpha_of_word (h : w.map Char.toUpper = op.word.toList) : ∀ c ∈ w, c.isAlpha = true := by
  intro c hc
  apply isAlpha_of_toUpper
  have hall : op.word.toList.all Char.isUpper = true := by cases op <;> decide
  rw [← h] at hall
  exact List.all_eq_true.mp hall _ (List.mem_map_of_mem hc)

/-- Latin letters make up words and names. -/
theorem letter_spec (h : c.isAlpha = true) :
    isWordChar c = true ∧ isNameStart c = true ∧ isNamePart c = true ∧ isWordLike c = true ∧
    c.isDigit = false := by
  have hsmall : c.toNat < 128 := by
    simp only [Char.isAlpha, Char.isUpper, Char.isLower, Bool.or_eq_true, Bool.and_eq_true,
      decide_eq_true_eq] at h
    rcases h with h | h
    · exact lt_of_le_of_lt (UInt32.le_iff_toNat_le.mp h.2) (by decide)
    · exact lt_of_le_of_lt (UInt32.le_iff_toNat_le.mp h.2) (by decide)
  have := ascii_forall
    (p := fun c => !c.isAlpha ||
      (isWordChar c && (isNameStart c && (isNamePart c && (isWordLike c && !c.isDigit)))))
    (by decide +kernel) hsmall
  simpa [h] using this

theorem mapWordsFrom_word (f : List Char → List Char) (word : List Char)
    (hw : ∀ c ∈ w, isWordChar c = true) (hne : word ≠ [] ∨ w ≠ []) :
    mapWordsFrom f word w = f (word.reverse ++ w) := by
  induction w generalizing word with
  | nil =>
    have hword : word ≠ [] := by simpa using hne
    simp [mapWordsFrom, hword]
  | cons c w ih =>
    obtain ⟨hc, hw⟩ := List.forall_mem_cons.mp hw
    rw [mapWordsFrom, if_pos hc, ih (c :: word) hw (by simp)]
    simp

/-- An operator in either case gives way to its symbol. -/
theorem replaceOperators_word (h : w.map Char.toUpper = op.word.toList) :
    replaceOperators w = op.symbol.toList := by
  have hne : w ≠ [] := by
    rintro rfl
    cases op <;> cases h
  have hstep (op' : Operator) : op'.substitute w = op'.replaceWord w :=
    mapWordsFrom_word _ _ (fun c hc => (letter_spec (isAlpha_of_word h c hc)).1) (.inr hne)
  have hother (op' : Operator) (hop : op.word.toList ≠ op'.word.toList) : op'.substitute w = w := by
    rw [hstep, Operator.replaceWord, h, if_neg hop]
  have hsame : op.substitute w = op.symbol.toList := by
    rw [hstep, Operator.replaceWord, h, if_pos rfl]
  unfold replaceOperators Operator.all
  cases op <;> simp (disch := decide) only [List.foldl_cons, List.foldl_nil, hother,
    hsame] <;> decide

def OneLine (cs : List Char) : Prop :=
  ∀ c ∈ cs, c ∉ ['#', '\n', '\r', '\\'] ∧ c.toNat ≠ 0x22 ∧ c.toNat ≠ 0x27

theorem ends_blank (rest : List Char) : Ends (' ' :: rest) := by
  rintro c ⟨⟩
  decide

/-- Letters belong to a quoted text only if a quotation mark follows them. -/
theorem quoteMarks_none (h : ∀ q ∈ (cs.dropWhile Char.isAlpha).head?,
    q.toNat ≠ 0x22 ∧ q.toNat ≠ 0x27) :
    quoteMarks cs = none := by
  have hdrop : cs.drop (cs.takeWhile Char.isAlpha).length = cs.dropWhile Char.isAlpha := by
    nth_rewrite 2 [← List.takeWhile_append_dropWhile (p := Char.isAlpha) (l := cs)]
    rw [List.drop_left]
  unfold quoteMarks
  simp only [hdrop]
  split
  · rename_i q tail heq
    obtain ⟨hdouble, hsingle⟩ := h q (by rw [heq]; rfl)
    simp [hdouble, hsingle]
  · rfl

theorem quoteMarks_oneLine (h : OneLine cs) (rest : List Char) :
    quoteMarks cs = none ∧ quoteMarks (cs ++ ' ' :: rest) = none := by
  have hcs : ∀ q ∈ (cs.dropWhile Char.isAlpha).head?, q.toNat ≠ 0x22 ∧ q.toNat ≠ 0x27 := by
    intro q hq
    exact (h q ((List.dropWhile_suffix _).subset (List.mem_of_mem_head? hq))).2
  refine ⟨quoteMarks_none hcs, quoteMarks_none ?_⟩
  intro q hq
  rw [List.dropWhile_append] at hq
  split at hq
  · rw [List.dropWhile_cons_of_neg (by decide)] at hq
    obtain rfl := Option.some.inj hq
    decide
  · rename_i hne
    rw [List.head?_append_of_ne_nil _ (by simpa using hne)] at hq
    exact hcs q hq

theorem startsNumeral_append_eq (h : Ends rest) :
    startsNumeral (cs ++ rest) = startsNumeral cs := by
  cases cs with
  | nil =>
    cases rest with
    | nil => rfl
    | cons c rest =>
      obtain ⟨hword, hpoint⟩ := h c rfl
      unfold startsNumeral
      split
      · rename_i heq
        exact absurd (List.cons.inj heq).1 hpoint
      · exact isDigit_of_isAlphanum (isAlphanum_of_isWordLike hword).2
  | cons c cs =>
    by_cases hpoint : c = '.'
    · rw [hpoint]
      exact startsDigit_append h
    · unfold startsNumeral
      split
      · rename_i heq
        exact absurd (List.cons.inj heq).1 hpoint
      · split
        · rename_i heq
          exact absurd (List.cons.inj heq).1 hpoint
        · rfl

theorem takeWhile_blank {q : Char → Bool} (hq : q ' ' = false) :
    (cs ++ ' ' :: rest).takeWhile q = cs.takeWhile q := by
  induction cs with
  | nil => simp [hq]
  | cons c cs ih =>
    rw [List.cons_append, List.takeWhile_cons, List.takeWhile_cons, ih]

theorem isPrefixOf_blank {word : List Char} (hword : ' ' ∉ word) :
    word.isPrefixOf (cs ++ ' ' :: rest) = word.isPrefixOf cs := by
  induction word generalizing cs with
  | nil => rfl
  | cons w word ih =>
    simp only [List.mem_cons, not_or] at hword
    cases cs with
    | nil => simp [List.isPrefixOf, Ne.symm hword.1]
    | cons c cs => simp [List.isPrefixOf, ih hword.2]

theorem symbolAt_blank : symbolAt p (c :: cs ++ ' ' :: rest) = symbolAt p (c :: cs) := by
  have hfind : symbols.find? (fun s => s.toList.isPrefixOf (c :: cs ++ ' ' :: rest)) =
      symbols.find? fun s => s.toList.isPrefixOf (c :: cs) := by
    have hall : symbols.all (fun s => !s.toList.contains ' ') = true := by decide
    refine List.find?_congr fun s hs => isPrefixOf_blank ?_
    have := List.all_eq_true.mp hall s hs
    simpa using this
  unfold symbolAt
  rw [hfind]
  rfl

/-- The lexeme at the head of a line does not depend on what stands behind the next blank. -/
theorem lexemeAt_blank (h : OneLine (c :: cs)) :
    lexemeAt p (c :: cs ++ ' ' :: rest) = lexemeAt p (c :: cs) := by
  obtain ⟨hmarks, hmarks'⟩ := quoteMarks_oneLine h rest
  rw [lexemeAt, lexemeAt, hmarks, hmarks', startsNumeral_append_eq (ends_blank rest),
    numeral_append_eq (ends_blank rest) rfl, takeWhile_blank (by decide), symbolAt_blank]

theorem lexemesFrom_broken {complaint : Complaint}
    (hc : isSpacing c = false ∧ c ≠ '#' ∧ c ≠ '\n' ∧ c ≠ '\\')
    (h : lexemeAt p (c :: cs) = .error complaint) (fuel : Nat) :
    lexemesFrom (fuel + 1) p (c :: cs) = [p.put (.broken complaint)] := by
  obtain ⟨hspace, hhash, hline, hback⟩ := hc
  conv_lhs => unfold lexemesFrom
  simp only [hspace, Bool.false_eq_true, if_false, hhash, hline, hback, h]

theorem lexemesFrom_found {found : Found} (hc : isSpacing c = false ∧ c ≠ '#' ∧ c ≠ '\n' ∧ c ≠ '\\')
    (h : lexemeAt p (c :: cs) = .ok found) (hrest : cs.drop (found.size - 1) ≠ []) (fuel : Nat) :
    lexemesFrom (fuel + 1) p (c :: cs) =
      ⟨found.lexeme, p.line, found.behind.depth⟩ :: lexemesFrom fuel found.behind
        (cs.drop (found.size - 1)) := by
  obtain ⟨hspace, hhash, hline, hback⟩ := hc
  conv_lhs => unfold lexemesFrom
  simp only [hspace, Bool.false_eq_true, if_false, hhash, hline, hback, h, List.isEmpty_iff, hrest]

theorem lexemesFrom_space (hc : isSpacing c = true) (fuel : Nat) (cs : List Char) :
    lexemesFrom (fuel + 1) p (c :: cs) = lexemesFrom fuel p cs := by
  have hgap : Gap [c] := by simpa [Gap] using hc
  exact lexemesFrom_gap hgap

/-- Up to a blank the lexemes are the same whatever comes behind it, unless the text cannot be read
so far. -/
theorem lexemesFrom_blank (h : OneLine cs) :
    (∃ used q n, n ≤ cs.length ∧ (∀ l ∈ used, l.lexeme.Inner) ∧
      ∀ fuel rest, lexemesFrom (fuel + n + 1) p (cs ++ ' ' :: rest) =
        used ++ lexemesFrom fuel q rest) ∨
    ∀ fuel rest, ∀ l ∈ lexemesFrom (fuel + cs.length + 1) p (cs ++ ' ' :: rest),
      l.lexeme ≠ .finish := by
  induction hlength : cs.length using Nat.strong_induction_on generalizing cs p with
  | _ length ih =>
    cases cs with
    | nil =>
      exact .inl ⟨[], p, 0, Nat.zero_le _, by simp,
        fun fuel rest => lexemesFrom_space (by decide) fuel rest⟩
    | cons c cs =>
      obtain ⟨hc, htail⟩ := List.forall_mem_cons.mp h
      simp only [List.mem_cons, List.not_mem_nil, or_false, not_or] at hc
      rw [List.length_cons] at hlength
      cases hgap : isSpacing c with
      | true =>
        rcases ih cs.length (by omega) (p := p) htail rfl with ⟨used, q, n, hn, hused,
          hread⟩ | hnone
        · refine .inl ⟨used, q, n + 1, by omega, hused, fun fuel rest => ?_⟩
          exact (lexemesFrom_space hgap _ _).trans (hread fuel rest)
        · right
          intro fuel rest
          rw [← hlength, ← Nat.add_assoc, List.cons_append, lexemesFrom_space hgap]
          exact hnone fuel rest
      | false =>
        have hsolid : isSpacing c = false ∧ c ≠ '#' ∧ c ≠ '\n' ∧ c ≠ '\\' :=
          ⟨hgap, hc.1.1, hc.1.2.1, hc.1.2.2.2⟩
        have hat (rest : List Char) :
            lexemeAt p (c :: (cs ++ ' ' :: rest)) = lexemeAt p (c :: cs) := lexemeAt_blank h
        cases hfound : lexemeAt p (c :: cs) with
        | error complaint =>
          right
          intro fuel rest
          rw [List.cons_append, lexemesFrom_broken hsolid ((hat rest).trans hfound)]
          simp [Place.put]
        | ok found =>
          have hwithin := lexemeAt_unquoted (quoteMarks_oneLine h []).1 hfound
          have hsize : found.size - 1 ≤ cs.length := Nat.sub_le_iff_le_add.mpr hwithin.size
          have hdrop (rest : List Char) :
              (cs ++ ' ' :: rest).drop (found.size - 1) = cs.drop (found.size - 1) ++ ' ' :: rest :=
            List.drop_append_of_le_length hsize
          have hstep (fuel : Nat) (rest : List Char) :
              lexemesFrom (fuel + 1) p (c :: cs ++ ' ' :: rest) =
              ⟨found.lexeme, p.line, found.behind.depth⟩ ::
                lexemesFrom fuel found.behind (cs.drop (found.size - 1) ++ ' ' :: rest) := by
            rw [List.cons_append, lexemesFrom_found hsolid ((hat rest).trans hfound)
              (by rw [hdrop]; simp), hdrop]
          have hshort : (cs.drop (found.size - 1)).length ≤ cs.length := by
            rw [List.length_drop]
            omega
          have hline : OneLine (cs.drop (found.size - 1)) :=
            fun d hd => htail d (List.mem_of_mem_drop hd)
          rcases ih _ (by omega) (p := found.behind) hline rfl with ⟨used, q, n, hn, hused,
            hread⟩ | hnone
          · refine .inl ⟨⟨found.lexeme, p.line, found.behind.depth⟩ :: used, q, n + 1,
              by omega, ?_, ?_⟩
            · exact List.forall_mem_cons.mpr ⟨hwithin.inner, hused⟩
            · intro fuel rest
              rw [← Nat.add_assoc, hstep, hread]
              rfl
          · right
            intro fuel rest
            have hfuel : fuel + length + 1 =
                fuel + (cs.length - (cs.drop (found.size - 1)).length) +
                  (cs.drop (found.size - 1)).length + 1 + 1 := by
              omega
            rw [hfuel, hstep]
            exact List.forall_mem_cons.mpr ⟨hwithin.inner.1, hnone _ rest⟩

theorem lexemeAt_word (hw : ∀ c ∈ w, c.isAlpha = true) (hne : w ≠ []) :
    lexemeAt p w = .ok ⟨.name (String.ofList w), w.length, p⟩ := by
  obtain ⟨c, cs, rfl⟩ := List.exists_cons_of_ne_nil hne
  obtain ⟨hc, hcs⟩ := List.forall_mem_cons.mp hw
  obtain ⟨-, hstart, -, -, hdigit⟩ := letter_spec hc
  have hmarks : quoteMarks (c :: cs) = none := by
    apply quoteMarks_none
    rw [List.dropWhile_eq_nil_iff.mpr hw]
    simp
  have hnumeral : startsNumeral (c :: cs) = false := by
    unfold startsNumeral
    split
    · rename_i heq
      rw [(List.cons.inj heq).1] at hc
      cases hc
    · exact hdigit
  have hrun : (c :: cs).takeWhile isWordLike = c :: cs := by
    rw [List.takeWhile_eq_self_iff]
    intro d hd
    exact (letter_spec (hw d hd)).2.2.2.1
  have hstrange : strange? (c :: cs) = none := by
    rw [strange?, if_pos hstart, List.find?_eq_none]
    intro d hd
    simpa using (letter_spec (hcs d hd)).2.2.1
  rw [lexemeAt, hmarks]
  simp only [hnumeral, Bool.false_eq_true, if_false, hrun, List.isEmpty_cons, hstrange]

def Operator.lexeme : Operator → Lexeme
  | .and => .name "and"
  | .or => .name "or"
  | op => .symbol op.symbol

/-- An operator stands behind an operand. -/
theorem Operator.ended_of_fits {ended : Bool} (h : op.lexeme.Fits ended) : ended = true := by
  cases op <;> simpa [Operator.lexeme, Lexeme.Fits, Operator.symbol] using h

theorem lexemeAt_symbol (hop : op ≠ .and ∧ op ≠ .or) :
    lexemeAt p op.symbol.toList = .ok ⟨.symbol op.symbol, op.symbol.toList.length, p⟩ := by
  have hprint : ['>', '<', '^', '%'].all isPrintable = true := by decide +kernel
  have hsingle (c : Char) (hc : c ∈ ['>', '<', '^', '%'])
      (hlexeme : lexemeAt p [c] = symbolAt p [c])
      (hfind : symbols.find? (fun s => s.toList.isPrefixOf [c]) = none)
      (hplain : bracketed p c = .ok p) :
      lexemeAt p [c] = .ok ⟨.symbol c.toString, 1, p⟩ := by
    rw [hlexeme, symbolAt_single hfind (List.all_eq_true.mp hprint c hc), hplain]
    rfl
  cases op with
  | and => exact absurd rfl hop.1
  | or => exact absurd rfl hop.2
  | gt => exact hsingle '>' (by simp) rfl rfl rfl
  | lt => exact hsingle '<' (by simp) rfl rfl rfl
  | xor => exact hsingle '^' (by simp) rfl rfl rfl
  | mod => exact hsingle '%' (by simp) rfl rfl rfl
  | eq | ne | ge | le => rfl

/-- A text before a blank that is one lexeme. -/
theorem lexemesFrom_token {l : Lexeme} (hline : OneLine (c :: cs)) (hc : isSpacing c = false)
    (h : lexemeAt p (c :: cs) = .ok ⟨l, (c :: cs).length, p⟩) (fuel : Nat) (rest : List Char) :
    lexemesFrom (fuel + 1) p (c :: cs ++ ' ' :: rest) =
      p.put l :: lexemesFrom fuel p (' ' :: rest) := by
  have hat : lexemeAt p (c :: (cs ++ ' ' :: rest)) = .ok ⟨l, (c :: cs).length, p⟩ :=
    (lexemeAt_blank hline).trans h
  have hdrop : (cs ++ ' ' :: rest).drop ((c :: cs).length - 1) = ' ' :: rest := by
    rw [List.length_cons, Nat.add_sub_cancel, List.drop_left]
  obtain ⟨hhead, -⟩ := hline c List.mem_cons_self
  simp only [List.mem_cons, List.not_mem_nil, or_false, not_or] at hhead
  rw [List.cons_append, lexemesFrom_found ⟨hc, hhead.1, hhead.2.1,
    hhead.2.2.2⟩ hat (by rw [hdrop]; simp), hdrop]
  rfl

theorem oneLine_of_isAlpha (hw : ∀ c ∈ w, c.isAlpha = true) :
    OneLine w ∧ ∀ c ∈ w, isSpacing c = false := by
  have hne {c d : Char} (hc : c.isAlpha = true) (hd : d.isAlpha = false) : c ≠ d := by
    rintro rfl
    rw [hc] at hd
    cases hd
  have hcode {c : Char} {n : Nat} (hc : c.isAlpha = true) (hn : (Char.ofNat n).isAlpha = false) :
      c.toNat ≠ n := by
    rintro rfl
    rw [Char.ofNat_toNat, hc] at hn
    cases hn
  constructor
  · intro c hc
    have halpha := hw c hc
    refine ⟨?_, hcode halpha (by decide), hcode halpha (by decide)⟩
    simp only [List.mem_cons, List.not_mem_nil, or_false, not_or]
    exact ⟨hne halpha (by decide), hne halpha (by decide), hne halpha (by decide),
      hne halpha (by decide)⟩
  · intro c hc
    rw [Bool.eq_false_iff]
    intro hspace
    have halpha := hw c hc
    rcases isSpacing_cases hspace with rfl | rfl | rfl <;> cases halpha

theorem lexemesFrom_word (hw : ∀ c ∈ w, c.isAlpha = true) (hne : w ≠ []) (fuel : Nat)
    (rest : List Char) :
    lexemesFrom (fuel + 1) p (w ++ ' ' :: rest) = p.put (.name (String.ofList w)) :: lexemesFrom
      fuel p (' ' :: rest) := by
  obtain ⟨hline, hspace⟩ := oneLine_of_isAlpha hw
  obtain ⟨c, cs, rfl⟩ := List.exists_cons_of_ne_nil hne
  exact lexemesFrom_token hline (hspace c List.mem_cons_self) (lexemeAt_word hw hne) fuel rest

/-- The symbol of an operator before a blank is read as that operator. -/
theorem lexemesFrom_operator (op : Operator) (fuel : Nat) (rest : List Char) :
    ∃ more, lexemesFrom (fuel + 2) p (op.symbol.toList ++ ' ' :: rest) =
      p.put op.lexeme :: more := by
  have hword (w : List Char) (hw : w.all Char.isAlpha = true) (hne : w ≠ []) :
      lexemesFrom (fuel + 2) p (' ' :: (w ++ ' ' :: ' ' :: rest)) =
        p.put (.name (String.ofList w)) :: lexemesFrom fuel p (' ' :: ' ' :: rest) := by
    rw [lexemesFrom_space (by decide), lexemesFrom_word (List.all_eq_true.mp hw) hne]
  have hsymbol (hop : op ≠ .and ∧ op ≠ .or) (c : Char) (cs : List Char)
      (htext : op.symbol.toList = c :: cs)
      (hline : OneLine (c :: cs)) (hc : isSpacing c = false) :
      ∃ more, lexemesFrom (fuel + 2) p (op.symbol.toList ++ ' ' :: rest) =
        p.put (.symbol op.symbol) :: more := by
    have hat := lexemeAt_symbol (p := p) hop
    rw [htext] at hat ⊢
    exact ⟨_, lexemesFrom_token hline hc hat (fuel + 1) rest⟩
  cases op with
  | and => exact ⟨_, hword ['a', 'n', 'd'] (by decide) (by simp)⟩
  | or => exact ⟨_, hword ['o', 'r'] (by decide) (by simp)⟩
  | eq => exact hsymbol (by decide) '=' ['='] rfl (by simp [OneLine]) (by decide)
  | ne => exact hsymbol (by decide) '!' ['='] rfl (by simp [OneLine]) (by decide)
  | gt => exact hsymbol (by decide) '>' [] rfl (by simp [OneLine]) (by decide)
  | ge => exact hsymbol (by decide) '>' ['='] rfl (by simp [OneLine]) (by decide)
  | lt => exact hsymbol (by decide) '<' [] rfl (by simp [OneLine]) (by decide)
  | le => exact hsymbol (by decide) '<' ['='] rfl (by simp [OneLine]) (by decide)
  | xor => exact hsymbol (by decide) '^' [] rfl (by simp [OneLine]) (by decide)
  | mod => exact hsymbol (by decide) '%' [] rfl (by simp [OneLine]) (by decide)

/-- A text with an operator that is spelled as a word and has blanks around it, the first of its
operators. Small `and` and `or` are operators as they stand. -/
structure WordBetween (before : List Char) (op : Operator) (word behind cs : List Char) : Prop where
  split : cs = before ++ ' ' :: (word ++ ' ' :: behind)
  solid : ∃ c tail, before = c :: tail ∧ isSpacing c = false
  line : OneLine before
  first : replaceOperators before = before
  spelled : word.map Char.toUpper = op.word.toList
  other : word ≠ ['a', 'n', 'd'] ∧ word ≠ ['o', 'r']

variable {before word behind : List Char}

/-- The text with its operators replaced. -/
theorem WordBetween.replaced (h : WordBetween before op word behind cs) :
    replaceOperators cs = before ++
      ' ' :: (op.symbol.toList ++ ' ' :: replaceOperators behind) := by
  have hblank : isWordChar ' ' = false := by decide
  rw [h.split, replaceOperators_append hblank, replaceOperators_append hblank, h.first,
    replaceOperators_word h.spelled]

theorem unifyLineEnds_blank (hcs : '\r' ∉ cs) (rest : List Char) :
    unifyLineEnds (cs ++ ' ' :: rest) = cs ++ ' ' :: unifyLineEnds rest := by
  rw [unifyLineEnds_append hcs]
  rfl

/-- Up to the blank before the word the lexemes do not depend on what follows, or there is no
reading the text. -/
theorem lexemes_before (hsolid : ∃ c tail, before = c :: tail ∧ isSpacing c = false)
    (hline : OneLine before) :
    (∃ used q, (∀ l ∈ used, l.lexeme.Inner) ∧ ∀ rest, ∃ fuel,
      lexemes (before ++ ' ' :: rest) = used ++ lexemesFrom (fuel + 2) q (unifyLineEnds rest)) ∨
    ∀ rest, ∀ l ∈ lexemes (before ++ ' ' :: rest), l.lexeme ≠ .finish := by
  obtain ⟨c, tail, rfl, hc⟩ := hsolid
  obtain ⟨hhead, htail⟩ := List.forall_mem_cons.mp hline
  simp only [List.mem_cons, List.not_mem_nil, or_false, not_or] at hhead
  have hlexemes (rest : List Char) : lexemes (c :: tail ++ ' ' :: rest) =
      lexemesFrom (2 * (tail.length + (unifyLineEnds rest).length + 2) + 1) ⟨1, [], []⟩
        (c :: tail ++ ' ' :: unifyLineEnds rest) := by
    have hreturn : '\r' ∉ tail := fun hmem => (htail _ hmem).1 (by simp)
    have hlength : (c :: (tail ++ ' ' :: unifyLineEnds rest)).length =
        tail.length + (unifyLineEnds rest).length + 2 := by
      simp only [List.length_cons, List.length_append]
      omega
    rw [List.cons_append, lexemes_head ⟨hc, hhead.1.1, hhead.1.2.1, hhead.1.2.2.2⟩ hhead.1.2.2.1,
      unifyLineEnds_blank hreturn, hlength]
    rfl
  rcases lexemesFrom_blank (p := ⟨1, [], []⟩) hline with ⟨used, q, n, hn, hused, hread⟩ | hnone
  · rw [List.length_cons] at hn
    refine .inl ⟨used, q, hused, fun rest => ?_⟩
    obtain ⟨fuel, hfuel⟩ :
      ∃ fuel, 2 * (tail.length + (unifyLineEnds rest).length + 2) + 1 = fuel + 2 + n + 1 :=
      ⟨2 * (tail.length + (unifyLineEnds rest).length + 2) - n - 2, by omega⟩
    exact ⟨fuel, by rw [hlexemes, hfuel, hread]⟩
  · right
    intro rest
    obtain ⟨fuel, hfuel⟩ : ∃ fuel,
        2 * (tail.length + (unifyLineEnds rest).length + 2) + 1 = fuel + (c :: tail).length + 1 :=
      ⟨tail.length + 2 * (unifyLineEnds rest).length + 3, by rw [List.length_cons]; omega⟩
    rw [hlexemes, hfuel]
    exact hnone fuel _

/-- What stands behind the lexemes before a blank fits there. -/
theorem fits_behind {t : Term} {used more : List Placed} {l : Lexeme} {q : Place}
    (h : Term.ofLexemes? ((used ++ q.put l :: more).map Placed.lexeme) = some t)
    (hused : ∀ l ∈ used, l.lexeme.Inner) (hl : l.Inner) :
    l.Fits (endedBy false (used.map Placed.lexeme)) := by
  rw [List.map_append, List.map_cons] at h
  refine fits_of_ofLexemes? h ?_ hl
  intro x hx
  obtain ⟨placed, hplaced, rfl⟩ := List.mem_map.mp hx
  exact hused placed hplaced

/-- A text with an operator between blanks writes no term as it stands, if it writes one with its
operators replaced. -/
theorem WordBetween.unreadable {t : Term} (h : WordBetween before op word behind cs)
    (hread : Term.ofChars (replaceOperators cs) = .ok t) : ∃ f, Term.ofChars cs = .error f := by
  have hterm := ofLexemes?_of_ofChars hread
  rw [h.replaced] at hterm
  cases hplain : Term.ofChars cs with
  | error f => exact ⟨f, rfl⟩
  | ok t' =>
    have hterm' := ofLexemes?_of_ofChars hplain
    rw [h.split] at hterm'
    exfalso
    rcases lexemes_before h.solid h.line with ⟨used, q, hused, hsplit⟩ | hnone
    · have halpha := isAlpha_of_word h.spelled
      have hne : word ≠ [] := by
        rintro rfl
        have hempty := h.spelled
        cases op <;> cases hempty
      have hword : '\r' ∉ word := fun hmem => ((oneLine_of_isAlpha halpha).1 _ hmem).1 (by simp)
      have hsymbol : '\r' ∉ op.symbol.toList := by cases op <;> decide
      obtain ⟨fuel, hlexemes⟩ := hsplit (op.symbol.toList ++ ' ' :: replaceOperators behind)
      obtain ⟨fuel', hlexemes'⟩ := hsplit (word ++ ' ' :: behind)
      obtain ⟨more, hmore⟩ :=
        lexemesFrom_operator (p := q) op fuel (unifyLineEnds (replaceOperators behind))
      rw [hlexemes, unifyLineEnds_blank hsymbol, hmore] at hterm
      rw [hlexemes', unifyLineEnds_blank hword, lexemesFrom_word halpha hne] at hterm'
      -- an operator is due here and the word is none
      have hended :=
        Operator.ended_of_fits (fits_behind hterm hused
          (by cases op <;> simp [Operator.lexeme, Lexeme.Inner]))
      have hfits := fits_behind hterm' hused ⟨Lexeme.noConfusion, Lexeme.noConfusion⟩
      rcases hfits.mp hended with hor | hand
      · exact h.other.2 (String.ofList_inj.mp hor)
      · exact h.other.1 (String.ofList_inj.mp hand)
    · obtain ⟨line, ends, more, ended, heq, -⟩ := leads_of_ofLexemes? hterm
      have hmem :
          .finish ∈ (lexemes (before ++
          ' ' :: (op.symbol.toList ++ ' ' :: replaceOperators behind))).map
          Placed.lexeme := by
        rw [heq]
        simp
      obtain ⟨l, hl, hfinish⟩ := List.mem_map.mp hmem
      exact hnone _ l hl hfinish

end Machining.Expression
