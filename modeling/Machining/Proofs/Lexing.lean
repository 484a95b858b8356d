import Machining.Expression.Evaluate
import Machining.Proofs.Literal

namespace Machining.Expression

inductive Mark where
  | opening | closing | plus | minus | times | slash | power
  deriving DecidableEq, Repr

namespace Mark

def symbol : Mark → String
  | opening => "("
  | closing => ")"
  | plus => "+"
  | minus => "-"
  | times => "*"
  | slash => "/"
  | power => "**"

def text : Mark → List Char
  | opening => ['(']
  | closing => [')']
  | plus => ['+']
  | minus => ['-']
  | times => ['*']
  | slash => ['/']
  | power => ['*', '*']

def wantsOperand (m : Mark) : Bool := m ≠ closing

def startsOperand (m : Mark) : Bool := m = opening || m = plus || m = minus

def behind (p : Place) : Mark → Except Complaint Place
  | opening => bracketed p '('
  | closing => bracketed p ')'
  | _ => .ok p

end Mark

inductive Element (α : Type) where
  | atom (a : α)
  | mark (m : Mark)

namespace Element
variable {α : Type}

def text (spell : α → List Char) : Element α → List Char
  | atom a => spell a
  | mark m => m.text

def lexeme : Element Literal → Lexeme
  | atom l => .numeral l.found.numeral
  | mark m => .symbol m.symbol

def behind (p : Place) : Element α → Except Complaint Place
  | atom _ => .ok p
  | mark m => m.behind p

/-- What may follow an element: an operand where one is due, and no operand behind another. -/
def Precedes : Element α → Element α → Prop
  | atom _, atom _ => False
  | mark m, mark n => m.wantsOperand = true → n.startsOperand = true
  | _, _ => True

end Element

def Gap (cs : List Char) : Prop := ∀ c ∈ cs, isSpacing c = true

inductive Spells {α : Type} (spell : α → List Char) : List (Element α) → List Char → Prop where
  | done {gap : List Char} (hgap : Gap gap) : Spells spell [] gap
  | element {gap : List Char} {p : Element α} {ps : List (Element α)} {cs : List Char}
      (hgap : Gap gap)
    (h : Spells spell ps cs) : Spells spell (p :: ps) (gap ++ (p.text spell ++ cs))

/-- Brackets pair up and nest within the limit, `k` of them being open already. -/
def Nests {α : Type} : Nat → List (Element α) → Prop
  | k, [] => k = 0
  | k, .mark .opening :: ps => k < bracketLimit ∧ Nests (k + 1) ps
  | 0, .mark .closing :: _ => False
  | k + 1, .mark .closing :: ps => Nests k ps
  | k, _ :: ps => Nests k ps

variable {cs rest : List Char} {c : Char} {fuel : Nat} {p : Place}

theorem quoteMarks_eq_none (halpha : c.isAlpha = false) (hquote : c.toNat ≠ 0x22 ∧ c.toNat ≠ 0x27) :
    quoteMarks (c :: cs) = none := by
  unfold quoteMarks
  simp [halpha, hquote.1, hquote.2]

theorem startsNumeral_append (h : startsNumeral cs = true) : startsNumeral (cs ++ rest) = true := by
  unfold startsNumeral at h
  split at h
  · rename_i cs
    cases cs with
    | nil => cases h
    | cons d cs => exact h
  · rename_i hpoint
    cases cs with
    | nil => cases h
    | cons d cs =>
      unfold startsNumeral
      rw [List.cons_append]
      split
      · rename_i heq
        obtain ⟨rfl, rfl⟩ := List.cons.inj heq
        exact absurd rfl (hpoint _)
      · exact h

/-- A numeral starts with a digit or a point. -/
theorem head_of_startsNumeral (h : startsNumeral cs = true) :
    ∃ c tail, cs = c :: tail ∧ (c = '.' ∨ c.isDigit = true) := by
  unfold startsNumeral at h
  split at h
  · rename_i tail
    exact ⟨'.', tail, rfl, .inl rfl⟩
  · cases cs with
    | nil => cases h
    | cons d cs => exact ⟨d, cs, rfl, .inr h⟩

def elementHeads : List Char :=
  ['.', '0', '1', '2', '3', '4', '5', '6', '7', '8', '9', '(', ')', '+', '-', '*', '/']

theorem elementHeads_plain :
    elementHeads.all (fun c => !isSpacing c && c != '#' && c != '\n' && c != '\\' &&
    !c.isAlpha && c.toNat != 0x22 && c.toNat != 0x27) = true := by decide +kernel

/-- No element starts with a space, a comment, a line end, a joined line, a letter or a quotation
mark. -/
theorem plain_of_head (hc : c ∈ elementHeads) :
    (isSpacing c = false ∧ c ≠ '#' ∧ c ≠ '\n' ∧ c ≠ '\\') ∧ c.isAlpha = false ∧ c.toNat ≠ 0x22 ∧
    c.toNat ≠ 0x27 := by
  have hplain := List.all_eq_true.mp elementHeads_plain c hc
  simpa only [Bool.and_eq_true, Bool.not_eq_true', bne_iff_ne, and_assoc] using hplain

theorem Literal.head (l : Literal) :
    ∃ c tail, l.text = c :: tail ∧ c ∈ elementHeads ∧ (c = '.' ∨ c.isDigit = true) := by
  obtain ⟨c, tail, htext, hc⟩ := head_of_startsNumeral l.starts
  refine ⟨c, tail, htext, ?_, hc⟩
  rcases hc with rfl | hdigit
  · exact List.mem_cons_self
  · have hall : numeralAlphabet.all (fun c => !c.isDigit || elementHeads.contains c) = true := by
      decide +kernel
    have := List.all_eq_true.mp hall c
      (mem_alphabet_of_numeral l.reads l.complete c (by simp [htext]))
    simpa [hdigit] using this

theorem quoteMarks_head (hc : c ∈ elementHeads) : quoteMarks (c :: cs) = none := by
  obtain ⟨-, halpha, hmarks⟩ := plain_of_head hc
  exact quoteMarks_eq_none halpha hmarks

theorem lexemeAt_literal (l : Literal) (p : Place) (hrest : Ends rest) :
    lexemeAt p (l.text ++ rest) = .ok ⟨.numeral l.found.numeral, l.text.length, p⟩ := by
  obtain ⟨c, tail, htext, hc, -⟩ := l.head
  have hmarks : quoteMarks (l.text ++ rest) = none := by
    rw [htext]
    exact quoteMarks_head hc
  rw [lexemeAt, hmarks]
  simp only [startsNumeral_append l.starts, if_true, numeral_append l.reads hrest, l.complete]

/-- No symbol of several characters starts here. -/
theorem symbolAt_single (hfind : symbols.find? (fun s => s.toList.isPrefixOf (c :: rest)) = none)
    (hprint : Text.isPrintable c = true) :
    symbolAt p (c :: rest) = (bracketed p c).map fun q => ⟨.symbol c.toString, 1, q⟩ := by
  rw [symbolAt, hfind]
  simp only [hprint, if_true]
  cases bracketed p c <;> rfl

theorem printable_marks : ['(', ')', '+', '-', '*', '/'].all Text.isPrintable = true := by
  decide +kernel

def Clear (rest : List Char) : Prop := ∀ c ∈ rest.head?, c ∉ ['=', '>', '*', '/']

theorem symbolAt_mark (m : Mark) (p : Place) (hrest : m.wantsOperand = true → Clear rest) :
    symbolAt p (m.text ++ rest) = (m.behind p).map fun q => ⟨.symbol m.symbol,
      m.text.length, q⟩ := by
  have hnext (hm : m.wantsOperand = true) {c : Char} {more : List Char} (h : rest = c :: more) :
      c ≠ '=' ∧ c ≠ '>' ∧ c ≠ '*' ∧ c ≠ '/' := by
    have := hrest hm c (by rw [h]; rfl)
    simpa using this
  have hprint := List.all_eq_true.mp printable_marks
  cases m with
  | opening => exact symbolAt_single (by cases rest <;> rfl) (hprint _ (by simp))
  | closing => exact symbolAt_single (by cases rest <;> rfl) (hprint _ (by simp))
  | plus =>
    refine symbolAt_single ?_ (hprint _ (by simp))
    cases rest with
    | nil => rfl
    | cons c rest => simp [symbols, List.isPrefixOf, (hnext rfl rfl).1.symm]
  | minus =>
    refine symbolAt_single ?_ (hprint _ (by simp))
    cases rest with
    | nil => rfl
    | cons c rest =>
      simp [symbols, List.isPrefixOf, (hnext rfl rfl).1.symm, (hnext rfl rfl).2.1.symm]
  | times =>
    refine symbolAt_single ?_ (hprint _ (by simp))
    cases rest with
    | nil => rfl
    | cons c rest =>
      simp [symbols, List.isPrefixOf, (hnext rfl rfl).1.symm, (hnext rfl rfl).2.2.1.symm]
  | slash =>
    refine symbolAt_single ?_ (hprint _ (by simp))
    cases rest with
    | nil => rfl
    | cons c rest =>
      simp [symbols, List.isPrefixOf, (hnext rfl rfl).1.symm, (hnext rfl rfl).2.2.2.symm]
  | power =>
    have hfind : symbols.find? (fun s => s.toList.isPrefixOf ('*' :: '*' :: rest)) = some "**" := by
      cases rest with
      | nil => rfl
      | cons c rest => simp [symbols, List.isPrefixOf, (hnext rfl rfl).1.symm]
    rw [Mark.text, List.cons_append, List.cons_append, List.nil_append, symbolAt, hfind]
    rfl

theorem Mark.head (m : Mark) :
    ∃ c tail, m.text = c :: tail ∧ c ∈ elementHeads ∧ c ≠ '.' ∧ isWordLike c = false ∧
      (m.startsOperand = true → c ∉ ['=', '>', '*', '/']) := by
  cases m <;> exact ⟨_, _, rfl, by decide, by decide, by decide, by decide⟩

theorem lexemeAt_mark (m : Mark) (p : Place) (hrest : m.wantsOperand = true → Clear rest) :
    lexemeAt p (m.text ++ rest) = (m.behind p).map fun q => ⟨.symbol m.symbol,
      m.text.length, q⟩ := by
  obtain ⟨c, tail, htext, hc, hpoint, hword, -⟩ := m.head
  have hdigit : c.isDigit = false := isDigit_of_isAlphanum (isAlphanum_of_isWordLike hword).2
  have hstarts : startsNumeral (c :: (tail ++ rest)) = false := by
    unfold startsNumeral
    split
    · rename_i heq
      exact absurd (List.cons.inj heq).1 hpoint
    · exact hdigit
  rw [← symbolAt_mark m p hrest, htext, List.cons_append, lexemeAt, quoteMarks_head hc, hstarts]
  simp [hword]

/-- What may stand behind an element for it to end there. -/
def Element.Follow : Element Literal → List Char → Prop
  | .atom _, rest => Ends rest
  | .mark m, rest => m.wantsOperand = true → Clear rest

theorem lexemeAt_element {q : Element Literal} (p : Place) (hrest : q.Follow rest) :
    lexemeAt p (q.text Literal.text ++ rest) =
      (q.behind p).map fun r => ⟨q.lexeme, (q.text Literal.text).length, r⟩ := by
  cases q with
  | atom l => exact lexemeAt_literal l p hrest
  | mark m => exact lexemeAt_mark m p hrest

theorem Element.head (q : Element Literal) :
    ∃ c tail, q.text Literal.text = c :: tail ∧ c ∈ elementHeads := by
  cases q with
  | atom l =>
    obtain ⟨c, tail, htext, hc, -⟩ := l.head
    exact ⟨c, tail, htext, hc⟩
  | mark m =>
    obtain ⟨c, tail, htext, hc, -⟩ := m.head
    exact ⟨c, tail, htext, hc⟩

theorem isSpacing_cases (h : isSpacing c = true) : c = ' ' ∨ c = '\t' ∨ c = Char.ofNat 0xC := by
  simp only [isSpacing, Bool.or_eq_true, decide_eq_true_eq] at h
  rcases h with (rfl | rfl) | h
  · exact .inl rfl
  · exact .inr (.inl rfl)
  · refine .inr (.inr ?_)
    rw [← h, Char.ofNat_toNat]

theorem isSpacing_ends (h : isSpacing c = true) :
    (isWordLike c = false ∧ c ≠ '.') ∧ c ∉ ['=', '>', '*', '/'] := by
  rcases isSpacing_cases h with rfl | rfl | rfl <;> decide

/-- An element ends where the next one or a gap starts. -/
theorem Spells.follow {ps : List (Element Literal)} {q : Element Literal}
    (h : Spells Literal.text ps cs) (hnext : ∀ r ∈ ps.head?, q.Precedes r) : q.Follow cs := by
  have hspace {c : Char} {rest : List Char} (hc : isSpacing c = true) : q.Follow (c :: rest) := by
    obtain ⟨hends, hclear⟩ := isSpacing_ends hc
    cases q with
    | atom l => simpa [Element.Follow, Ends] using hends
    | mark m => exact fun _ => by simpa [Clear] using hclear
  cases h with
  | done hgap =>
    cases cs with
    | nil =>
      cases q with
      | atom l => simp [Element.Follow, Ends]
      | mark m => exact fun _ => by simp [Clear]
    | cons c cs => exact hspace (hgap c List.mem_cons_self)
  | @element gap r ps cs hgap h =>
    cases gap with
    | cons c gap => exact hspace (hgap c List.mem_cons_self)
    | nil =>
      have hprecedes := hnext r rfl
      rw [List.nil_append]
      cases q with
      | atom l =>
        cases r with
        | atom _ => cases hprecedes
        | mark m =>
          obtain ⟨c, tail, htext, -, hpoint, hword, -⟩ := m.head
          simpa [Element.text, htext, Element.Follow, Ends] using ⟨hword, hpoint⟩
      | mark m =>
        intro hwants
        cases r with
        | atom l =>
          obtain ⟨c, tail, htext, -, hc⟩ := l.head
          have : c ∉ ['=', '>', '*', '/'] := by
            rcases hc with rfl | hdigit
            · decide
            · have hne {d : Char} (hd : d.isDigit = false) : c ≠ d := ne_of_isDigit hdigit hd
              simp [hne]
          simpa [Element.text, htext, Clear] using this
        | mark n =>
          obtain ⟨c, tail, htext, -, -, -, hstarts⟩ := n.head
          simpa [Element.text, htext, Clear] using hstarts (hprecedes hwants)

/-- An element at the head of the text is one lexeme. -/
theorem lexemesFrom_element {q : Element Literal} (hrest : q.Follow rest) :
    lexemesFrom (fuel + 1) p (q.text Literal.text ++ rest) =
      match q.behind p with
      | .error complaint => [p.put (.broken complaint)]
      | .ok r => ⟨q.lexeme, p.line, r.depth⟩ ::
          if rest.isEmpty then [r.ending !q.lexeme.endsItself] else lexemesFrom fuel r rest := by
  obtain ⟨c, tail, htext, hc⟩ := q.head
  obtain ⟨⟨hspace, hhash, hline, hback⟩, -⟩ := plain_of_head hc
  have hat := lexemeAt_element p hrest
  rw [htext, List.cons_append] at hat ⊢
  conv_lhs => unfold lexemesFrom
  simp only [hspace, Bool.false_eq_true, if_false, hhash, hline, hback, hat]
  cases q.behind p with
  | error complaint => rfl
  | ok r =>
    simp only [Except.map, List.length_cons, Nat.add_sub_cancel, List.drop_left]

theorem lexemesFrom_gap {gap : List Char} (hgap : Gap gap) :
    lexemesFrom (fuel + gap.length) p (gap ++ rest) = lexemesFrom fuel p rest := by
  induction gap with
  | nil => rfl
  | cons c gap ih =>
    rw [List.length_cons, ← Nat.add_assoc, List.cons_append,
      ← ih fun d hd => hgap d (List.mem_cons_of_mem _ hd)]
    conv_lhs => unfold lexemesFrom
    simp only [hgap c List.mem_cons_self, if_true]

/-- The text ends without a bracket open. -/
theorem ending_finish (h : p.depth = 0) (seen : Bool) : (p.ending seen).lexeme = .finish := by
  have hnone : p.brackets = [] := List.length_eq_zero_iff.mp h
  simp [Place.ending, Place.unclosed?, hnone, Place.put]

theorem ending_ne_finish (h : p.depth ≠ 0) (seen : Bool) : (p.ending seen).lexeme ≠ .finish := by
  have hne : p.brackets ≠ [] := fun hnil => h (by rw [Place.depth, hnil]; rfl)
  obtain ⟨b, outer, hsome⟩ := List.exists_cons_of_ne_nil hne
  simp [Place.ending, Place.unclosed?, hsome, Place.put]

def Place.Round (p : Place) : Prop := ∀ b ∈ p.brackets, b.opening = '('

/-- Where an element leads to if brackets may nest so, and that it leads nowhere else. -/
theorem Element.behind_cases {q : Element Literal} (hround : p.Round)
    (ps : List (Element Literal)) :
    (∃ r, q.behind p = .ok r ∧ r.Round ∧ (Nests p.depth (q :: ps) ↔ Nests r.depth ps)) ∨
      ∃ complaint, q.behind p = .error complaint ∧ ¬ Nests p.depth (q :: ps) := by
  cases q with
  | atom l => exact .inl ⟨p, rfl, hround, by cases hd : p.depth <;> simp [Nests]⟩
  | mark m =>
    cases m with
    | opening =>
      by_cases hlimit : p.depth < bracketLimit
      · refine .inl ⟨{ p with brackets := ⟨'(', p.line⟩ :: p.brackets }, ?_, ?_, ?_⟩
        · simp [Element.behind, Mark.behind, bracketed, hlimit]
        · exact List.forall_mem_cons.mpr ⟨rfl, hround⟩
        · simp only [Nests, hlimit, true_and]
          rfl
      · refine .inr ⟨⟨"too many nested parentheses", p.line⟩, ?_, ?_⟩
        · simp [Element.behind, Mark.behind, bracketed, hlimit]
        · simp [Nests, hlimit]
    | closing =>
      cases hopen : p.brackets with
      | nil =>
        have herror : ∃ complaint, bracketed p ')' = .error complaint := by simp [bracketed, hopen]
        obtain ⟨complaint, hcomplaint⟩ := herror
        exact .inr ⟨complaint, hcomplaint, by simp [Place.depth, hopen, Nests]⟩
      | cons b outer =>
        have hb := hround b (by simp [hopen])
        refine .inl ⟨{ p with brackets := outer }, ?_, ?_, ?_⟩
        · simp [Element.behind, Mark.behind, bracketed, hopen, closing, hb]
        · exact fun d hd => hround d (by simp [hopen, hd])
        · simp [Place.depth, hopen, Nests]
    | plus | minus | times | slash | power =>
      exact .inl ⟨p, rfl, hround, by cases hd : p.depth <;> simp [Nests]⟩

theorem Spells.eq_nil {ps : List (Element Literal)} (h : Spells Literal.text ps []) : ps = [] := by
  generalize hcs : ([] : List Char) = cs at h
  cases h with
  | done hgap => rfl
  | @element gap q ps cs hgap h =>
    obtain ⟨c, tail, htext, -⟩ := q.head
    simp [htext] at hcs

theorem Element.lexeme_ne_finish (q : Element Literal) : q.lexeme ≠ .finish := by
  cases q <;> simp [lexeme]

/-- The lexemes of a spelled text are those of its elements if brackets nest within the limit, and
come to no end otherwise. -/
theorem lexemesFrom_spelled {ps : List (Element Literal)} (p : Place) (fuel : Nat)
    (h : Spells Literal.text ps cs) (hchain : ps.IsChain Element.Precedes) (hround : p.Round)
    (hfuel : cs.length < fuel) :
    (Nests p.depth ps → (lexemesFrom fuel p cs).map Placed.lexeme =
      ps.map Element.lexeme ++ [.finish]) ∧
      (¬ Nests p.depth ps → ∀ l ∈ lexemesFrom fuel p cs, l.lexeme ≠ .finish) := by
  induction h generalizing fuel p with
  | @done gap hgap =>
    obtain ⟨more, rfl⟩ : ∃ more, fuel = more + 1 + gap.length := ⟨fuel - gap.length - 1, by omega⟩
    have hend : lexemesFrom (more + 1 + gap.length) p gap = [p.ending false] := by
      have hskip : lexemesFrom (more + 1 + gap.length) p (gap ++ []) =
          lexemesFrom (more + 1) p [] :=
        lexemesFrom_gap hgap
      rw [List.append_nil] at hskip
      rw [hskip, lexemesFrom]
    rw [hend]
    constructor
    · intro hnests
      simp [ending_finish hnests false]
    · intro hnests
      simpa using ending_ne_finish hnests false
  | @element gap q ps cs hgap h ih =>
    obtain ⟨c, tail, htext, -⟩ := q.head
    have hlength : (q.text Literal.text).length = tail.length + 1 := by rw [htext, List.length_cons]
    simp only [List.length_append, hlength] at hfuel
    obtain ⟨more, rfl⟩ : ∃ more, fuel = more + 1 + gap.length := ⟨fuel - gap.length - 1, by omega⟩
    rw [List.isChain_cons] at hchain
    rw [lexemesFrom_gap hgap, lexemesFrom_element (h.follow hchain.1)]
    rcases Element.behind_cases (q := q) hround ps with ⟨r, hr, hround', hnests⟩ |
      ⟨complaint, herror, hnests⟩
    · rw [hr, hnests]
      -- the end of the text is seen together with the last element, unless a gap stands behind it
      have htail : (Nests r.depth ps → (if cs.isEmpty then [r.ending !q.lexeme.endsItself]
            else lexemesFrom more r cs).map Placed.lexeme = ps.map Element.lexeme ++ [.finish]) ∧
          (¬ Nests r.depth ps → ∀ l ∈ (if cs.isEmpty then [r.ending !q.lexeme.endsItself]
            else lexemesFrom more r cs), l.lexeme ≠ .finish) := by
        split
        · rename_i hempty
          obtain rfl : cs = [] := List.isEmpty_iff.mp hempty
          obtain rfl : ps = [] := h.eq_nil
          exact ⟨fun hd => by simp [ending_finish hd _], fun hd => by
            simpa using ending_ne_finish hd _⟩
        · exact ih r more hchain.2 hround' (by omega)
      refine ⟨fun hd => ?_, fun hd => ?_⟩
      · simp only [List.map_cons, List.cons_append, htail.1 hd]
      · exact List.forall_mem_cons.mpr ⟨q.lexeme_ne_finish, htail.2 hd⟩
    · rw [herror]
      exact ⟨fun hd => absurd hd hnests, fun _ => by simp [Place.put]⟩

/-- A term that takes up a text without a line end. -/
theorem onlyLine?_elements (ps : List (Element Literal)) :
    Term.onlyLine? (ps.map Element.lexeme ++ [.finish]) = some (ps.map Element.lexeme) := by
  induction ps with
  | nil => rfl
  | cons q ps ih =>
    cases q <;> simp [Element.lexeme, Term.onlyLine?, ih]

theorem onlyLine?_eq_none {ls : List Lexeme} (h : ∀ l ∈ ls, l ≠ .finish) :
    Term.onlyLine? ls = none := by
  induction ls with
  | nil => rfl
  | cons l ls ih =>
    have htail := ih fun l hl => h l (List.mem_cons_of_mem _ hl)
    have hl := h l List.mem_cons_self
    cases l <;> simp_all [Term.onlyLine?]

def textAlphabet : List Char := numeralAlphabet ++ ['(', ')', '*', '/', ' ', '\t', Char.ofNat 0xC]

theorem Spells.mem_textAlphabet {ps : List (Element Literal)} (h : Spells Literal.text ps cs) :
    ∀ c ∈ cs, c ∈ textAlphabet := by
  have hspace {gap : List Char} (hgap : Gap gap) : ∀ c ∈ gap, c ∈ textAlphabet := by
    intro c hc
    rcases isSpacing_cases (hgap c hc) with rfl | rfl | rfl <;> simp [textAlphabet]
  induction h with
  | done hgap => exact hspace hgap
  | @element gap q ps cs hgap h ih =>
    refine List.forall_mem_append.mpr ⟨hspace hgap, List.forall_mem_append.mpr ⟨?_, ih⟩⟩
    cases q with
    | atom l =>
      exact fun c hc => List.mem_append_left _ (mem_alphabet_of_numeral l.reads l.complete c hc)
    | mark m => cases m <;> simp [Element.text, Mark.text, textAlphabet, numeralAlphabet]

theorem textAlphabet_plain :
    textAlphabet.all (fun c => c != '\r' && c.toNat != 0 && (Text.loneUnit? c).isNone) = true := by
  decide +kernel

theorem unifyLineEnds_append (h : '\r' ∉ cs) (rest : List Char) :
    unifyLineEnds (cs ++ rest) = cs ++ unifyLineEnds rest := by
  induction cs with
  | nil => rfl
  | cons c cs ih =>
    simp only [List.mem_cons, not_or] at h
    rw [List.cons_append, unifyLineEnds, if_neg (Ne.symm h.1), ih h.2]
    · rfl
    · intro tail hc
      exact absurd hc.symm h.1

theorem unifyLineEnds_eq (h : '\r' ∉ cs) : unifyLineEnds cs = cs := by
  have happend := unifyLineEnds_append h []
  rwa [unifyLineEnds, List.append_nil] at happend

theorem loneUnits?_eq_none (h : ∀ c ∈ cs, Text.loneUnit? c = none) : Text.loneUnits? cs = none := by
  have hdrop : cs.dropWhile (fun c => (Text.loneUnit? c).isNone) = [] := by
    rw [List.dropWhile_eq_nil_iff]
    intro c hc
    rw [h c hc]
    rfl
  simp [Text.loneUnits?, hdrop]

theorem marginFrom_head (hspace : isSpacing c = false) (hback : c ≠ '\\') (m : Margin)
    (cs : List Char) : marginFrom m (c :: cs) = .ok { m with rest := c :: cs } := by
  simp only [isSpacing, Bool.or_eq_false_iff, decide_eq_false_iff_not] at hspace
  obtain ⟨⟨hblank, htab⟩, hfeed⟩ := hspace
  unfold marginFrom
  split
  · contradiction
  · rename_i heq
    exact absurd (List.cons.inj heq).1 hblank
  · rename_i heq
    exact absurd (List.cons.inj heq).1 htab
  · rename_i heq
    exact absurd (List.cons.inj heq).1 hback
  · rename_i heq
    exact absurd (List.cons.inj heq).1 hback
  · rename_i heq
    obtain ⟨rfl, rfl⟩ := List.cons.inj heq
    rw [if_neg hfeed]

/-- A text that starts with a lexeme has no margin. -/
theorem lexemes_head (hc : isSpacing c = false ∧ c ≠ '#' ∧ c ≠ '\n' ∧ c ≠ '\\') (hline : c ≠ '\r') :
    lexemes (c :: cs) =
      lexemesFrom (2 * (c :: unifyLineEnds cs).length + 1) ⟨1, [], []⟩ (c :: unifyLineEnds cs) := by
  obtain ⟨hspace, hhash, hend, hback⟩ := hc
  have hmargin := marginFrom_head hspace hback ⟨0, 0, (0, 0), ⟨1, [], []⟩, []⟩ (unifyLineEnds cs)
  simp only [isSpacing, Bool.or_eq_false_iff, decide_eq_false_iff_not] at hspace
  obtain ⟨⟨hblank, htab⟩, -⟩ := hspace
  have hdrop : (c :: cs).dropWhile (fun c => c = ' ' || c = '\t') = c :: cs := by
    rw [List.dropWhile_cons_of_neg (by simp [hblank, htab])]
  have hunify : unifyLineEnds (c :: cs) = c :: unifyLineEnds cs :=
    unifyLineEnds_append (fun hmem => hline (List.mem_singleton.mp hmem).symm) cs
  unfold lexemes
  simp only [hdrop, hunify, List.isEmpty_cons, Bool.false_eq_true, if_false]
  unfold linesFrom
  simp only [hmargin]
  split
  · rename_i heq
    exact absurd (List.cons.inj heq).1 hend
  · rename_i heq
    exact absurd (List.cons.inj heq).1 hhash
  · rfl

theorem Spells.head {ps : List (Element Literal)} (h : Spells Literal.text ps cs) (hps : ps ≠ [])
    (hhead : ∀ c ∈ cs.head?, isSpacing c = false) :
    ∃ c tail, cs = c :: tail ∧ c ∈ elementHeads := by
  cases h with
  | done hgap => exact absurd rfl hps
  | @element gap q ps cs hgap h =>
    cases gap with
    | nil =>
      obtain ⟨c, tail, htext, hc⟩ := q.head
      exact ⟨c, tail ++ cs, by rw [htext]; rfl, hc⟩
    | cons c gap =>
      have := hhead c rfl
      rw [hgap c List.mem_cons_self] at this
      cases this

/-- The term of a spelled text is the one that its elements are read as, unless brackets or
operators nest too deep. -/
theorem ofChars_spelled {ps : List (Element Literal)} (h : Spells Literal.text ps cs)
    (hps : ps ≠ []) (hchain : ps.IsChain Element.Precedes)
    (hhead : ∀ c ∈ cs.head?, isSpacing c = false) {t : Term}
    (hread : Term.readRow (16 * (ps.length + 2)) (ps.map Element.lexeme) = some ([t], true)) :
    (Nests 0 ps → Term.ofChars cs = if Term.depthLimit < t.depth
      then .error .tooNested else .ok t) ∧
      (¬ Nests 0 ps → ∃ f, Term.ofChars cs = .error f) := by
  have hplain (c : Char) (hc : c ∈ cs) :=
    List.all_eq_true.mp textAlphabet_plain c (h.mem_textAlphabet c hc)
  simp only [Bool.and_eq_true, bne_iff_ne, Option.isNone_iff_eq_none] at hplain
  have hunits := loneUnits?_eq_none fun c hc => (hplain c hc).2
  have hnul : (cs.any fun c => c.toNat = 0) = false := by
    rw [List.any_eq_false]
    intro c hc
    simpa using (hplain c hc).1.2
  have hline : '\r' ∉ cs := fun hmem => (hplain _ hmem).1.1 rfl
  obtain ⟨c, tail, rfl, hc⟩ := h.head hps hhead
  simp only [List.mem_cons, not_or] at hline
  have hlexemes : lexemes (c :: tail) = _ := lexemes_head (plain_of_head hc).1 (Ne.symm hline.1)
  rw [unifyLineEnds_eq hline.2] at hlexemes
  obtain ⟨hclosed, hopen⟩ := lexemesFrom_spelled ⟨1, [], []⟩ (2 * (c :: tail).length + 1) h hchain
    (by simp [Place.Round]) (by simp only [List.length_cons]; omega)
  unfold Term.ofChars
  simp only [hunits, hnul, Bool.false_eq_true, if_false, hlexemes]
  constructor
  · intro hnests
    have hterm : Term.ofLexemes? (ps.map Element.lexeme ++ [.finish]) = some t := by
      rw [Term.ofLexemes?, onlyLine?_elements]
      simp [hread]
    rw [hclosed hnests, hterm]
  · intro hnests
    have hnone : Term.ofLexemes?
        ((lexemesFrom (2 * (c :: tail).length + 1) ⟨1, [], []⟩ (c :: tail)).map
        Placed.lexeme) = none := by
      rw [Term.ofLexemes?, onlyLine?_eq_none]
      · rfl
      · simpa using hopen hnests
    rw [hnone]
    exact ⟨_, rfl⟩

end Machining.Expression
