import Machining.Expression
import Machining.Proofs.Layout
import Machining.Proofs.References

namespace Machining.Expression
open Machining.Binary64

variable {σ : Reference → Finite} {T : Form Atom}

section
variable {cs rest : List Char} {c : Char} {vars : Bindings} {line : Int}

/-- A reference is recognised by what stands behind its hash; the digits of a number end before the
next element. -/
theorem referenceAt?_body (r : Reference) (hrest : ∀ c ∈ rest.head?, Text.isDigit c = false) :
    referenceAt? (r.body ++ rest) = some (r.label, r.body.length) := by
  cases r with
  | number ds hne hd =>
    have htake : (ds ++ rest).takeWhile Text.isDigit = ds := by
      rw [List.takeWhile_append_of_pos hd]
      cases rest with
      | nil => simp
      | cons c rest => simp [hrest c rfl]
    simp only [Reference.body, Reference.label, referenceAt?, htake]
    rw [if_neg (by simpa using hne)]
  | name s hne hs =>
    have hall : ∀ c ∈ s, decide (c ≠ '>') = true := by
      intro c hc
      simpa using fun heq : c = '>' => hs (heq ▸ hc)
    have hbody : Reference.body (.name s hne hs) ++ rest = '<' :: (s ++ '>' :: rest) := by
      simp [Reference.body]
    have hdigits : ('<' :: (s ++ '>' :: rest)).takeWhile Text.isDigit = [] :=
      List.takeWhile_cons_of_neg (by decide)
    have htake : (s ++ '>' :: rest).takeWhile (fun c => decide (c ≠ '>')) = s := by
      rw [List.takeWhile_append_of_pos hall, List.takeWhile_cons_of_neg (by decide),
        List.append_nil]
    have hdrop : (s ++ '>' :: rest).dropWhile (fun c => decide (c ≠ '>')) = '>' :: rest := by
      rw [List.dropWhile_append_of_pos hall, List.dropWhile_cons_of_neg (by decide)]
    rw [hbody]
    simp only [referenceAt?, hdigits, htake, hdrop]
    simp [hne, Reference.label, Reference.body]

theorem substituteFrom_skip (n : Nat) (cs : List Char) :
    substituteFrom vars line n cs = substituteFrom vars line 0 (cs.drop n) := by
  induction n generalizing cs with
  | zero => rfl
  | succ n ih =>
    cases cs with
    | nil => rfl
    | cons c cs => exact ih cs

/-- Text without a hash stays. -/
theorem substituteFrom_plain (h : '#' ∉ cs) :
    substituteFrom vars line 0 (cs ++ rest) =
      (cs ++ (substituteFrom vars line 0 rest).1, (substituteFrom vars line 0 rest).2) := by
  induction cs with
  | nil => rfl
  | cons c cs ih =>
    simp only [List.mem_cons, not_or] at h
    rw [List.cons_append, substituteFrom, if_neg (Ne.symm h.1), ih h.2]
    rfl

theorem substituteFrom_reference {r : Reference} {v : Number} (hvar : vars.get? r.key = some v)
    (hrest : ∀ c ∈ rest.head?, Text.isDigit c = false) :
    substituteFrom vars line 0 (r.text ++ rest) =
      (v.text.toList ++ (substituteFrom vars line 0 rest).1,
        (substituteFrom vars line 0 rest).2) := by
  rw [Reference.text, List.cons_append, substituteFrom, if_pos rfl, referenceAt?_body r hrest]
  have hreplace : replacement vars line r.label ((r.body ++ rest).take r.body.length) =
      (v.text.toList, []) := by
    have hkey : vars.get? (String.ofList ('#' :: r.label)) = some v := hvar
    rw [replacement, hkey]
  simp only [hreplace, substituteFrom_skip r.body.length, List.drop_left, List.nil_append]

def Element.fillText (σ : Reference → Finite) : Element Atom → List Char
  | atom (.literal l) => l.text
  | atom (.reference r) => (Number.float (σ r).1).text.toList
  | mark m => m.text

theorem float_text (x : Finite) : (Number.float x.1).text.toList =
    if signBit x.1 then '-' :: x.literal.text else x.literal.text := text_finite x.2

theorem Spells.fill {es : List (Element Literal)} {gap : List Char} (hgap : Gap gap)
    (e : Element Atom) (h : Spells Literal.text es cs) :
    Spells Literal.text (e.fill σ ++ es) (gap ++ (e.fillText σ ++ cs)) := by
  cases e with
  | mark m => exact .element hgap h
  | atom a =>
    cases a with
    | literal l => exact .element hgap h
    | reference r =>
      have hnone : Gap [] := by simp [Gap]
      simp only [Element.fill, Element.fillText, float_text, Finite.written]
      split
      · exact .element (p := .mark .minus) hgap (.element (p := .atom (σ r).literal) hnone h)
      · exact .element (p := .atom (σ r).literal) hgap h

theorem Element.fillText_head (e : Element Atom) :
    ∃ c tail, e.fillText σ = c :: tail ∧ isSpacing c = false := by
  have hliteral (l : Literal) : ∃ c tail, l.text = c :: tail ∧ isSpacing c = false := by
    obtain ⟨c, tail, htext, hc, -⟩ := l.head
    exact ⟨c, tail, htext, (plain_of_head hc).1.1⟩
  cases e with
  | mark m =>
    obtain ⟨c, tail, htext, hc, -⟩ := m.head
    exact ⟨c, tail, htext, (plain_of_head hc).1.1⟩
  | atom a =>
    cases a with
    | literal l => exact hliteral l
    | reference r =>
      simp only [Element.fillText, float_text]
      split
      · exact ⟨'-', _, rfl, rfl⟩
      · exact hliteral _

theorem Literal.no_hash (l : Literal) : '#' ∉ l.text := by
  intro hmem
  have := mem_alphabet_of_numeral l.reads l.complete '#' hmem
  simp [numeralAlphabet] at this

theorem Gap.no_hash {gap : List Char} (h : Gap gap) : '#' ∉ gap := by
  intro hmem
  cases h '#' hmem

/-- The number of a reference ends where the next element or a gap starts. -/
theorem Spells.not_digit {es : List (Element Atom)} (h : Spells Atom.text es cs)
    (hnext : ∀ e ∈ es.head?, ∃ m, e = .mark m) : ∀ c ∈ cs.head?, Text.isDigit c = false := by
  have hspace {c : Char} (hc : isSpacing c = true) : Text.isDigit c = false := by
    rcases isSpacing_cases hc with rfl | rfl | rfl <;> decide
  cases h with
  | done hgap =>
    intro c hc
    exact hspace (hgap c (List.mem_of_mem_head? hc))
  | @element gap e es cs hgap h =>
    cases gap with
    | cons d gap =>
      rintro c ⟨⟩
      exact hspace (hgap d List.mem_cons_self)
    | nil =>
      obtain ⟨m, rfl⟩ := hnext e rfl
      cases m <;> rintro c ⟨⟩ <;> decide

/-- Replacing the references of a spelled text spells the elements that replace them. -/
theorem substituteFrom_spelled {es : List (Element Atom)} (line : Int) (h : Spells Atom.text es cs)
    (hchain : es.IsChain Element.Precedes)
    (hvars : ∀ r, .atom (.reference r) ∈ es → vars.get? r.key = some (.float (σ r).1)) :
    ∃ filled, substituteFrom vars line 0 cs = (filled, []) ∧
      Spells Literal.text (es.flatMap (Element.fill σ)) filled ∧
      ((∀ c ∈ cs.head?, isSpacing c = false) → ∀ c ∈ filled.head?, isSpacing c = false) := by
  induction h with
  | @done gap hgap =>
    have hplain : substituteFrom vars line 0 (gap ++ []) = (gap ++ [], []) :=
      substituteFrom_plain hgap.no_hash
    rw [List.append_nil] at hplain
    exact ⟨gap, hplain, .done hgap, id⟩
  | @element gap e es cs hgap h ih =>
    rw [List.isChain_cons] at hchain
    obtain ⟨filled, hsubstitute, hspells, -⟩ :=
      ih hchain.2 fun r hr => hvars r (List.mem_cons_of_mem _ hr)
    have hstep : substituteFrom vars line 0 (e.text Atom.text ++ cs) =
        (e.fillText σ ++ filled, []) := by
      cases e with
      | mark m =>
        have hhash : '#' ∉ m.text := by cases m <;> simp [Mark.text]
        exact (substituteFrom_plain hhash).trans (by rw [hsubstitute]; rfl)
      | atom a =>
        cases a with
        | literal l =>
          exact (substituteFrom_plain l.no_hash).trans (by rw [hsubstitute]; rfl)
        | reference r =>
          have hrest := h.not_digit fun d hd => by
            have hprecedes := hchain.1 d hd
            cases d with
            | atom _ => cases hprecedes
            | mark m => exact ⟨m, rfl⟩
          exact (substituteFrom_reference (hvars r List.mem_cons_self) hrest).trans
            (by rw [hsubstitute]; rfl)
    refine ⟨gap ++ (e.fillText σ ++ filled), ?_, .fill hgap e hspells, ?_⟩
    · rw [substituteFrom_plain hgap.no_hash, hstep]
    · intro hhead
      cases gap with
      | cons c gap =>
        have := hhead c rfl
        rw [hgap c List.mem_cons_self] at this
        cases this
      | nil =>
        obtain ⟨c, tail, htext, hc⟩ := e.fillText_head (σ := σ)
        rw [List.nil_append, htext]
        rintro d ⟨⟩
        exact hc

theorem isBlank_of_isSpacing (h : isSpacing c = true) : Text.isBlank c = true := by
  rcases isSpacing_cases h with rfl | rfl | rfl <;> decide

theorem numeralAlphabet_solid : numeralAlphabet.all (fun c => !Text.isBlank c) = true := by
  decide +kernel

/-- Elements neither start nor end with a blank. -/
theorem Element.solid (e : Element Atom) :
    (∃ c tail, e.text Atom.text = c :: tail ∧ Text.isBlank c = false) ∧
      ∃ init d, e.text Atom.text = init ++ [d] ∧ Text.isBlank d = false := by
  have hall {cs : List Char} (hne : cs ≠ []) (h : ∀ c ∈ cs, Text.isBlank c = false) :
      (∃ c tail, cs = c :: tail ∧ Text.isBlank c = false) ∧
        ∃ init d, cs = init ++ [d] ∧ Text.isBlank d = false := by
    obtain ⟨c, tail, htext⟩ := List.exists_cons_of_ne_nil hne
    refine ⟨⟨c, tail, htext, h c (by simp [htext])⟩, cs.dropLast, cs.getLast hne, ?_,
      h _ (List.getLast_mem hne)⟩
    exact (List.dropLast_append_getLast hne).symm
  cases e with
  | mark m =>
    have hsolid : m.text ≠ [] ∧ ∀ c ∈ m.text, Text.isBlank c = false := by
      cases m <;> simp [Mark.text, Text.isBlank]
    exact hall hsolid.1 hsolid.2
  | atom a =>
    cases a with
    | literal l =>
      obtain ⟨c, tail, htext, -⟩ := l.head
      refine hall (by simp [Element.text, Atom.text, htext]) fun c hc => ?_
      simpa using List.all_eq_true.mp numeralAlphabet_solid c
        (mem_alphabet_of_numeral l.reads l.complete c hc)
    | reference r =>
      cases r with
      | number ds hne hd =>
        refine hall (by simp [Element.text, Atom.text, Reference.text])
          (List.forall_mem_cons.mpr ⟨by decide, ?_⟩)
        exact fun c hc => Text.solid_of_class (.inl (hd c hc))
      | name s hne hs => exact ⟨⟨'#', _, rfl, by decide⟩, '#' :: '<' :: s, '>', rfl, by decide⟩

/-- The gap behind the last element can be split off. -/
theorem Spells.core {es : List (Element Atom)} (h : Spells Atom.text es cs) (hes : es ≠ []) :
    ∃ core post, cs = core ++ post ∧ Gap post ∧ Spells Atom.text es core ∧
      ∃ init d, core = init ++ [d] ∧ Text.isBlank d = false := by
  induction h with
  | done hgap => exact absurd rfl hes
  | @element gap e es cs hgap h ih =>
    cases h with
    | done hpost =>
      obtain ⟨init, d, htext, hd⟩ := e.solid.2
      have hnone : Spells Atom.text [] [] := .done (by simp [Gap])
      refine ⟨gap ++ (e.text Atom.text ++ []), cs,
        by simp, hpost, .element hgap hnone, gap ++ init, d, ?_, hd⟩
      simp [htext]
    | @element gap' e' es' cs' hgap' h' =>
      obtain ⟨core, post, hcs, hpost, hspells, init, d, hcore, hd⟩ := ih (by simp)
      refine ⟨gap ++ (e.text Atom.text ++ core), post, by simp [hcs], hpost, .element hgap hspells,
        gap ++ (e.text Atom.text ++ init), d, by simp [hcore], hd⟩

/-- Trimming a spelled text takes away the gaps at its ends. -/
theorem Spells.trim {es : List (Element Atom)} (h : Spells Atom.text es cs) (hes : es ≠ []) :
    Spells Atom.text es (Text.trim cs) ∧ ∃ c tail, Text.trim cs = c :: tail ∧
    Text.isBlank c = false := by
  have hstart : Spells Atom.text es (Text.trimStart cs) ∧
      ∃ c tail, Text.trimStart cs = c :: tail ∧ Text.isBlank c = false := by
    cases h with
    | done hgap => exact absurd rfl hes
    | @element gap e es cs hgap h =>
      obtain ⟨c, tail, htext, hc⟩ := e.solid.1
      have htrim : Text.trimStart (gap ++ (e.text Atom.text ++ cs)) =
          [] ++ (e.text Atom.text ++ cs) := by
        rw [htext, List.cons_append, Text.trimStart_append hc,
          Text.trimStart_blank fun c hc => isBlank_of_isSpacing (hgap c hc)]
      rw [htrim]
      exact ⟨.element (by simp [Gap]) h, c, tail ++ cs, by simp [htext], hc⟩
  obtain ⟨hspells, c, tail, hhead, hc⟩ := hstart
  obtain ⟨core, post, hsplit, hpost, hcore, hlast⟩ := hspells.core hes
  rw [Text.trim, hsplit, Text.trimEnd_solid hlast fun c hc => isBlank_of_isSpacing (hpost c hc)]
  refine ⟨hcore, ?_⟩
  obtain ⟨init, d, rfl, -⟩ := hlast
  rw [hsplit] at hhead
  cases init with
  | nil =>
    obtain ⟨rfl, -⟩ := List.cons.inj hhead
    exact ⟨d, [], rfl, hc⟩
  | cons b init =>
    obtain ⟨rfl, -⟩ := List.cons.inj hhead
    exact ⟨b, init ++ [d], rfl, hc⟩

theorem replaceFunctions_eq (h : '[' ∉ cs) : replaceFunctions cs = .ok cs := by
  have hnone : pending cs = false := by simp [pending, h]
  rw [replaceFunctions, settle, if_neg (by simp [hnone])]

theorem mapWordsFrom_eq {f : List Char → List Char} {alphabet : List Char}
    (hf : ∀ w, (∀ c ∈ w, c ∈ alphabet) → f w = w) (word : List Char)
    (hword : ∀ c ∈ word, c ∈ alphabet)
    (h : ∀ c ∈ cs, c ∈ alphabet) : mapWordsFrom f word cs = word.reverse ++ cs := by
  have hrun {word : List Char} (hword : ∀ c ∈ word, c ∈ alphabet) :
      (if word.isEmpty then [] else f word.reverse) = word.reverse := by
    split
    · rename_i hempty
      rw [List.isEmpty_iff.mp hempty]
      rfl
    · exact hf _ fun c hc => hword c (List.mem_reverse.mp hc)
  induction cs generalizing word with
  | nil => rw [mapWordsFrom, hrun hword, List.append_nil]
  | cons c cs ih =>
    have htail : ∀ c ∈ cs, c ∈ alphabet := fun d hd => h d (List.mem_cons_of_mem _ hd)
    rw [mapWordsFrom]
    split
    · rw [ih (c :: word) (List.forall_mem_cons.mpr ⟨h c List.mem_cons_self, hword⟩) htail]
      simp
    · rw [hrun hword, ih [] (by simp) htail]
      rfl

/-- Letters one of which is in each operator that is spelled as a word. -/
def wordLetters : List Char := ['Q', 'N', 'G', 'L', 'R', 'M']

theorem operators_have : Operator.all.all (fun op => op.word.toList.any wordLetters.contains) =
    true := by
  decide +kernel

theorem textAlphabet_lacks :
    textAlphabet.all (fun c => !wordLetters.contains c.toUpper) = true := by decide +kernel

/-- A text of numerals and marks has no operator that is spelled as a word. -/
theorem replaceOperators_eq (h : ∀ c ∈ cs, c ∈ textAlphabet) : replaceOperators cs = cs := by
  have hsubstitute (op : Operator) : op.substitute cs = cs := by
    refine mapWordsFrom_eq (fun w hw => ?_) [] (by simp) h
    have hop : op ∈ Operator.all := by cases op <;> decide
    obtain ⟨d, hd, hletter⟩ := List.any_eq_true.mp (List.all_eq_true.mp operators_have op hop)
    rw [Operator.replaceWord, if_neg]
    intro hword
    rw [← hword] at hd
    obtain ⟨c, hc, rfl⟩ := List.mem_map.mp hd
    have := List.all_eq_true.mp textAlphabet_lacks c (hw c hc)
    simp only [hletter] at this
    cases this
  unfold replaceOperators
  generalize Operator.all = ops
  induction ops with
  | nil => rfl
  | cons op ops ih => rw [List.foldl_cons, hsubstitute, ih]

theorem evaluateClosed_eq (h : ∀ c ∈ cs, c ∈ textAlphabet) :
    evaluateClosed cs = evaluateInfix cs := by
  have hbracket : '[' ∉ cs := by
    intro hmem
    have := h '[' hmem
    simp [textAlphabet, numeralAlphabet] at this
  rw [evaluateClosed, replaceFunctions_eq hbracket]
  simp only [bind, Except.bind]
  rw [replaceOperators_eq h]
  rfl

/-- A text that spells a tree has the value of that tree with its references replaced. -/
theorem evaluate_spelled (vars : Bindings) (line : Int) (h : T.WellFormed) {text : String}
    (htext : Spells Atom.text T.elements text.toList)
    (hvars : ∀ r, .atom (.reference r) ∈ T.elements → vars.get? r.key = some (.float (σ r).1)) :
    (T.nesting ≤ bracketLimit →
        evaluate text vars line = ⟨[], ((T.fill σ).term Literal.term).result⟩) ∧
      (¬ T.nesting ≤ bracketLimit → ∃ f, evaluate text vars line = ⟨[], .error f⟩) := by
  obtain ⟨e, tail, helements, -⟩ := T.elements_head
  obtain ⟨hspells, c, rest, htrim, hc⟩ := htext.trim (by rw [helements]; simp)
  obtain ⟨filled, hsubstitute, hfilled, hhead⟩ :=
    substituteFrom_spelled line hspells T.elements_chain hvars
  rw [← T.elements_fill] at hfilled
  have hsolid : ∀ d ∈ (Text.trim text.toList).head?, isSpacing d = false := by
    rw [htrim]
    rintro d ⟨⟩
    rw [Bool.eq_false_iff]
    intro hspace
    rw [isBlank_of_isSpacing hspace] at hc
    cases hc
  have hevaluate : evaluate text vars line = ⟨[], evaluateInfix filled⟩ := by
    rw [← evaluateClosed_eq hfilled.mem_textAlphabet]
    unfold evaluate substitute
    rw [if_neg (by simp [htrim]), hsubstitute]
  obtain ⟨hresult, hfail⟩ := evaluateInfix_spelled (Form.wellFormed_fill h) hfilled (hhead hsolid)
  rw [T.nesting_fill] at hresult hfail
  constructor
  · intro hdeep
    rw [hevaluate, hresult hdeep]
  · intro hdeep
    obtain ⟨f, hf⟩ := hfail hdeep
    exact ⟨f, by rw [hevaluate, hf]⟩

end

def Form.value (σ : Reference → Finite) (T : Form Atom) : Except Fault Float :=
  (T.term (Atom.term σ)).value.bind Value.toFloat

theorem Term.result_eq_ok {t : Term} {x : Float} :
    t.result = .ok x ↔ t.depth ≤ Term.depthLimit ∧ t.value.bind Value.toFloat = .ok x := by
  unfold Term.result
  split
  · rename_i hdeep
    simp [not_le.mpr hdeep]
  · rename_i hdeep
    simp [not_lt.mp hdeep]

/-- Evaluating an expression with references to variables. With every written value in brackets it
comes to the value of the tree, if to any. As it stands it comes to what the tree with its
references replaced does, and that is the same value unless a power has a bare reference to a
negative value as its base. -/
theorem evaluate_references {text sheltered : String} {vars : Bindings} (line : Int)
    (h : T.WellFormed) (htext : Spells Atom.text T.elements text.toList)
    (hsheltered : Spells Atom.text (T.shelter σ).elements sheltered.toList)
    (hvars : ∀ r, .atom (.reference r) ∈ T.elements → vars.get? r.key = some (.float (σ r).1)) :
    (∀ x, (evaluate sheltered vars line).result = .ok x → T.value σ = .ok x) ∧
      (T.nesting ≤ bracketLimit → evaluate text vars line = ⟨[],
        ((T.fill σ).term Literal.term).result⟩) ∧
      (¬ T.Exposed σ → ∀ x, (evaluate sheltered vars line).result = .ok x ∨
          (T.value σ = .ok x ∧ T.nesting ≤ bracketLimit ∧
            (T.term (Atom.writtenTerm σ)).depth ≤ Term.depthLimit) →
        evaluate text vars line = ⟨[], .ok x⟩) := by
  have hread := evaluate_spelled vars line h htext hvars
  have hshelter := evaluate_spelled (σ := σ) vars line (Form.wellFormed_shelter h) hsheltered
    fun r hr => absurd hr (T.not_mem_shelter r)
  have hwritten := Form.writtenTerm_value σ T
  rw [Form.fill_term (Form.wellFormed_shelter h) T.not_exposed_shelter, T.shelter_term] at hshelter
  -- a value in brackets is there only within the limits, which the tree as it stands keeps as well
  have hlimits {x : Float} (hx : (evaluate sheltered vars line).result = .ok x) :
      T.nesting ≤ bracketLimit ∧ (T.term (Atom.writtenTerm σ)).result = .ok x := by
    by_cases hdeep : (T.shelter σ).nesting ≤ bracketLimit
    · rw [hshelter.1 hdeep] at hx
      exact ⟨T.nesting_shelter.trans hdeep, hx⟩
    · obtain ⟨f, hf⟩ := hshelter.2 hdeep
      rw [hf] at hx
      cases hx
  refine ⟨fun x hx => ?_, hread.1, fun hexposed x hx => ?_⟩
  · rw [Form.value, ← hwritten]
    exact (Term.result_eq_ok.mp (hlimits hx).2).2
  · have hresult : T.nesting ≤ bracketLimit ∧ (T.term (Atom.writtenTerm σ)).result = .ok x := by
      rcases hx with hx | ⟨hvalue, hnesting, hdepth⟩
      · exact hlimits hx
      · rw [Form.value, ← hwritten] at hvalue
        exact ⟨hnesting, Term.result_eq_ok.mpr ⟨hdepth, hvalue⟩⟩
    rw [hread.1 hresult.1, Form.fill_term h hexposed, hresult.2]

/-- Elements without gaps between them. -/
theorem Spells.tight {α : Type} {spell : α → List Char} (es : List (Element α)) {cs : List Char}
    (h : es.flatMap (Element.text spell) = cs) : Spells spell es cs := by
  subst h
  have hnone : Gap [] := by simp [Gap]
  induction es with
  | nil => exact .done hnone
  | cons e es ih => exact .element hnone ih

def second : Reference :=
  .number ['2'] (by simp) (by simp only [List.mem_singleton, forall_eq]; rfl)

def zeroLiteral : Literal := ⟨['0'], .int 0, ⟨.real (.int 0), 1⟩, rfl, rfl, rfl, rfl⟩

def minusThree : Finite := ⟨-3.0, by decide⟩

def secondWithZero : Operation → Form Atom
  | .pow => .binary .pow (.leaf (.reference second)) (.leaf (.literal zeroLiteral))
  | op => .binary op (.leaf (.literal zeroLiteral)) (.leaf (.reference second))

theorem secondWithZero_wellFormed (op : Operation) : (secondWithZero op).WellFormed := by
  cases op <;> simp [secondWithZero, Form.WellFormed, Form.rank, Operation.leftRank,
    Operation.rightRank]

theorem secondWithZero_text :
    ((secondWithZero .pow).elements.flatMap (Element.text Atom.text) = "#2**0".toList ∧
      ((secondWithZero .pow).shelter fun _ => minusThree).elements.flatMap
        (Element.text Atom.text) =
        "(-3.0)**0".toList) ∧
    (secondWithZero .sub).elements.flatMap (Element.text Atom.text) = "0-#2".toList ∧
      ((secondWithZero .sub).shelter fun _ => minusThree).elements.flatMap
        (Element.text Atom.text) =
        "0-(-3.0)".toList := by
  decide +kernel

/-- With the value in brackets, both are what the tree is. -/
theorem evaluate_secondWithZero (vars : Bindings) :
    evaluate "(-3.0)**0" vars 0 = ⟨[], .ok 1.0⟩ ∧ evaluate "0-(-3.0)" vars 0 = ⟨[], .ok 3.0⟩ := by
  obtain ⟨⟨-, hpow⟩, -, hsub⟩ := secondWithZero_text
  have hread (op : Operation) {text : String}
      (htext : Spells Atom.text ((secondWithZero op).shelter fun _ => minusThree).elements
        text.toList) :=
    evaluate_spelled (σ := fun _ => minusThree) vars 0
      (Form.wellFormed_shelter (secondWithZero_wellFormed op)) htext
      fun r hr => absurd hr (Form.not_mem_shelter _ r)
  exact ⟨(hread .pow (.tight _ hpow)).1 (by decide), (hread .sub (.tight _ hsub)).1 (by decide)⟩

/-- The sign is taken of the power, and the difference is what it should be. -/
theorem evaluate_references_negative :
    ((secondWithZero .pow).value (fun _ => minusThree) = .ok 1.0 ∧
        evaluate "#2**0" ⟨[("#2", .float (-3.0))]⟩ 0 = ⟨[], .ok (-1.0)⟩) ∧
      evaluate "0-#2" ⟨[("#2", .float (-3.0))]⟩ 0 = ⟨[], .ok 3.0⟩ := by
  obtain ⟨⟨hpow, hpow'⟩, hsub, hsub'⟩ := secondWithZero_text
  have hvars (op : Operation) (r : Reference)
      (hr : .atom (.reference r) ∈ (secondWithZero op).elements) :
      (⟨[("#2", .float (-3.0))]⟩ : Bindings).get? r.key = some (.float minusThree.1) := by
    obtain rfl : r = second := by cases op <;> simpa [secondWithZero, Form.elements] using hr
    rfl
  have hpower :=
    evaluate_references 0 (secondWithZero_wellFormed .pow) (.tight _ hpow)
      (.tight _ hpow') (hvars .pow)
  have hdifference :=
    evaluate_references 0 (secondWithZero_wellFormed .sub) (.tight _ hsub)
      (.tight _ hsub') (hvars .sub)
  obtain ⟨hpower', hdifference'⟩ := evaluate_secondWithZero ⟨[("#2", .float (-3.0))]⟩
  refine ⟨⟨hpower.1 _ (by rw [hpower']), hpower.2.1 (by decide)⟩,
    hdifference.2.2 ?_ _ (.inl (by rw [hdifference']))⟩
  simp [secondWithZero, Form.Exposed]

end Machining.Expression
