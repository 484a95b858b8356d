import Machining.Proofs.Rounds
import Machining.Proofs.Numeral

namespace Machining.Token
open Text Decimal

variable {c : Char} {cs rest w s m e : List Char}

def IsWord (w : List Char) : Prop := w ≠ [] ∧ ∀ c ∈ w, isWordChar c = true

/-- Rows of word characters with an operator between any two of them. -/
inductive Operands : List Char → Prop where
  | single {w : List Char} (word : IsWord w) : Operands w
  | joined {w cs : List Char} {o : Char} (word : IsWord w) (operator : isOperator o = true)
      (more : Operands cs) :
      Operands (w ++ o :: cs)

/-- A number sign with operands behind it, the first of which names the variable. -/
inductive Referral : List Char → Prop where
  | marked {cs : List Char} (operands : Operands cs) : Referral ('#' :: cs)

def InNumeral (c : Char) : Prop := isDigit c = true ∨ c ∈ ['+', '-', '.', 'e', 'E']

theorem inNumeral_of_sign (h : Sign s) : ∀ c ∈ s, InNumeral c := by cases h <;> simp [InNumeral]

theorem inNumeral_of_mantissa (h : Mantissa m) : ∀ c ∈ m, InNumeral c := by
  cases h with
  | whole digits present => exact fun c hc => .inl (digits c hc)
  | pointed digits digits' present =>
    rw [List.forall_mem_append, List.forall_mem_cons]
    exact ⟨fun c hc => .inl (digits c hc), .inr (by simp), fun c hc => .inl (digits' c hc)⟩

theorem inNumeral_of_exponent (h : Exponent e) : ∀ c ∈ e, InNumeral c := by
  cases h with
  | absent => simp
  | @power e s ds mark sign digits present =>
    rw [List.forall_mem_append, List.forall_mem_cons]
    refine ⟨⟨.inr ?_, inNumeral_of_sign sign⟩, fun c hc => .inl (digits c hc)⟩
    rcases mark with rfl | rfl <;> simp

theorem Numeral.inNumeral (h : Numeral cs) : ∀ c ∈ cs, InNumeral c := by
  cases h with
  | signed sign mantissa exponent =>
    rw [List.forall_mem_append, List.forall_mem_append]
    exact ⟨inNumeral_of_sign sign, inNumeral_of_mantissa mantissa, inNumeral_of_exponent exponent⟩

theorem IsWord.cons (hc : isWordChar c = true) (h : IsWord w) : IsWord (c :: w) :=
  ⟨by simp, List.forall_mem_cons.mpr ⟨hc, h.2⟩⟩

theorem isWord_singleton (hc : isWordChar c = true) : IsWord [c] := ⟨by simp, by simpa using hc⟩

theorem Operands.cons (hc : isWordChar c = true) (h : Operands cs) : Operands (c :: cs) := by
  cases h with
  | single word => exact .single (word.cons hc)
  | joined word operator more => exact .joined (word.cons hc) operator more

theorem operands_word (hc : isWordChar c = true) (cs : List Char) :
    operands (c :: cs) = c :: operands cs := by
  conv_lhs => unfold operands
  rw [if_pos hc]

theorem operands_operator {o d : Char} (ho : isOperator o = true) (hd : isWordChar d = true)
    (cs : List Char) : operands (o :: d :: cs) = o :: operands (d :: cs) := by
  by_cases hword : isWordChar o = true
  · exact operands_word hword _
  · conv_lhs => unfold operands
    rw [if_neg hword]
    simp [ho, hd]

theorem operands_end (hc : isWordChar c = false)
    (hend : isOperator c = true → ∀ d ∈ cs.head?, isWordChar d = false) :
    operands (c :: cs) = [] := by
  conv_lhs => unfold operands
  rw [if_neg (by simp [hc])]
  cases cs with
  | nil => simp
  | cons d cs => simpa using hend

/-- From a word character on, the scanner takes operands. -/
theorem operands_of_word (hc : isWordChar c = true) (cs : List Char) :
    Operands (operands (c :: cs)) := by
  -- an operator is taken together with the word character behind it, so the induction is on the
  -- length
  induction hn : cs.length using Nat.strong_induction_on generalizing c cs with
  | _ n ih =>
    rw [operands_word hc]
    have hone : Operands [c] := .single (isWord_singleton hc)
    cases cs with
    | nil => exact hone
    | cons d cs =>
      simp only [List.length_cons] at hn
      cases hd : isWordChar d with
      | true => exact (ih cs.length (by omega) hd cs rfl).cons hc
      | false =>
        by_cases hop : isOperator d = true ∧ ∃ d' ∈ cs.head?, isWordChar d' = true
        · obtain ⟨ho, d', hhead, hd'⟩ := hop
          cases cs with
          | nil => cases hhead
          | cons e cs =>
            cases hhead
            simp only [List.length_cons] at hn
            rw [operands_operator ho hd']
            exact .joined (isWord_singleton hc) ho (ih cs.length (by omega) hd' cs rfl)
        · rw [operands_end hd (by simpa using hop)]
          exact hone

theorem reference_of_ne_nil (h : reference cs ≠ []) : Referral (reference cs) := by
  unfold reference at h ⊢
  split
  · split
    · rename_i hd
      exact .marked (operands_of_word hd _)
    · rename_i hd
      simp [hd] at h
  · simp at h

theorem signPart_append (h : Sign s) (hrest : ∀ c ∈ rest.head?, c ≠ '+' ∧ c ≠ '-') :
    signPart (s ++ rest) = s := by
  cases h with
  | absent =>
    cases rest with
    | nil => rfl
    | cons c rest =>
      obtain ⟨hplus, hminus⟩ := hrest c rfl
      simp [signPart, hplus, hminus]
  | plus => rfl
  | minus => rfl

theorem mantissaPart_append (hm : Mantissa m) (he : Exponent e) : mantissaPart (m ++ e) = m := by
  cases hm with
  | whole digits present =>
    obtain ⟨htake, hdrop⟩ := takeWhile_row digits he.stops.digit
    have hpoint : ∀ tail, e ≠ '.' :: tail := by
      intro tail heq
      cases he with
      | absent => cases heq
      | power mark sign digits present =>
        rcases mark with rfl | rfl <;> cases heq
    unfold mantissaPart
    rw [htake, hdrop]
    split
    · exact absurd rfl (hpoint _)
    · rfl
  | @pointed ds es digits digits' present =>
    obtain ⟨htake, hdrop⟩ := takeWhile_row digits (stops_point (es ++ e)).digit
    obtain ⟨htake', -⟩ := takeWhile_row digits' he.stops.digit
    rw [List.append_assoc, List.cons_append, mantissaPart]
    simp only [htake, hdrop, htake']
    rw [if_neg (by simpa [or_iff_not_imp_left] using present)]

theorem exponentPart_eq (h : Exponent e) : exponentPart e = e := by
  cases h with
  | absent => rfl
  | @power e s ds mark sign digits present =>
    have hsign : signPart (s ++ ds) = s := by
      have hunsigned : ∀ c ∈ (ds ++ []).head?, c ≠ '+' ∧ c ≠ '-' := digits.unsigned present
      rw [List.append_nil] at hunsigned
      exact signPart_append sign hunsigned
    have hdigits : ds.takeWhile isDigit = ds := List.takeWhile_eq_self_iff.mpr digits
    simp only [List.cons_append, exponentPart, if_pos mark, hsign, List.drop_left, hdigits]
    rw [if_neg (by simpa using present)]

theorem numeral_eq (h : Numeral cs) : numeral cs = cs := by
  cases h with
  | @signed s m e sign mantissa exponent =>
    have hne : m ≠ [] := by
      cases mantissa with
      | whole digits present => exact present
      | pointed digits digits' present => simp
    have hmantissa : mantissaPart ((s ++ (m ++ e)).drop s.length) = m := by
      rw [List.drop_left, mantissaPart_append mantissa exponent]
    have hexponent : exponentPart ((s ++ (m ++ e)).drop (s.length + m.length)) = e := by
      rw [← List.append_assoc, ← List.length_append, List.drop_left, exponentPart_eq exponent]
    simp only [numeral, signPart_append sign mantissa.unsigned, hmantissa, hexponent]
    rw [if_neg (by simpa using hne), List.append_assoc]

theorem operands_append (h : ∀ c ∈ w, isWordChar c = true) (rest : List Char) :
    operands (w ++ rest) = w ++ operands rest := by
  induction w with
  | nil => rfl
  | cons c w ih =>
    obtain ⟨hc, hw⟩ := List.forall_mem_cons.mp h
    rw [List.cons_append, operands_word hc, ih hw, List.cons_append]

theorem Operands.head (h : Operands cs) : ∃ d tail, cs = d :: tail ∧ isWordChar d = true := by
  have hword : ∀ {w : List Char}, IsWord w → ∃ d tail, w = d :: tail ∧ isWordChar d = true := by
    intro w hw
    obtain ⟨d, tail, rfl⟩ := List.exists_cons_of_ne_nil hw.1
    exact ⟨d, tail, rfl, hw.2 d List.mem_cons_self⟩
  cases h with
  | single word => exact hword word
  | joined word operator more =>
    obtain ⟨d, tail, rfl, hd⟩ := hword word
    exact ⟨d, _, rfl, hd⟩

theorem operands_eq (h : Operands cs) : operands cs = cs := by
  induction h with
  | @single w word =>
    have hall := operands_append word.2 []
    rwa [List.append_nil, operands, List.append_nil] at hall
  | joined word operator more ih =>
    obtain ⟨d, tail, rfl, hd⟩ := more.head
    rw [operands_append word.2, operands_operator operator hd, ih]

theorem reference_eq (h : Referral cs) : reference cs = cs := by
  cases h with
  | marked operands =>
    obtain ⟨d, tail, rfl, hd⟩ := operands.head
    rw [reference, if_pos hd, operands_eq operands]

theorem numeral_hash (cs : List Char) : numeral ('#' :: cs) = [] := by
  have hdigit : isDigit '#' = false := by decide
  simp [numeral, signPart, mantissaPart, hdigit]

theorem Numeral.ne_nil (h : Numeral cs) : cs ≠ [] := by
  cases h with
  | signed sign mantissa exponent =>
    cases mantissa with
    | whole digits present => simp [present]
    | pointed digits digits' present => simp

/-- A numeral or a reference is taken whole, as the value of a word. -/
theorem wordValue_eq (h : Numeral cs ∨ Referral cs) : wordValue cs = cs := by
  unfold wordValue
  rcases h with h | h
  · have hsome : cs.isEmpty = false := by simpa using h.ne_nil
    simp [numeral_eq h, hsome]
  · have hnone : numeral cs = [] := by
      cases h with
      | marked operands => exact numeral_hash _
    simp [hnone, reference_eq h]

theorem wordValue_of_ne_nil (h : wordValue cs ≠ []) :
    Numeral (wordValue cs) ∨ Referral (wordValue cs) := by
  simp only [wordValue] at h ⊢
  split
  · rename_i hnone
    rw [if_pos hnone] at h
    exact .inr (reference_of_ne_nil h)
  · rename_i hsome
    exact .inl (numeral_of_ne_nil (by simpa using hsome))

theorem solid_value (h : Numeral cs ∨ Referral cs) : ∀ c ∈ cs, isBlank c = false := by
  have hsolid := (solid_wordValue cs).unblanked
  rwa [wordValue_eq h] at hsolid

theorem value_ne_nil (h : Numeral cs ∨ Referral cs) : cs ≠ [] := by
  rcases h with h | h
  · exact h.ne_nil
  · cases h with
    | marked operands => simp

/-- Every numeral is a number. -/
theorem Numeral.number (h : Numeral cs) : ∃ x, ofChars? cs = some x ∧ x.isNaN = false := by
  have hne := h.ne_nil
  rw [← numeral_eq h] at hne ⊢
  exact numeral_value hne

/-- No reference is a number. -/
theorem Referral.no_number (h : Referral cs) : ofChars? cs = none := by
  cases h with
  | marked operands => exact ofChars_reference _

theorem Referral.head (h : Referral cs) : cs.head? = some '#' := by
  cases h with
  | marked operands => rfl

theorem Numeral.head (h : Numeral cs) : cs.head? ≠ some '#' := by
  intro hhead
  obtain ⟨x, hx, -⟩ := h.number
  cases cs with
  | nil => cases hhead
  | cons c cs =>
    cases hhead
    rw [ofChars_reference] at hx
    cases hx

/-- Every letter that heads words stands for itself. -/
theorem wordLetter?_char (l : Letter) :
    wordLetter? l.char = some l.char ∧ Letter.ofChar? l.char = some l ∧
    isBlank l.char = false ∧ l.char ≠ '(' ∧ l.char ≠ ';' ∧ l.char ≠ '[' := by
  cases l with
  | g | m | o | t | n => decide
  | axis i => cases i <;> decide
  | param d => cases d <;> decide

theorem splitAt_none {sep : Char} (h : sep ∉ cs) : splitAt sep cs = [cs] := by
  induction cs with
  | nil => rfl
  | cons c cs ih =>
    simp only [List.mem_cons, not_or] at h
    rw [splitAt, ih h.2]
    simp [Ne.symm h.1]

theorem trim_unblanked (h : ∀ c ∈ cs, isBlank c = false) : trim cs = cs := by
  by_cases hne : cs = []
  · rw [hne]
    rfl
  · apply trim_solid
    · exact ⟨cs.head hne, cs.tail, (List.cons_head_tail hne).symm, h _ (List.head_mem hne)⟩
    · exact ⟨cs.dropLast, cs.getLast hne, (List.dropLast_append_getLast hne).symm,
        h _ (List.getLast_mem hne)⟩

theorem scan_word_alone (l : Letter) (h : Numeral cs ∨ Referral cs) :
    ∃ t ∈ (scan (String.ofList (l.char :: cs))).1, t.kind = .word l ∧ t.value.toList = cs := by
  obtain ⟨hletter, hkind, hblank, hparen, hsemicolon, hbracket⟩ := wordLetter?_char l
  have hsolid : ∀ c ∈ l.char :: cs, isBlank c = false :=
    List.forall_mem_cons.mpr ⟨hblank, solid_value h⟩
  have hlines : lines (String.ofList (l.char :: cs)) = [l.char :: cs] := by
    rw [lines, String.toList_ofList]
    refine splitAt_none fun hmem => ?_
    exact absurd (hsolid _ hmem) (by decide)
  have hstep (width pos : Nat) : step 1 width pos l.char cs =
      ⟨[tokenAt 1 (.word l) cs pos (pos + cs.length + 1)], some cs.length⟩ := by
    simp only [step, hblank, hparen, hsemicolon, hbracket, hletter, word, wordValue_eq h, hkind]
    simp [value_ne_nil h]
  refine ⟨⟨.word l, String.ofList cs, 1, 0, cs.length + 1⟩, ?_, rfl, String.toList_ofList⟩
  rw [scan_tokens, hlines, rowsFrom_cons, List.append_assoc]
  refine List.mem_append_left _ (mem_tokens.mpr ?_)
  have hstart : trimStart (l.char :: cs) = l.char :: cs :=
    List.dropWhile_cons_of_neg (by simp [hblank])
  rw [scanLine, trim_unblanked hsolid, hstart, Nat.sub_self]
  unfold scanFrom
  rw [hstep]
  simp [tokenAt]

/-- The values of the words of a letter are the numerals and the references, all of them and nothing
else. -/
theorem exists_word_iff (l : Letter) (cs : List Char) :
    (∃ text, ∃ t ∈ (scan text).1, t.kind = .word l ∧ t.value.toList = cs) ↔
    Numeral cs ∨ Referral cs := by
  constructor
  · rintro ⟨text, t, ht, hk, rfl⟩
    obtain ⟨hne, cs, hcs⟩ := scan_valued ht hk
    rw [hcs]
    apply wordValue_of_ne_nil
    rw [← hcs]
    simpa using hne
  · intro h
    exact ⟨_, scan_word_alone l h⟩

/-- Scanner and reader agree on numbers. In every text, a word gives a number exactly if its value
does not begin with a number sign, and that number is never the one that is none. For the values of
words are the numerals and the references; each numeral is read as a number, and no reference is. -/
theorem words_read_iff :
    (∀ text t l, t ∈ (scan text).1 → t.kind = .word l →
      ((ofText? t.value).isSome = true ↔ t.value.toList.head? ≠ some '#') ∧
      ∀ x, ofText? t.value = some x → x.isNaN = false) ∧
    (∀ l cs, (∃ text, ∃ t ∈ (scan text).1, t.kind = .word l ∧ t.value.toList = cs) ↔
      Numeral cs ∨ Referral cs) ∧
    (∀ cs, Numeral cs → ∃ x, ofChars? cs = some x ∧ x.isNaN = false) ∧
    ∀ cs, Referral cs → ofChars? cs = none := by
  refine ⟨?_, exists_word_iff, fun cs h => h.number, fun cs h => h.no_number⟩
  intro text t l ht hk
  unfold ofText?
  rcases (exists_word_iff l t.value.toList).mp ⟨text, t, ht, hk, rfl⟩ with hnumeral | hreferral
  · obtain ⟨x, hx, hnan⟩ := hnumeral.number
    rw [hx]
    refine ⟨by simp [hnumeral.head], ?_⟩
    rintro y ⟨⟩
    exact hnan
  · rw [hreferral.no_number]
    exact ⟨by simp [hreferral.head], by simp⟩

/-- Digits of another script, a point with nothing behind it and an exponent are a number, also one
beyond the largest; a sum that begins with a variable is none. -/
theorem words_read_iff_scripts :
    (∀ t ∈ [(⟨.word (.axis .x), "٣.e-1", 1, 3, 9⟩ : Token), ⟨.word .t, "-.5E999", 1, 10, 18⟩],
      t ∈ (scan "G0 X٣.e-1 T-.5E999Y#a+1").1 ∧ (ofText? t.value).isSome = true) ∧
    (ofText? "#a+1").isSome = false := by
  have hscan : (⟨.word .g, "0", 1, 0, 2⟩ : Token) :: [⟨.word (.axis .x), "٣.e-1", 1, 3, 9⟩,
      ⟨.word .t, "-.5E999", 1, 10, 18⟩, ⟨.word (.axis .y), "#a+1", 1, 18, 23⟩,
      ⟨.newline, "\n", 1, 23, 23⟩, ⟨.endOfText, "", 1, 0, 0⟩] =
        (scan "G0 X٣.e-1 T-.5E999Y#a+1").1 := by decide +kernel
  have hread := words_read_iff.1 "G0 X٣.e-1 T-.5E999Y#a+1"
  rw [← hscan] at hread ⊢
  refine ⟨?_, ?_⟩
  · intro t ht
    simp only [List.mem_cons, List.not_mem_nil, or_false] at ht
    rcases ht with rfl | rfl
    · exact ⟨by simp, (hread _ (.axis .x) (by simp) rfl).1.mpr (by decide)⟩
    · exact ⟨by simp, (hread _ .t (by simp) rfl).1.mpr (by decide)⟩
  · rw [Bool.eq_false_iff]
    intro hsome
    exact (hread ⟨.word (.axis .y), "#a+1", 1, 18, 23⟩ (.axis .y) (by simp) rfl).1.mp hsome rfl

end Machining.Token
