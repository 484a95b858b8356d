import Machining.Text.Case
import Machining.Token.Scan
import Mathlib.Data.List.TakeWhile

namespace Machining

namespace Text

theorem trimStart_split (cs : List Char) :
    ∃ pre, cs = pre ++ trimStart cs ∧ ∀ c ∈ pre, isBlank c = true :=
  ⟨cs.takeWhile isBlank, List.takeWhile_append_dropWhile.symm, fun _ h => List.mem_takeWhile_imp h⟩

theorem trimEnd_split (cs : List Char) :
    ∃ post, cs = trimEnd cs ++ post ∧ ∀ c ∈ post, isBlank c = true := by
  refine ⟨(cs.reverse.takeWhile isBlank).reverse, ?_, ?_⟩
  · rw [trimEnd, ← List.reverse_append, List.takeWhile_append_dropWhile, List.reverse_reverse]
  · intro c h
    exact List.mem_takeWhile_imp (List.mem_reverse.mp h)

/-- A line is its trimmed part between blanks. -/
theorem trim_split (cs : List Char) :
    ∃ pre post, cs = pre ++ trim cs ++ post ∧ pre.length = cs.length - (trimStart cs).length ∧
      (∀ c ∈ pre, isBlank c = true) ∧ ∀ c ∈ post, isBlank c = true := by
  obtain ⟨pre, hpre, hblank⟩ := trimStart_split cs
  obtain ⟨post, hpost, hblank'⟩ := trimEnd_split (trimStart cs)
  refine ⟨pre, post, ?_, ?_, hblank, hblank'⟩
  · rw [trim, List.append_assoc, ← hpost]
    exact hpre
  · have h := congrArg List.length hpre
    rw [List.length_append] at h
    omega

theorem trimStart_append {c : Char} (hc : isBlank c = false) (pre rest : List Char) :
    trimStart (pre ++ c :: rest) = trimStart pre ++ c :: rest := by
  unfold trimStart
  rw [List.dropWhile_append]
  split
  · rename_i hnil
    rw [List.isEmpty_iff.mp hnil, List.dropWhile_cons_of_neg (by simp [hc]), List.nil_append]
  · rfl

theorem trimEnd_append {c : Char} (hc : isBlank c = false) (pre rest : List Char) :
    trimEnd (pre ++ c :: rest) = pre ++ c :: trimEnd rest := by
  have hstart := trimStart_append hc rest.reverse pre.reverse
  unfold trimStart at hstart
  unfold trimEnd
  rw [List.reverse_append, List.reverse_cons, List.append_assoc, List.singleton_append, hstart]
  simp

theorem trimStart_blank {pre : List Char} (h : ∀ c ∈ pre, isBlank c = true) : trimStart pre = [] :=
  List.dropWhile_eq_nil_iff.mpr h

theorem trimEnd_solid {core post : List Char}
    (hcore : ∃ init d, core = init ++ [d] ∧ isBlank d = false)
    (hpost : ∀ c ∈ post, isBlank c = true) : trimEnd (core ++ post) = core := by
  obtain ⟨init, d, rfl, hd⟩ := hcore
  have hnone : trimEnd post = [] := by simpa [trimEnd] using hpost
  rw [List.append_assoc, List.singleton_append, trimEnd_append hd, hnone]

/-- Trimming leaves what starts and ends with something else than a blank. -/
theorem trim_between {pre core post : List Char} (hpre : ∀ c ∈ pre, isBlank c = true)
    (hhead : ∃ c tail, core = c :: tail ∧ isBlank c = false)
    (hlast : ∃ init d, core = init ++ [d] ∧ isBlank d = false)
    (hpost : ∀ c ∈ post, isBlank c = true) : trim (pre ++ (core ++ post)) = core := by
  have hstart : trimStart (pre ++ (core ++ post)) = core ++ post := by
    obtain ⟨c, tail, rfl, hc⟩ := hhead
    rw [List.cons_append, trimStart_append hc, trimStart_blank hpre, List.nil_append]
  rw [trim, hstart, trimEnd_solid hlast hpost]

theorem trim_solid {cs : List Char} (hhead : ∃ c tail, cs = c :: tail ∧ isBlank c = false)
    (hlast : ∃ init d, cs = init ++ [d] ∧ isBlank d = false) : trim cs = cs := by
  have hnone : ∀ c ∈ ([] : List Char), isBlank c = true := by simp
  simpa using trim_between hnone hhead hlast hnone

theorem trimStart_head {c : Char} {cs ds : List Char} (h : trimStart cs = c :: ds) :
    isBlank c = false := by
  have hhead := List.head?_dropWhile_not isBlank cs
  rw [trimStart] at h
  rw [h] at hhead
  exact hhead

theorem trimStart_of_trim {cs : List Char} (h : trim cs = cs) : trimStart cs = cs := by
  obtain ⟨post, hpost, -⟩ := trimEnd_split (trimStart cs)
  have hlength : cs.length ≤ (trimStart cs).length := by
    have hsum := congrArg List.length hpost
    rw [← trim, h, List.length_append] at hsum
    omega
  exact (List.dropWhile_suffix isBlank).eq_of_length_le hlength

/-- What trimming leaves as it is starts and ends with something else than a blank. -/
theorem solid_of_trim {cs : List Char} (h : trim cs = cs) (hne : cs ≠ []) :
    (∃ c tail, cs = c :: tail ∧ isBlank c = false) ∧ ∃ init d, cs = init ++ [d] ∧
    isBlank d = false := by
  have hstart := trimStart_of_trim h
  have hend : trimStart cs.reverse = cs.reverse := by
    rw [trim, hstart] at h
    exact List.reverse_eq_iff.mp h
  constructor
  · obtain ⟨c, tail, rfl⟩ := List.exists_cons_of_ne_nil hne
    exact ⟨c, tail, rfl, trimStart_head hstart⟩
  · obtain ⟨d, init, hd⟩ := List.exists_cons_of_ne_nil (List.reverse_ne_nil_iff.mpr hne)
    rw [hd] at hend
    exact ⟨init.reverse, d,
      by rw [← List.reverse_cons, ← hd, List.reverse_reverse], trimStart_head hend⟩

def blankRuns : List (Nat × Nat) :=
  [(0x9, 0xD), (0x1C, 0x20), (0x85, 0x85), (0xA0, 0xA0), (0x1680, 0x1680), (0x2000, 0x200A),
    (0x2028, 0x2029), (0x202F, 0x202F), (0x205F, 0x205F), (0x3000, 0x3000)]

theorem inRuns_of_isBlank {c : Char} (h : isBlank c = true) : inRuns blankRuns c.toNat = true := by
  simp only [isBlank, Bool.or_eq_true, Bool.and_eq_true, decide_eq_true_eq] at h
  simp only [inRuns, blankRuns, List.any_cons, List.any_nil, Bool.or_false, Bool.or_eq_true,
    Bool.and_eq_true, decide_eq_true_eq]
  omega

/-- No code point lies in runs that are apart from each other. -/
theorem inRuns_apart (runs others : List (Nat × Nat)) {n : Nat}
    (apart : (runs.all fun r => others.all fun s => decide (r.2 < s.1) || decide (s.2 < r.1)) =
      true)
    (h : inRuns others n = true) : inRuns runs n = false := by
  obtain ⟨s, hs, hn⟩ := List.any_eq_true.mp h
  apply List.any_eq_false.mpr
  intro r hr hrn
  have hrs := List.all_eq_true.mp (List.all_eq_true.mp apart r hr) s hs
  simp only [Bool.or_eq_true, Bool.and_eq_true, decide_eq_true_eq] at hrs hn hrn
  omega

theorem ascii_blank {n : Nat} (h : inRuns blankRuns n = true) (ha : n < 0x80) : n ≤ 0x20 := by
  simp only [inRuns, blankRuns, List.any_cons, List.any_nil, Bool.or_false, Bool.or_eq_true,
    Bool.and_eq_true, decide_eq_true_eq] at h
  omega

theorem solid_digit {c : Char} (h : isDigit c = true) : inRuns blankRuns c.toNat = false := by
  have apart :=
    inRuns_apart (n := c.toNat) (digitZeros.map fun z => (z, z + 9)) blankRuns (by decide +kernel)
  cases hb : inRuns blankRuns c.toNat with
  | false => rfl
  | true =>
    have hno := List.any_eq_false.mp (apart hb)
    simp only [isDigit, digitValue?] at h
    split at h
    · have := ascii_blank hb ‹_›
      split at h
      · omega
      · cases h
    · rw [Option.isSome_map] at h
      obtain ⟨z, hz⟩ := Option.isSome_iff_exists.mp h
      have hmem := List.mem_of_find?_eq_some hz
      exact absurd (List.find?_some hz) (hno (z, z + 9) (List.mem_map.mpr ⟨z, hmem, rfl⟩))

theorem code_of_isAlpha {c : Char} (h : c.isAlpha = true) : 0x41 ≤ c.toNat ∧ c.toNat ≤ 0x7A := by
  rcases (Bool.or_eq_true _ _).mp h with h | h
  · obtain ⟨hlo, hhi⟩ := of_decide_eq_true h
    have hlo : 0x41 ≤ c.toNat := UInt32.le_iff_toNat_le.mp hlo
    have hhi : c.toNat ≤ 0x5A := UInt32.le_iff_toNat_le.mp hhi
    omega
  · obtain ⟨hlo, hhi⟩ := (Bool.and_eq_true _ _).mp h
    have hlo : 0x61 ≤ c.toNat := UInt32.le_iff_toNat_le.mp (of_decide_eq_true hlo)
    have hhi : c.toNat ≤ 0x7A := UInt32.le_iff_toNat_le.mp (of_decide_eq_true hhi)
    omega

theorem code_of_isDigit {c : Char} (h : c.isDigit = true) : 0x30 ≤ c.toNat ∧ c.toNat ≤ 0x39 := by
  simp only [Char.isDigit, Bool.and_eq_true, decide_eq_true_eq, ge_iff_le,
    UInt32.le_iff_toNat_le] at h
  exact h

theorem solid_wordChar {c : Char} (h : isWordChar c = true) : inRuns blankRuns c.toNat = false := by
  have letters := inRuns_apart (n := c.toNat) letterRuns blankRuns (by decide +kernel)
  have numerals := inRuns_apart (n := c.toNat) numeralRuns blankRuns (by decide +kernel)
  cases hb : inRuns blankRuns c.toNat with
  | false => rfl
  | true =>
    simp only [isWordChar, isLetter, isNumeral, Bool.or_eq_true, decide_eq_true_eq] at h
    rcases h with (rfl | h) | h
    · exact absurd hb (by decide)
    · split at h
      · have := ascii_blank hb ‹_›
        have := code_of_isAlpha h
        omega
      · rw [letters hb] at h
        cases h
    · split at h
      · have := ascii_blank hb ‹_›
        have := (code_of_isDigit h).1
        omega
      · rw [numerals hb] at h
        cases h

/-- Digits and the characters of words are no blanks. -/
theorem solid_of_class {c : Char} (h : isDigit c = true ∨ isWordChar c = true) :
    isBlank c = false := by
  cases hb : isBlank c with
  | false => rfl
  | true =>
    have hin := inRuns_of_isBlank hb
    rcases h with h | h
    · rw [solid_digit h] at hin
      cases hin
    · rw [solid_wordChar h] at hin
      cases hin

end Text

namespace Token
open Text

/-- The part of a word behind its letter is a stretch of the line without blanks. -/
structure Solid (part cs : List Char) : Prop where
  stretch : part <+: cs
  unblanked : ∀ c ∈ part, isBlank c = false

theorem Solid.nil (cs : List Char) : Solid [] cs := ⟨List.nil_prefix, by simp⟩

theorem Solid.cons {part cs : List Char} {c : Char} (hc : isBlank c = false) (h : Solid part cs) :
    Solid (c :: part) (c :: cs) := by
  refine ⟨List.cons_prefix_cons.mpr ⟨rfl, h.stretch⟩, ?_⟩
  intro d hd
  rcases List.mem_cons.mp hd with rfl | hd
  · exact hc
  · exact h.unblanked d hd

/-- Two stretches, one after the other, make one. -/
theorem Solid.append {part part' cs : List Char} (h : Solid part cs)
    (h' : Solid part' (cs.drop part.length)) : Solid (part ++ part') cs := by
  obtain ⟨rest, rfl⟩ := h.stretch
  rw [List.drop_left] at h'
  obtain ⟨rest', rfl⟩ := h'.stretch
  refine ⟨⟨rest', by simp⟩, ?_⟩
  intro c hc
  rcases List.mem_append.mp hc with hc | hc
  · exact h.unblanked c hc
  · exact h'.unblanked c hc

theorem solid_digits (cs : List Char) : Solid (cs.takeWhile isDigit) cs :=
  ⟨List.takeWhile_prefix isDigit, fun _ h => solid_of_class (.inl (List.mem_takeWhile_imp h))⟩

theorem solid_sign (cs : List Char) : Solid (signPart cs) cs := by
  unfold signPart
  split
  · exact .cons (by decide) (.nil _)
  · exact .cons (by decide) (.nil _)
  · exact .nil _

theorem drop_takeWhile (p : Char → Bool) (cs : List Char) :
    cs.drop (cs.takeWhile p).length = cs.dropWhile p := by
  induction cs with
  | nil => rfl
  | cons c cs ih =>
    cases hc : p c with
    | false => simp [hc]
    | true => simp [hc, ih]

theorem solid_mantissa (cs : List Char) : Solid (mantissaPart cs) cs := by
  simp only [mantissaPart]
  have hwhole := solid_digits cs
  split
  · rename_i rest hrest
    split
    · exact .nil _
    · apply hwhole.append
      rw [drop_takeWhile, hrest]
      exact .cons (by decide) (solid_digits rest)
  · exact hwhole

theorem solid_exponent (cs : List Char) : Solid (exponentPart cs) cs := by
  simp only [exponentPart]
  split
  · rename_i e rest
    split
    · rename_i he
      split
      · exact .nil _
      · have hsolid : isBlank e = false := by
          rcases he with rfl | rfl <;> decide
        exact .cons hsolid ((solid_sign rest).append (solid_digits _))
    · exact .nil _
  · exact .nil _

theorem solid_numeral (cs : List Char) : Solid (numeral cs) cs := by
  simp only [numeral]
  split
  · exact .nil _
  · apply Solid.append
    · exact (solid_sign cs).append (solid_mantissa _)
    · rw [List.length_append]
      exact solid_exponent _

theorem solid_operands (cs : List Char) : Solid (operands cs) cs := by
  induction cs with
  | nil => exact .nil _
  | cons c cs ih =>
    unfold operands
    split
    · rename_i hc
      exact .cons (solid_of_class (.inr hc)) ih
    · split_ifs with hop
      · have hc : isBlank c = false := by
          simp only [isOperator, Bool.and_eq_true, Bool.or_eq_true, decide_eq_true_eq] at hop
          rcases hop.1 with ((rfl | rfl) | rfl) | rfl <;> decide
        exact .cons hc ih
      · exact .nil _

theorem solid_reference (cs : List Char) : Solid (reference cs) cs := by
  unfold reference
  split
  · split
    · exact .cons (by decide) (solid_operands _)
    · exact .nil _
  · exact .nil _

theorem solid_wordValue (cs : List Char) : Solid (wordValue cs) cs := by
  simp only [wordValue]
  split
  · exact solid_reference cs
  · exact solid_numeral cs

theorem Letter.char_of_ofChar? {c : Char} {l : Letter} (h : Letter.ofChar? c = some l) :
    l.char = c := by
  simpa using List.find?_some h

/-- The capital form of an ASCII character is a single one. -/
theorem upperForm_ascii {c : Char} (h : c.toNat < 0x80) : upperForm c = [c.toUpper] := by
  have table : ∀ e ∈ longCapitals, 0x80 ≤ e.1 := by decide +kernel
  have hnone : (longCapitals.find? fun e => e.1 = c.toNat) = none := by
    apply List.find?_eq_none.mpr
    intro e he
    have := table e he
    simp only [decide_eq_true_eq]
    omega
  rw [upperForm, hnone, upperChar, if_pos h]

theorem eq_of_code {c : Char} {n : Nat} (h : c.toNat = n) : c = Char.ofNat n := by
  rw [← h, Char.ofNat_toNat]

/-- A letter that heads words of a known kind is the capital form of the character: of an ASCII
letter, or of one of the two small letters outside ASCII that have such a form. -/
theorem upperForm_of_letter {c letter : Char} {l : Letter} (h : wordLetter? c = some letter)
    (hl : Letter.ofChar? letter = some l) : upperForm c = [l.char] := by
  rw [Letter.char_of_ofChar? hl]
  simp only [wordLetter?] at h
  split at h
  · rename_i hα
    cases h
    have := code_of_isAlpha hα
    exact upperForm_ascii (by omega)
  · split at h
    · rename_i hc
      cases h
      rw [eq_of_code hc]
      decide +kernel
    · rename_i hc
      cases h
      rw [eq_of_code hc]
      decide +kernel
    · rename_i hc
      cases h
      have hno : Letter.ofChar? (Char.ofNat 0x130) = none := by decide
      rw [eq_of_code hc, hno] at hl
      cases hl
    · rename_i hc
      cases h
      have hno : Letter.ofChar? (Char.ofNat 0x212A) = none := by decide
      rw [eq_of_code hc, hno] at hl
      cases hl
    · cases h

inductive Piece (line pos : Nat) : List Char → Item → Prop where
  | word {c : Char} {value : List Char} (l : Letter) (capital : upperForm c = [l.char])
      (present : value ≠ []) (unblanked : ∀ d ∈ value, isBlank d = false)
      (read : ∃ cs, wordValue cs = value) :
      Piece line pos (c :: value) (tokenAt line (.word l) value pos (pos + value.length + 1))
  | expression {body : List Char} (closed : ']' ∉ body) :
      Piece line pos ('[' :: body ++ [']'])
        (tokenAt line .expression body pos (pos + body.length + 2))
  | unknown {c : Char} {value : List Char} (letter : Char) :
      Piece line pos (c :: value)
        (reportAt line pos (pos + value.length + 1) s!"Unknown G-code letter: {letter}")
  | stray (c : Char) :
      Piece line pos [c] (reportAt line pos (pos + 1) s!"Unrecognized character: '{c}'")

/-- A comment with which a line ends, and its items. What follows a closing parenthesis is
dropped. -/
inductive Remark (line width pos : Nat) : List Char → List Item → Prop where
  | closed {body rest value : List Char} (kind : CommentKind) (inner : ')' ∉ body)
      (plain : kind = .plain → value = body) :
      Remark line width pos ('(' :: body ++ ')' :: rest)
        [tokenAt line (.comment kind) value pos (pos + body.length + 2)]
  | unclosed {body : List Char} (inner : ')' ∉ body) :
      Remark line width pos ('(' :: body)
        [reportAt line pos width "Unclosed parenthesis in comment",
          tokenAt line (.comment .plain) body pos width]
  | semicolon (body : List Char) :
      Remark line width pos (';' :: body) [tokenAt line (.comment .plain) body pos width]

/-- The items of the characters that stand from column `pos` on in a line of `width` columns. -/
inductive Laid (line width : Nat) : Nat → List Char → List Item → Prop where
  | done (pos : Nat) : Laid line width pos [] []
  | blank {pos : Nat} {c : Char} {cs : List Char} {items : List Item} (gap : isBlank c = true)
      (behind : Laid line width (pos + 1) cs items) : Laid line width pos (c :: cs) items
  | piece {pos : Nat} {taken cs : List Char} {item : Item} {items : List Item}
      (fits : Piece line pos taken item) (behind : Laid line width (pos + taken.length) cs items) :
      Laid line width pos (taken ++ cs) (item :: items)
  | remark {pos : Nat} {cs : List Char} {items : List Item}
      (ends : Remark line width pos cs items) :
      Laid line width pos cs items

inductive Found (line width pos : Nat) (c : Char) (cs : List Char) : Step → Prop where
  | gap (blank : isBlank c = true) : Found line width pos c cs ⟨[], some 0⟩
  | piece {taken rest : List Char} {item : Item} (split : cs = taken ++ rest)
      (fits : Piece line pos (c :: taken) item) :
      Found line width pos c cs ⟨[item], some taken.length⟩
  | remark {items : List Item} (ends : Remark line width pos (c :: cs) items) :
      Found line width pos c cs ⟨items, none⟩

variable {line width pos : Nat} {c : Char} {cs : List Char}

theorem unrecognized_found (line width pos : Nat) (c : Char) (cs : List Char) :
    Found line width pos c cs (unrecognized line pos c) := by
  have hsplit : cs = [] ++ cs := rfl
  exact .piece hsplit (.stray c)

/-- A character that occurs cuts a list in two at its first occurrence. -/
theorem takeWhile_ne_split {e : Char} (h : e ∈ cs) :
    ∃ rest, cs = cs.takeWhile (· ≠ e) ++ e :: rest := by
  induction cs with
  | nil => simp at h
  | cons d cs ih =>
    by_cases hd : d = e
    · exact ⟨cs, by simp [hd]⟩
    · obtain ⟨rest, hrest⟩ := ih (by simpa [Ne.symm hd] using h)
      refine ⟨rest, ?_⟩
      rw [List.takeWhile_cons_of_pos (by simpa using hd), List.cons_append, ← hrest]

theorem not_mem_takeWhile_ne (e : Char) (cs : List Char) : e ∉ cs.takeWhile (· ≠ e) := by
  intro h
  simpa using List.mem_takeWhile_imp h

theorem dropWhile_ne_isEmpty {e : Char} : (cs.dropWhile (· ≠ e)).isEmpty = true ↔ e ∉ cs := by
  rw [List.isEmpty_iff, List.dropWhile_eq_nil_iff]
  exact ⟨fun h he => by simpa using h e he, fun h x hx => by simpa using ne_of_mem_of_not_mem hx h⟩

/-- Every tag announces something, so a plain comment is one without a tag. -/
theorem classify_plain (body : List Char) (h : (classify body).1 = .plain) :
    (classify body).2 = body := by
  simp only [classify] at h ⊢
  split
  · rename_i tag kind hfind
    have table : ∀ e ∈ tags, e.2 ≠ .plain := by decide
    simp only [hfind] at h
    exact absurd h (table (tag, kind) (List.mem_of_find?_eq_some hfind))
  · rfl

theorem comment_found (line width pos : Nat) (cs : List Char) :
    Found line width pos '(' cs (comment line width pos cs) := by
  simp only [comment]
  split
  · rename_i h
    exact .remark (.unclosed (dropWhile_ne_isEmpty.mp h))
  · rename_i h
    obtain ⟨rest, hrest⟩ := takeWhile_ne_split (not_not.mp (mt dropWhile_ne_isEmpty.mpr h))
    have hinner := not_mem_takeWhile_ne ')' cs
    generalize cs.takeWhile (· ≠ ')') = body at hrest hinner ⊢
    rw [hrest]
    exact .remark (.closed (classify body).1 hinner (classify_plain body))

theorem bracketed_found (line width pos : Nat) (cs : List Char) :
    Found line width pos '[' cs (bracketed line pos cs) := by
  simp only [bracketed]
  split
  · exact unrecognized_found line width pos '[' cs
  · rename_i h
    rw [Bool.or_eq_true, not_or] at h
    obtain ⟨rest, hrest⟩ := takeWhile_ne_split (not_not.mp (mt dropWhile_ne_isEmpty.mpr h.2))
    have hinner := not_mem_takeWhile_ne ']' cs
    generalize cs.takeWhile (· ≠ ']') = body at hrest hinner ⊢
    have hlen : body.length + 1 = (body ++ [']']).length := by simp
    rw [hlen]
    exact .piece (by simpa using hrest) (.expression hinner)

theorem word_found {letter : Char} (h : wordLetter? c = some letter) :
    Found line width pos c cs (word line pos c letter cs) := by
  simp only [word]
  have hsolid := solid_wordValue cs
  split
  · exact unrecognized_found line width pos c cs
  · rename_i hv
    obtain ⟨rest, hrest⟩ := hsolid.stretch
    split
    · rename_i l hl
      exact .piece hrest.symm (.word l (upperForm_of_letter h hl) (by simpa using hv)
        hsolid.unblanked ⟨cs, rfl⟩)
    · exact .piece hrest.symm (.unknown letter)

theorem step_found (line width pos : Nat) (c : Char) (cs : List Char) :
    Found line width pos c cs (step line width pos c cs) := by
  unfold step
  split_ifs with hb hp hs he
  · exact .gap hb
  · rw [hp]
    exact comment_found line width pos cs
  · rw [hs]
    exact .remark (.semicolon cs)
  · rw [he]
    exact bracketed_found line width pos cs
  · split
    · rename_i letter hw
      exact word_found hw
    · exact unrecognized_found line width pos c cs

/-- Skipping characters is starting behind them. -/
theorem scanFrom_skip (line width pos skip : Nat) (cs : List Char) :
    scanFrom line width pos skip cs = scanFrom line width (pos + skip) 0 (cs.drop skip) := by
  induction cs generalizing pos skip with
  | nil => cases skip <;> rfl
  | cons c cs ih =>
    cases skip with
    | zero => rfl
    | succ skip =>
      have hnext : scanFrom line width pos (skip + 1) (c :: cs) =
          scanFrom line width (pos + 1) skip cs := rfl
      rw [hnext, ih, List.drop_succ_cons]
      congr 1
      omega

/-- Scanning lays the characters out. -/
theorem scanFrom_laid (line width pos : Nat) (cs : List Char) :
    Laid line width pos cs (scanFrom line width pos 0 cs) := by
  -- a piece may take several characters, so the induction is on how many are left
  induction hn : cs.length using Nat.strongRecOn generalizing pos cs with
  | ind n ih =>
    cases cs with
    | nil => exact .done pos
    | cons c cs =>
      have hstep := step_found line width pos c cs
      unfold scanFrom
      generalize step line width pos c cs = s at hstep
      cases hstep with
      | gap blank => exact .blank blank (ih cs.length (by simp [← hn]) _ cs rfl)
      | @piece taken rest item split fits =>
        subst split
        have hrest : scanFrom line width (pos + 1) taken.length (taken ++ rest) =
            scanFrom line width (pos + (c :: taken).length) 0 rest := by
          rw [scanFrom_skip, List.drop_left, List.length_cons]
          congr 1
          omega
        simp only [hrest]
        have hshort : rest.length < n := by
          rw [← hn]
          simp only [List.length_cons, List.length_append]
          omega
        exact .piece fits (ih rest.length hshort _ rest rfl)
      | remark ends =>
        simp only [List.append_nil]
        exact .remark ends

end Token
end Machining
