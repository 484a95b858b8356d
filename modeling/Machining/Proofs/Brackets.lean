import Machining.Proofs.Alternation
import Machining.Proofs.Lexing

namespace Machining.Expression

/-- Square brackets pair up, `k` of them being open already. Behind a hash nothing is asked. -/
def SquaresClose : Nat → List Char → Prop
  | k, [] => k = 0
  | k, c :: cs =>
    if c = '[' then SquaresClose (k + 1) cs
    else if c = ']' then 0 < k ∧ SquaresClose (k - 1) cs
    else c = '#' ∨ SquaresClose k cs

section
variable {k fuel : Nat} {c : Char} {cs text rest : List Char} {p q : Place} {found : Found}

def NoSquares (cs : List Char) : Prop := ∀ c ∈ cs, c ≠ '[' ∧ c ≠ ']'

theorem SquaresClose.cons (h : SquaresClose k cs) (hc : c ≠ '[' ∧ c ≠ ']') :
    SquaresClose k (c :: cs) := by
  rw [SquaresClose, if_neg hc.1, if_neg hc.2]
  exact .inr h

theorem SquaresClose.append (h : SquaresClose k rest) (htext : NoSquares text) :
    SquaresClose k (text ++ rest) := by
  induction text with
  | nil => exact h
  | cons c text ih =>
    obtain ⟨hc, htext⟩ := List.forall_mem_cons.mp htext
    exact (ih htext).cons hc

theorem SquaresClose.of_drop {n : Nat} (h : SquaresClose k (cs.drop n)) (hc : c ≠ '[' ∧ c ≠ ']')
    (hcs : NoSquares (cs.take n)) : SquaresClose k (c :: cs) := by
  have hdropped := (h.append hcs).cons hc
  rwa [List.take_append_drop] at hdropped

/-- Nothing closes the brackets that are open. -/
theorem SquaresClose.no_opening (h : SquaresClose k cs) (hclose : ']' ∉ cs) (hhash : '#' ∉ cs) :
    k = 0 ∧ '[' ∉ cs := by
  induction cs generalizing k with
  | nil => exact ⟨h, by simp⟩
  | cons c cs ih =>
    simp only [List.mem_cons, not_or] at hclose hhash
    rw [SquaresClose] at h
    split at h
    · cases (ih h hclose.2 hhash.2).1
    · rename_i hopen
      rw [if_neg (Ne.symm hclose.1)] at h
      rcases h with heq | h
      · exact absurd heq.symm hhash.1
      · obtain ⟨hk, hcs⟩ := ih h hclose.2 hhash.2
        exact ⟨hk, by simp [Ne.symm hopen, hcs]⟩

/-- There is nothing to close yet. -/
theorem not_squaresClose_closing (hopen : '[' ∉ text) (hhash : '#' ∉ text) :
    ¬ SquaresClose 0 (text ++ ']' :: rest) := by
  induction text with
  | nil => simp [SquaresClose]
  | cons c text ih =>
    simp only [List.mem_cons, not_or] at hopen hhash
    rw [List.cons_append, SquaresClose, if_neg (Ne.symm hopen.1)]
    split
    · exact fun h => absurd h.1 (Nat.lt_irrefl 0)
    · rintro (heq | h)
      · exact hhash.1 heq.symm
      · exact ih hopen.2 hhash.2 h

def Place.squares (p : Place) : Nat := p.brackets.countP fun b => b.opening = '['

theorem bracketed_squares (h : bracketed p c = .ok q) (hrest : SquaresClose q.squares cs) :
    SquaresClose p.squares (c :: cs) := by
  unfold bracketed at h
  split at h
  · rename_i hopening
    split at h
    · obtain rfl := Except.ok.inj h
      by_cases hc : c = '['
      · rw [SquaresClose, if_pos hc]
        simpa [Place.squares, hc] using hrest
      · have hother : c ≠ ']' := by
          rintro rfl
          simp at hopening
        refine SquaresClose.cons ?_ ⟨hc, hother⟩
        simpa [Place.squares, hc] using hrest
    · cases h
  · rename_i hopening
    simp only [not_or] at hopening
    split at h
    · split at h
      · cases h
      · rename_i b outer hbrackets
        split at h
        · rename_i hclosing
          obtain rfl := Except.ok.inj h
          by_cases hc : c = ']'
          · have hb : b.opening = '[' := by
              rw [hc, closing] at hclosing
              by_contra hne
              rw [if_neg hne] at hclosing
              split at hclosing <;> cases hclosing
            rw [SquaresClose, if_neg hopening.2.1, if_pos hc]
            simpa [Place.squares, hbrackets, hb] using hrest
          · have hb : b.opening ≠ '[' := by
              intro hb
              rw [hb] at hclosing
              exact hc hclosing.symm
            refine SquaresClose.cons ?_ ⟨hopening.2.1, hc⟩
            simpa [Place.squares, hbrackets, hb] using hrest
        · cases h
    · rename_i hclosing
      simp only [not_or] at hclosing
      obtain rfl := Except.ok.inj h
      exact hrest.cons ⟨hopening.2.1, hclosing.2.1⟩

theorem symbols_noSquares :
    symbols.all (fun s => s.toList.all fun c => c ≠ '[' ∧ c ≠ ']') = true := by decide +kernel

/-- A symbol of several characters is the head of the text it is found in. -/
theorem symbol_split {s : String}
    (h : symbols.find? (fun s => s.toList.isPrefixOf (c :: cs)) = some s) :
    ∃ ds, s.toList = c :: ds ∧ ds <+: cs ∧ NoSquares (c :: ds) := by
  have hmem := List.mem_of_find?_eq_some h
  have hall := List.all_eq_true.mp symbols_noSquares s hmem
  have hstarts : s.toList <+: c :: cs := by
    have hfound := List.find?_some h
    simpa using hfound
  cases hs : s.toList with
  | nil =>
    have hnone : ∃ s ∈ symbols, s.toList = [] := ⟨s, hmem, hs⟩
    simp [symbols] at hnone
  | cons d ds =>
    rw [hs] at hstarts hall
    obtain ⟨rfl, htail⟩ := List.cons_prefix_cons.mp hstarts
    refine ⟨ds, rfl, htail, ?_⟩
    intro x hx
    simpa using List.all_eq_true.mp hall x hx

/-- A lexeme takes characters of its text, and none of them is a square bracket but the one it may
be. -/
structure Found.Within (found : Found) (p : Place) (c : Char) (cs : List Char) : Prop where
  inner : found.lexeme.Inner
  size : found.size ≤ cs.length + 1
  squares : SquaresClose found.behind.squares (cs.drop (found.size - 1)) →
    SquaresClose p.squares (c :: cs)

theorem symbolAt_within (h : symbolAt p (c :: cs) = .ok found) : found.Within p c cs := by
  unfold symbolAt at h
  split at h
  · rename_i s hfind
    obtain rfl := Except.ok.inj h
    obtain ⟨ds, hs, ⟨tail, rfl⟩, hall⟩ := symbol_split hfind
    have hlength : s.length = ds.length + 1 := by rw [← String.length_toList, hs, List.length_cons]
    refine ⟨⟨Lexeme.noConfusion, Lexeme.noConfusion⟩, ?_, ?_⟩
    · simp only [hlength, List.length_append]
      omega
    · intro hrest
      simp only [hlength, Nat.add_sub_cancel, List.drop_left] at hrest
      exact hrest.append hall
  · cases hbehind : bracketed p c with
    | error e =>
      simp only [hbehind, bind, Except.bind] at h
      cases h
    | ok behind =>
      simp only [hbehind, bind, Except.bind] at h
      split at h
      · obtain rfl := Except.ok.inj h
        exact ⟨⟨Lexeme.noConfusion, Lexeme.noConfusion⟩, Nat.le_add_left _ _,
          bracketed_squares hbehind⟩
      · cases h

theorem numeralAlphabet_noSquares : NoSquares numeralAlphabet := by
  intro c hc
  constructor <;> rintro rfl <;> simp [numeralAlphabet] at hc

theorem ne_square_of_isWordLike (h : isWordLike c = true) : c ≠ '[' ∧ c ≠ ']' := by
  constructor <;> rintro rfl <;> cases h

theorem numeral_within {n : FoundNumeral} (hstarts : startsNumeral (c :: cs) = true)
    (h : numeral (c :: cs) = .ok n) : (Found.mk (.numeral n.numeral) n.size p).Within p c cs := by
  obtain ⟨d, tail, heq, hd⟩ := head_of_startsNumeral hstarts
  obtain ⟨rfl, rfl⟩ := List.cons.inj heq
  have hc : c ≠ '[' ∧ c ≠ ']' := by
    rcases hd with rfl | hdigit
    · decide
    · exact ⟨ne_of_isDigit hdigit rfl, ne_of_isDigit hdigit rfl⟩
  obtain ⟨text, behind, hsplit, hsize, hmem⟩ := numeral_split h
  have hlength := congrArg List.length hsplit
  rw [List.length_append, List.length_cons] at hlength
  refine ⟨⟨Lexeme.noConfusion, Lexeme.noConfusion⟩, ?_, ?_⟩
  · simp only [hsize]
    omega
  · intro hrest
    refine SquaresClose.of_drop hrest hc ?_
    intro x hx
    cases text with
    | nil => simp [hsize] at hx
    | cons d text =>
      rw [List.cons_append] at hsplit
      obtain ⟨rfl, rfl⟩ := List.cons.inj hsplit
      simp only [hsize, List.length_cons, Nat.add_sub_cancel, List.take_left] at hx
      exact numeralAlphabet_noSquares x (hmem x (List.mem_cons_of_mem _ hx))

theorem name_within (hc : isWordLike c = true) {s : String} :
    (Found.mk (.name s) ((c :: cs).takeWhile isWordLike).length p).Within p c cs := by
  rw [List.takeWhile_cons_of_pos hc]
  obtain ⟨tail, htail⟩ := List.takeWhile_prefix (l := cs) isWordLike
  have hlength := congrArg List.length htail
  rw [List.length_append] at hlength
  refine ⟨⟨Lexeme.noConfusion, Lexeme.noConfusion⟩, ?_, ?_⟩
  · simp only [List.length_cons]
    omega
  · intro hrest
    refine SquaresClose.of_drop hrest (ne_square_of_isWordLike hc) ?_
    intro x hx
    rw [List.length_cons, Nat.add_sub_cancel] at hx
    nth_rewrite 2 [← htail] at hx
    rw [List.take_left] at hx
    exact ne_square_of_isWordLike (List.all_eq_true.mp List.all_takeWhile x hx)

theorem quoted_text {letters : Nat} (h : quoted p letters cs = .ok found) :
    found.lexeme = .text := by
  unfold quoted at h
  split at h
  · simp only at h
    split at h
    · obtain rfl := Except.ok.inj h
      rfl
    · cases h
  · obtain rfl := Except.ok.inj h
    rfl

theorem lexemeAt_unquoted (hmarks : quoteMarks (c :: cs) = none)
    (h : lexemeAt p (c :: cs) = .ok found) : found.Within p c cs := by
  rw [lexemeAt, hmarks] at h
  simp only at h
  split at h
  · rename_i hstarts
    split at h
    · rename_i n hnumeral
      obtain rfl := Except.ok.inj h
      exact numeral_within hstarts hnumeral
    · cases h
  · split at h
    · exact symbolAt_within h
    · rename_i hrun
      split at h
      · cases h
      · obtain rfl := Except.ok.inj h
        apply name_within
        by_contra hword
        rw [List.takeWhile_cons_of_neg hword] at hrun
        exact hrun rfl

theorem lexemeAt_within (h : lexemeAt p (c :: cs) = .ok found) (htext : found.lexeme ≠ .text) :
    found.Within p c cs := by
  cases hmarks : quoteMarks (c :: cs) with
  | none => exact lexemeAt_unquoted hmarks h
  | some letters =>
    rw [lexemeAt, hmarks] at h
    exact absurd (quoted_text h) htext

def Complete (ls : List Placed) : Prop :=
  ∃ xs more, ls.map Placed.lexeme = xs ++ .finish :: more ∧ .text ∉ xs

theorem Complete.cases {l : Placed} {ls : List Placed} (h : Complete (l :: ls)) :
    l.lexeme = .finish ∨ (l.lexeme ≠ .text ∧ Complete ls) := by
  obtain ⟨xs, more, heq, htext⟩ := h
  cases xs with
  | nil => exact .inl (List.cons.inj heq).1
  | cons x xs =>
    obtain ⟨hx, htail⟩ := List.cons.inj heq
    simp only [List.mem_cons, not_or] at htext
    exact .inr ⟨fun htext' => htext.1 (by rw [← htext', hx]), xs, more, htail, htext.2⟩

theorem Complete.tail {l : Placed} {ls : List Placed} (h : Complete (l :: ls))
    (hl : l.lexeme ≠ .finish) : Complete ls := by
  rcases h.cases with hfinish | ⟨-, hls⟩
  · exact absurd hfinish hl
  · exact hls

theorem not_complete_nil : ¬ Complete [] := by
  rintro ⟨xs, more, heq, -⟩
  simp at heq

theorem not_complete_singleton {l : Placed} (hl : l.lexeme ≠ .finish) : ¬ Complete [l] :=
  fun h => not_complete_nil (h.tail hl)

theorem Complete.ending {seen : Bool} (h : Complete [p.ending seen]) : p.squares = 0 := by
  by_contra hsquares
  refine not_complete_singleton (ending_ne_finish ?_ seen) h
  intro hdepth
  rw [Place.squares, List.length_eq_zero_iff.mp hdepth] at hsquares
  exact hsquares rfl

theorem cutShort_ne_finish (p : Place) : p.cutShort.lexeme ≠ .finish := by
  unfold Place.cutShort
  split <;> exact Lexeme.noConfusion

theorem nextLine_squares (p : Place) (cs : List Char) : (p.nextLine cs).squares = p.squares := by
  unfold Place.nextLine
  split <;> rfl

/-- A margin has no bracket in it, and those that are open stay so; the text does not end within. -/
theorem marginFrom_cases (m : Margin) (cs : List Char) :
    (∃ last, marginFrom m cs = .error last ∧ last.lexeme ≠ .finish) ∨
      ∃ m', marginFrom m cs = .ok m' ∧ m'.place.squares = m.place.squares ∧
        ∀ k, SquaresClose k m'.rest → SquaresClose k cs := by
  have hcons {m m₀ : Margin} {c : Char} {cs : List Char} (hc : c ≠ '[' ∧ c ≠ ']')
      (hplace : m.place.squares = m₀.place.squares)
      (ih : (∃ last, marginFrom m cs = .error last ∧ last.lexeme ≠ .finish) ∨
        ∃ m', marginFrom m cs = .ok m' ∧ m'.place.squares = m.place.squares ∧
          ∀ k, SquaresClose k m'.rest → SquaresClose k cs) :
      (∃ last, marginFrom m cs = .error last ∧ last.lexeme ≠ .finish) ∨
        ∃ m', marginFrom m cs = .ok m' ∧ m'.place.squares = m₀.place.squares ∧
          ∀ k, SquaresClose k m'.rest → SquaresClose k (c :: cs) := by
    rcases ih with herror | ⟨m', hok, hsame, hrest⟩
    · exact .inl herror
    · exact .inr ⟨m', hok, hsame.trans hplace, fun k hk => (hrest k hk).cons hc⟩
  fun_induction marginFrom m cs with
  | case1 m => exact .inr ⟨_, rfl, rfl, fun k hk => hk⟩
  | case2 m cs ih => exact hcons (by decide) rfl ih
  | case3 m cs ih => exact hcons (by decide) rfl ih
  | case4 m cs => exact .inl ⟨_, rfl, cutShort_ne_finish _⟩
  | case5 m cs hne kept ih =>
    rcases hcons (c := '\n') (by decide) (nextLine_squares _ _) ih with herror |
      ⟨m', hok, hsame, hrest⟩
    · exact .inl herror
    · exact .inr ⟨m', hok, hsame, fun k hk => (hrest k hk).cons (by decide)⟩
  | case6 m cs => exact .inl ⟨_, rfl, Lexeme.noConfusion⟩
  | case7 m c cs hspace htab hback hback' hfeed ih =>
    refine hcons ?_ rfl ih
    constructor <;> rintro rfl <;> cases hfeed
  | case8 m c cs hspace htab hback hback' hfeed => exact .inr ⟨_, rfl, rfl, fun k hk => hk⟩

/-- The lexemes for a margin do not end the text, and the brackets stay. -/
theorem Margin.shift_cases (m : Margin) :
    (∃ reason, m.shift = .error (m.place.halt reason)) ∨
      ∃ shifts q, m.shift = .ok (shifts, q) ∧ q.squares = m.place.squares ∧
        ∀ l ∈ shifts, l.lexeme ≠ .finish := by
  unfold Margin.shift
  simp only
  split
  · split
    · exact .inr ⟨[], _, rfl, rfl, by simp⟩
    · exact .inl ⟨_, rfl⟩
  · split
    · split
      · exact .inl ⟨_, rfl⟩
      · exact .inr ⟨_, _, rfl, rfl, by simp [Place.put]⟩
    · split
      · exact .inl ⟨_, rfl⟩
      · split
        · exact .inl ⟨_, rfl⟩
        · exact .inr ⟨_, _, rfl, rfl, by simp [Place.put]⟩

theorem Complete.behind {shifts ls : List Placed} (h : Complete (shifts ++ ls))
    (hshifts : ∀ l ∈ shifts, l.lexeme ≠ .finish) : Complete ls := by
  induction shifts with
  | nil => exact h
  | cons l shifts ih =>
    obtain ⟨hl, hshifts⟩ := List.forall_mem_cons.mp hshifts
    exact ih (h.tail hl) hshifts

theorem linesFrom_squares
    (hlexemes : ∀ p cs, Complete (lexemesFrom fuel p cs) → SquaresClose p.squares cs)
    (hlines : ∀ p cs, Complete (linesFrom fuel p cs) → SquaresClose p.squares cs)
    (h : Complete (linesFrom (fuel + 1) p cs)) : SquaresClose p.squares cs := by
  unfold linesFrom at h
  rcases marginFrom_cases ⟨0, 0, (0, 0), p, []⟩ cs with ⟨last, herror, hlast⟩ |
    ⟨m, hm, hplace, hrest⟩
  · rw [herror] at h
    exact absurd h (not_complete_singleton hlast)
  · rw [hm] at h
    apply hrest
    simp only at h hplace
    rw [← hplace]
    split at h
    · rename_i hline
      have hmore := hlines _ _ h
      rw [nextLine_squares] at hmore
      rw [hline]
      exact hmore.cons (by decide)
    · rename_i hcomment
      rw [hcomment]
      simp [SquaresClose]
    · rcases m.shift_cases with ⟨reason, herror⟩ | ⟨shifts, q, hshift, hq, hshifts⟩
      · rw [herror] at h
        exact absurd h (not_complete_singleton Lexeme.noConfusion)
      · rw [hshift] at h
        rw [← hq]
        exact hlexemes _ _ (h.behind hshifts)

theorem lexemesFrom_squares
    (hlexemes : ∀ p cs, Complete (lexemesFrom fuel p cs) → SquaresClose p.squares cs)
    (hlines : ∀ p cs, Complete (linesFrom fuel p cs) → SquaresClose p.squares cs)
    (h : Complete (lexemesFrom (fuel + 1) p cs)) : SquaresClose p.squares cs := by
  have hnext (p : Place) (cs : List Char) (h : SquaresClose (p.nextLine cs).squares cs) :
      SquaresClose p.squares ('\n' :: cs) := by
    rw [nextLine_squares] at h
    exact h.cons (by decide)
  cases cs with
  | nil =>
    unfold lexemesFrom at h
    exact h.ending
  | cons c cs =>
    unfold lexemesFrom at h
    split at h
    · rename_i hspace
      refine (hlexemes _ _ h).cons ?_
      rcases isSpacing_cases hspace with rfl | rfl | rfl <;> decide
    · split at h
      · rename_i hhash
        simp [SquaresClose, hhash]
      · split at h
        · rename_i hline
          rw [hline]
          split at h
          · exact hnext _ _ (hlines _ _ (h.tail Lexeme.noConfusion))
          · exact hnext _ _ (hlexemes _ _ h)
        · split at h
          · rename_i hback
            rw [hback]
            split at h
            · exact absurd h (not_complete_singleton (cutShort_ne_finish _))
            · exact (hnext _ _ (hlexemes _ _ h)).cons (by decide)
            · exact absurd h (not_complete_singleton Lexeme.noConfusion)
          · split at h
            · exact absurd h (not_complete_singleton Lexeme.noConfusion)
            · rename_i found hfound
              rcases h.cases with hfinish | ⟨htext, h⟩
              · have htext : found.lexeme ≠ .text := by
                  intro heq
                  cases heq.symm.trans hfinish
                exact absurd hfinish (lexemeAt_within hfound htext).inner.1
              · apply (lexemeAt_within hfound htext).squares
                split at h
                · rename_i hempty
                  rw [List.isEmpty_iff.mp hempty]
                  exact h.ending
                · exact hlexemes _ _ h

theorem squares_of_complete (fuel : Nat) :
    (∀ p cs, Complete (lexemesFrom fuel p cs) → SquaresClose p.squares cs) ∧
      ∀ p cs, Complete (linesFrom fuel p cs) → SquaresClose p.squares cs := by
  induction fuel with
  | zero =>
    constructor
    · intro p cs h
      exact absurd h (by rw [lexemesFrom]; exact not_complete_nil)
    · intro p cs h
      exact absurd h (by rw [linesFrom]; exact not_complete_nil)
  | succ fuel ih =>
    exact ⟨fun p cs => lexemesFrom_squares ih.1 ih.2, fun p cs => linesFrom_squares ih.1 ih.2⟩

theorem squaresClose_of_unifyLineEnds (h : SquaresClose k (unifyLineEnds cs)) :
    SquaresClose k cs := by
  fun_induction unifyLineEnds cs generalizing k with
  | case1 => exact h
  | case2 cs ih =>
    rw [SquaresClose, if_neg (by decide), if_neg (by decide)] at h
    rcases h with heq | h
    · cases heq
    · exact ((ih h).cons (by decide)).cons (by decide)
  | case3 c cs hne ih =>
    by_cases hc : c = '\r'
    · rw [if_pos hc, SquaresClose, if_neg (by decide), if_neg (by decide)] at h
      rcases h with heq | h
      · cases heq
      · exact (ih h).cons (by rw [hc]; decide)
    · rw [if_neg hc] at h
      rw [SquaresClose] at h ⊢
      split
      · rename_i hopen
        rw [if_pos hopen] at h
        exact ih h
      · rename_i hopen
        rw [if_neg hopen] at h
        split
        · rename_i hclose
          rw [if_pos hclose] at h
          exact ⟨h.1, ih h.2⟩
        · rename_i hclose
          rw [if_neg hclose] at h
          exact h.imp id ih

theorem ofLexemes?_of_ofChars {t : Term} (h : Term.ofChars cs = .ok t) :
    Term.ofLexemes? ((lexemes cs).map Placed.lexeme) = some t := by
  unfold Term.ofChars at h
  split at h
  · cases h
  · split at h
    · cases h
    · simp only at h
      split at h
      · rename_i found hfound
        split at h
        · cases h
        · rw [hfound, Except.ok.inj h]
      · cases h

/-- The square brackets of a text that writes a term pair up. -/
theorem squaresClose_of_ofChars {t : Term} (h : Term.ofChars cs = .ok t) : SquaresClose 0 cs := by
  have hread := ofLexemes?_of_ofChars h
  obtain ⟨line, ends, more, ended, hsplit, hends, hleads⟩ := leads_of_ofLexemes? hread
  have hcomplete : Complete (lexemes cs) := by
    refine ⟨line ++ ends, more, hsplit, ?_⟩
    rw [List.mem_append, not_or]
    exact ⟨text_not_mem_of_leads hleads, fun htext => Lexeme.noConfusion (hends _ htext)⟩
  unfold lexemes at hcomplete
  have hclose := squaresClose_of_unifyLineEnds ((squares_of_complete _).2 _ _ hcomplete)
  rw [← List.takeWhile_append_dropWhile (p := fun c => c = ' ' || c = '\t') (l := cs)]
  refine hclose.append fun c hc => ?_
  have hblank := List.all_eq_true.mp List.all_takeWhile c hc
  simp only [Bool.or_eq_true, decide_eq_true_eq] at hblank
  rcases hblank with rfl | rfl <;> decide

end

end Machining.Expression
