import Machining.Expression.Term

namespace Machining.Expression

def Lexeme.endsOperand : Lexeme → Bool
  | .numeral _ => true
  | .name w => w ≠ "or" ∧ w ≠ "and" ∧ w ≠ "not"
  | .symbol s => s = ")" ∨ s = "]"
  | _ => false

def Lexeme.Fits (ended : Bool) : Lexeme → Prop
  | .numeral _ => ended = false
  | .name w => ended = true ↔ w = "or" ∨ w = "and"
  | .symbol s => ended = true ∨ s ∈ ["(", "[", ")", "]", "+", "-"]
  | _ => False

/-- Lexemes lead to those behind them, each one fitting where it stands. The flags tell that an
operand ends there. -/
inductive Leads : Bool → List Lexeme → Bool → List Lexeme → Prop where
  | refl (ended : Bool) (ls : List Lexeme) : Leads ended ls ended ls
  | cons {ended ended' : Bool} {l : Lexeme} {ls rest : List Lexeme} (fits : l.Fits ended)
      (more : Leads l.endsOperand ls ended' rest) : Leads ended (l :: ls) ended' rest

section
variable {ended ended' ended'' : Bool} {l : Lexeme} {ls mid rest xs ys : List Lexeme}
    {level : Term.Level}

theorem Leads.trans (h : Leads ended ls ended' mid) (h' : Leads ended' mid ended'' rest) :
    Leads ended ls ended'' rest := by
  induction h with
  | refl ended ls => exact h'
  | cons fits more ih => exact .cons fits (ih h')

def endedBy (ended : Bool) (ls : List Lexeme) : Bool := ls.foldl (fun _ l => l.endsOperand) ended

/-- Every lexeme on the way fits behind those before it. -/
theorem Leads.fits (h : Leads ended (xs ++ l :: ys) ended' []) : l.Fits (endedBy ended xs) := by
  induction xs generalizing ended with
  | nil =>
    cases h with
    | cons fits more => exact fits
  | cons x xs ih =>
    cases h with
    | cons fits more => exact ih more

theorem text_not_mem_of_leads (h : Leads ended ls ended' []) : .text ∉ ls := by
  intro hmem
  obtain ⟨xs, ys, rfl⟩ := List.append_of_mem hmem
  exact h.fits

theorem joining?_fits {op : Term → Term → Term} (h : Term.joining? level l = some op) :
    l.Fits true ∧ l.endsOperand = false := by
  unfold Term.joining? at h
  split at h <;> simp_all [Lexeme.Fits, Lexeme.endsOperand]

theorem compareOp?_fits {op : Comparison} (h : Term.compareOp? l = some op) :
    l.Fits true ∧ l.endsOperand = false := by
  unfold Term.compareOp? at h
  split at h <;> simp_all [Lexeme.Fits, Lexeme.endsOperand]

theorem atomName?_fits {w : String} {t : Term} (h : Term.atomName? w = some t) :
    (Lexeme.name w).Fits false ∧ (Lexeme.name w).endsOperand = true := by
  have hne (s : String) (hs : Term.atomName? s = none) : w ≠ s := by
    rintro rfl
    rw [hs] at h
    cases h
  have hor := hne "or" (by decide)
  have hand := hne "and" (by decide)
  have hnot := hne "not" (by decide)
  simp [Lexeme.Fits, Lexeme.endsOperand, hor, hand, hnot]

end

/-- The readers of terms with so much fuel lead from where an operand is due, or where one has
ended, to where one has ended. -/
structure ReadsThrough (fuel : Nat) : Prop where
  read {level : Term.Level} {ls rest : List Lexeme} {t : Term}
    (h : Term.read fuel level ls = some (t, rest)) :
    Leads false ls true rest
  join {level : Term.Level} {left t : Term} {ls rest : List Lexeme}
    (h : Term.join fuel level left ls = some (t, rest)) : Leads true ls true rest
  chain {ls rest : List Lexeme} {ts : List (Comparison × Term)}
    (h : Term.chain fuel ls = some (ts, rest)) :
    Leads true ls true rest
  atom {ls rest : List Lexeme} {t : Term} (h : Term.atom fuel ls = some (t, rest)) :
    Leads false ls true rest
  row {close : String} {ls rest : List Lexeme} {ts : List Term} {single : Bool}
    (hclose : close = ")" ∨ close = "]")
    (h : Term.row fuel close ls = some (ts, single, rest)) : Leads false ls true rest
  rowItems {close : String} {ls rest : List Lexeme} {ts : List Term} {single : Bool}
    (hclose : close = ")" ∨ close = "]")
    (h : Term.rowItems fuel close ls = some (ts, single, rest)) :
    Leads false ls true rest
  trailers {ls rest : List Lexeme} {t t' : Term} (h : Term.trailers fuel t ls = some (t', rest)) :
    Leads true ls true rest

namespace ReadsThrough
variable {fuel : Nat} {ls rest : List Lexeme} {t : Term}

theorem read_succ (h : ReadsThrough fuel) {level : Term.Level}
    (hread : Term.read (fuel + 1) level ls = some (t, rest)) :
    Leads false ls true rest := by
  have hjoined {level inner : Term.Level}
      (hread : (Term.read fuel inner ls >>= fun found => Term.join fuel level found.1 found.2) =
        some (t, rest)) :
      Leads false ls true rest := by
    obtain ⟨⟨first, mid⟩, hfirst, hjoin⟩ := Option.bind_eq_some_iff.mp hread
    exact (h.read hfirst).trans (h.join hjoin)
  have hsigned {l : Lexeme} {ls : List Lexeme} {level : Term.Level} {f : Term → Term}
      (hl : l.Fits false)
      (hends : l.endsOperand = false)
      (hread : ((Term.read fuel level ls).map fun found => (f found.1, found.2)) = some (t, rest)) :
      Leads false (l :: ls) true rest := by
    obtain ⟨⟨inner, mid⟩, hinner, heq⟩ := Option.map_eq_some_iff.mp hread
    obtain ⟨-, rfl⟩ := Prod.mk.inj heq
    exact .cons hl (hends ▸ h.read hinner)
  cases level with
  | either | both | exclusive | sum | product =>
    simp only [Term.read] at hread
    exact hjoined hread
  | negation =>
    simp only [Term.read] at hread
    split at hread
    · exact hsigned (by simp [Lexeme.Fits]) (by simp [Lexeme.endsOperand]) hread
    · exact h.read hread
  | comparison =>
    simp only [Term.read] at hread
    obtain ⟨⟨first, mid⟩, hfirst, hread⟩ := Option.bind_eq_some_iff.mp hread
    obtain ⟨⟨more, behind⟩, hmore, heq⟩ := Option.bind_eq_some_iff.mp hread
    obtain ⟨-, rfl⟩ := Prod.mk.inj (Option.some.inj heq)
    exact (h.read hfirst).trans (h.chain hmore)
  | sign =>
    simp only [Term.read] at hread
    split at hread
    · exact hsigned (by simp [Lexeme.Fits]) (by simp [Lexeme.endsOperand]) hread
    · exact hsigned (by simp [Lexeme.Fits]) (by simp [Lexeme.endsOperand]) hread
    · exact h.read hread
  | power =>
    simp only [Term.read] at hread
    obtain ⟨⟨base, mid⟩, hbase, hread⟩ := Option.bind_eq_some_iff.mp hread
    obtain ⟨⟨base', behind⟩, hbase', hread⟩ := Option.bind_eq_some_iff.mp hread
    refine ((h.atom hbase).trans (h.trailers hbase')).trans ?_
    dsimp only at hread
    split at hread
    · obtain ⟨⟨exponent, last⟩, hexponent, heq⟩ := Option.bind_eq_some_iff.mp hread
      obtain ⟨-, rfl⟩ := Prod.mk.inj (Option.some.inj heq)
      exact .cons (.inl rfl) (by simpa [Lexeme.endsOperand] using h.read hexponent)
    · obtain ⟨-, rfl⟩ := Prod.mk.inj (Option.some.inj hread)
      exact .refl _ _

theorem join_succ (h : ReadsThrough fuel) {level : Term.Level} {left : Term}
    (hread : Term.join (fuel + 1) level left ls = some (t, rest)) : Leads true ls true rest := by
  cases ls with
  | nil =>
    obtain ⟨-, rfl⟩ := Prod.mk.inj (Option.some.inj hread)
    exact .refl _ _
  | cons l ls =>
    rw [Term.join] at hread
    cases hop : Term.joining? level l with
    | none =>
      rw [hop] at hread
      obtain ⟨-, rfl⟩ := Prod.mk.inj (Option.some.inj hread)
      exact .refl _ _
    | some op =>
      rw [hop] at hread
      obtain ⟨hfits, hends⟩ := joining?_fits hop
      obtain ⟨⟨right, mid⟩, hright, hjoin⟩ := Option.bind_eq_some_iff.mp hread
      exact .cons hfits (hends ▸ (h.read hright).trans (h.join hjoin))

theorem chain_succ (h : ReadsThrough fuel) {ts : List (Comparison × Term)}
    (hread : Term.chain (fuel + 1) ls = some (ts, rest)) : Leads true ls true rest := by
  cases ls with
  | nil =>
    obtain ⟨-, rfl⟩ := Prod.mk.inj (Option.some.inj hread)
    exact .refl _ _
  | cons l ls =>
    rw [Term.chain] at hread
    cases hop : Term.compareOp? l with
    | none =>
      rw [hop] at hread
      obtain ⟨-, rfl⟩ := Prod.mk.inj (Option.some.inj hread)
      exact .refl _ _
    | some op =>
      rw [hop] at hread
      obtain ⟨hfits, hends⟩ := compareOp?_fits hop
      obtain ⟨⟨right, mid⟩, hright, hread⟩ := Option.bind_eq_some_iff.mp hread
      obtain ⟨⟨more, behind⟩, hmore, heq⟩ := Option.bind_eq_some_iff.mp hread
      obtain ⟨-, rfl⟩ := Prod.mk.inj (Option.some.inj heq)
      exact .cons hfits (hends ▸ (h.read hright).trans (h.chain hmore))

theorem atom_succ (h : ReadsThrough fuel) (hread : Term.atom (fuel + 1) ls = some (t, rest)) :
    Leads false ls true rest := by
  unfold Term.atom at hread
  split at hread
  · obtain ⟨n, -, heq⟩ := Option.map_eq_some_iff.mp hread
    obtain ⟨-, rfl⟩ := Prod.mk.inj heq
    exact .cons rfl (.refl _ _)
  · obtain ⟨n, hname, heq⟩ := Option.map_eq_some_iff.mp hread
    obtain ⟨-, rfl⟩ := Prod.mk.inj heq
    obtain ⟨hfits, hends⟩ := atomName?_fits hname
    exact .cons hfits (hends ▸ .refl _ _)
  · obtain ⟨⟨ts, single, behind⟩, hrow, heq⟩ := Option.bind_eq_some_iff.mp hread
    obtain ⟨-, rfl⟩ := Prod.mk.inj (Option.some.inj heq)
    exact .cons (by simp [Lexeme.Fits]) (by simpa [Lexeme.endsOperand] using h.row (.inl rfl) hrow)
  · obtain ⟨⟨ts, single, behind⟩, hrow, heq⟩ := Option.bind_eq_some_iff.mp hread
    obtain ⟨-, rfl⟩ := Prod.mk.inj (Option.some.inj heq)
    exact .cons (by simp [Lexeme.Fits]) (by simpa [Lexeme.endsOperand] using h.row (.inr rfl) hrow)
  · cases hread

/-- A closing bracket ends an operand, with or without something before it. -/
theorem leads_close {close : String} (hclose : close = ")" ∨ close = "]") (ended : Bool) :
    Leads ended (.symbol close :: rest) true rest := by
  rcases hclose with rfl | rfl <;> exact .cons (by simp [Lexeme.Fits]) (.refl _ _)

theorem row_succ (h : ReadsThrough fuel) {close : String} {ts : List Term} {single : Bool}
    (hclose : close = ")" ∨ close = "]")
    (hread : Term.row (fuel + 1) close ls = some (ts, single, rest)) :
    Leads false ls true rest := by
  unfold Term.row at hread
  split at hread
  · split at hread
    · rename_i heq
      obtain ⟨-, hrest⟩ := Prod.mk.inj (Option.some.inj hread)
      obtain ⟨-, rfl⟩ := Prod.mk.inj hrest
      rw [heq]
      exact leads_close hclose false
    · exact h.rowItems hclose hread
  · exact h.rowItems hclose hread

theorem rowItems_succ (h : ReadsThrough fuel) {close : String} {ts : List Term} {single : Bool}
    (hclose : close = ")" ∨ close = "]")
    (hread : Term.rowItems (fuel + 1) close ls = some (ts, single, rest)) :
    Leads false ls true rest := by
  rw [Term.rowItems] at hread
  obtain ⟨⟨first, mid⟩, hfirst, hread⟩ := Option.bind_eq_some_iff.mp hread
  refine (h.read hfirst).trans ?_
  dsimp only at hread
  split at hread
  · obtain ⟨⟨more, flag, behind⟩, hrow, heq⟩ := Option.bind_eq_some_iff.mp hread
    obtain ⟨-, heq⟩ := Prod.mk.inj (Option.some.inj heq)
    obtain ⟨-, rfl⟩ := Prod.mk.inj heq
    exact .cons (.inl rfl) (by simpa [Lexeme.endsOperand] using h.row hclose hrow)
  · split at hread
    · rename_i heq
      obtain ⟨-, hrest⟩ := Prod.mk.inj (Option.some.inj hread)
      obtain ⟨-, rfl⟩ := Prod.mk.inj hrest
      rw [heq]
      exact leads_close hclose true
    · cases hread
  · cases hread

theorem trailers_succ (h : ReadsThrough fuel) {t' : Term}
    (hread : Term.trailers (fuel + 1) t ls = some (t', rest)) :
    Leads true ls true rest := by
  unfold Term.trailers at hread
  split at hread
  · obtain ⟨⟨args, single, mid⟩, hrow, hmore⟩ := Option.bind_eq_some_iff.mp hread
    exact .cons (.inl rfl)
      (by simpa [Lexeme.endsOperand] using (h.row (.inl rfl) hrow).trans (h.trailers hmore))
  · obtain ⟨⟨ts, single, mid⟩, hrow, hmore⟩ := Option.bind_eq_some_iff.mp hread
    have hbehind : Leads true mid true rest := by
      dsimp only at hmore
      split at hmore
      · cases hmore
      · exact h.trailers hmore
      · exact h.trailers hmore
    exact .cons (.inl rfl)
      (by simpa [Lexeme.endsOperand] using (h.row (.inr rfl) hrow).trans hbehind)
  · obtain ⟨-, rfl⟩ := Prod.mk.inj (Option.some.inj hread)
    exact .refl _ _

end ReadsThrough

theorem readsThrough (fuel : Nat) : ReadsThrough fuel := by
  induction fuel with
  | zero => constructor <;> intros <;> contradiction
  | succ fuel ih =>
    exact ⟨ih.read_succ, ih.join_succ, ih.chain_succ, ih.atom_succ, ih.row_succ, ih.rowItems_succ,
      ih.trailers_succ⟩

theorem leads_of_readRow {fuel : Nat} {ls : List Lexeme} {found : List Term × Bool}
    (h : Term.readRow fuel ls = some found) : ∃ ended, Leads false ls ended [] := by
  induction fuel generalizing ls found with
  | zero => cases h
  | succ fuel ih =>
    rw [Term.readRow] at h
    obtain ⟨⟨first, mid⟩, hfirst, h⟩ := Option.bind_eq_some_iff.mp h
    have hread := (readsThrough fuel).read hfirst
    dsimp only at h
    split at h
    · exact ⟨true, hread⟩
    · exact ⟨false, hread.trans (.cons (.inl rfl) (.refl _ _))⟩
    · obtain ⟨⟨more, flag⟩, hmore, -⟩ := Option.bind_eq_some_iff.mp h
      obtain ⟨ended, hleads⟩ := ih hmore
      exact ⟨ended, hread.trans (.cons (.inl rfl) (by simpa [Lexeme.endsOperand] using hleads))⟩
    · cases h

/-- The one line of a text is followed by line ends and the end of the text. -/
theorem onlyLine?_split {ls line : List Lexeme} (h : Term.onlyLine? ls = some line) :
    ∃ ends more, ls = line ++ ends ++ .finish :: more ∧ ∀ l ∈ ends, l = .lineEnd := by
  induction ls generalizing line with
  | nil => cases h
  | cons l ls ih =>
    unfold Term.onlyLine? at h
    split at h
    · cases h
    · rename_i more heq
      obtain ⟨rfl, rfl⟩ := List.cons.inj heq
      obtain rfl := Option.some.inj h
      exact ⟨[], ls, rfl, by simp⟩
    · rename_i more heq
      obtain ⟨rfl, rfl⟩ := List.cons.inj heq
      split at h
      · rename_i hnone
        obtain rfl := Option.some.inj h
        obtain ⟨ends, more, hsplit, hends⟩ := ih hnone
        refine ⟨.lineEnd :: ends, more, by simp [hsplit], ?_⟩
        exact List.forall_mem_cons.mpr ⟨rfl, hends⟩
      · cases h
    · rename_i heq
      obtain ⟨rfl, rfl⟩ := List.cons.inj heq
      obtain ⟨tail, htail, rfl⟩ := Option.map_eq_some_iff.mp h
      obtain ⟨ends, more, hsplit, hends⟩ := ih htail
      exact ⟨ends, more, by simp [hsplit], hends⟩

/-- The lexemes of a term: one line of them, each fitting where it stands. -/
theorem leads_of_ofLexemes? {ls : List Lexeme} {t : Term} (h : Term.ofLexemes? ls = some t) :
    ∃ line ends more ended, ls = line ++ ends ++ .finish :: more ∧ (∀ l ∈ ends, l = .lineEnd) ∧
      Leads false line ended [] := by
  unfold Term.ofLexemes? at h
  obtain ⟨line, hline, h⟩ := Option.bind_eq_some_iff.mp h
  obtain ⟨found, hfound, -⟩ := Option.bind_eq_some_iff.mp h
  obtain ⟨ends, more, hsplit, hends⟩ := onlyLine?_split hline
  obtain ⟨ended, hleads⟩ := leads_of_readRow hfound
  exact ⟨line, ends, more, ended, hsplit, hends, hleads⟩

def Lexeme.Inner (l : Lexeme) : Prop := l ≠ .finish ∧ l ≠ .lineEnd

theorem onlyLine?_cons {l : Lexeme} (hl : l.Inner) (ls : List Lexeme) :
    Term.onlyLine? (l :: ls) = (Term.onlyLine? ls).map (l :: ·) := by
  cases l with
  | finish => exact absurd rfl hl.1
  | lineEnd => exact absurd rfl hl.2
  | _ => rfl

theorem onlyLine?_append {xs ys : List Lexeme} (hxs : ∀ x ∈ xs, x.Inner) :
    Term.onlyLine? (xs ++ ys) = (Term.onlyLine? ys).map (xs ++ ·) := by
  induction xs with
  | nil => simp
  | cons x xs ih =>
    obtain ⟨hx, hxs⟩ := List.forall_mem_cons.mp hxs
    rw [List.cons_append, onlyLine?_cons hx, ih hxs, Option.map_map]
    rfl

/-- A lexeme of the first line fits behind those before it. -/
theorem fits_of_ofLexemes? {xs ys : List Lexeme} {l : Lexeme} {t : Term}
    (h : Term.ofLexemes? (xs ++ l :: ys) = some t) (hxs : ∀ x ∈ xs, x.Inner) (hl : l.Inner) :
    l.Fits (endedBy false xs) := by
  unfold Term.ofLexemes? at h
  obtain ⟨line, hline, h⟩ := Option.bind_eq_some_iff.mp h
  obtain ⟨found, hfound, -⟩ := Option.bind_eq_some_iff.mp h
  rw [onlyLine?_append hxs, onlyLine?_cons hl, Option.map_map] at hline
  obtain ⟨tail, -, rfl⟩ := Option.map_eq_some_iff.mp hline
  obtain ⟨ended, hleads⟩ := leads_of_readRow hfound
  exact hleads.fits

end Machining.Expression
