import Machining.Decimal.Reading
import Machining.Proofs.Exact
import Machining.Proofs.Layout

namespace Machining
open Text

namespace Decimal

def AllDigits (cs : List Char) : Prop := ∀ c ∈ cs, isDigit c = true

inductive Sign : List Char → Prop where
  | absent : Sign []
  | plus : Sign ['+']
  | minus : Sign ['-']

inductive Mantissa : List Char → Prop where
  | whole {ds : List Char} (digits : AllDigits ds) (present : ds ≠ []) : Mantissa ds
  | pointed {ds es : List Char} (digits : AllDigits ds) (digits' : AllDigits es)
      (present : ds ≠ [] ∨ es ≠ []) :
      Mantissa (ds ++ '.' :: es)

inductive Exponent : List Char → Prop where
  | absent : Exponent []
  | power {e : Char} {s ds : List Char} (mark : e = 'e' ∨ e = 'E') (sign : Sign s)
      (digits : AllDigits ds) (present : ds ≠ []) : Exponent (e :: s ++ ds)

/-- What stands behind a row of digits: nothing, or something else than a digit. -/
def Stops (cs : List Char) : Prop := ∀ c ∈ cs.head?, isDigit c = false ∧ c ≠ '_'

theorem Stops.digit {cs : List Char} (h : Stops cs) : ∀ c ∈ cs.head?, isDigit c = false :=
  fun c hc => (h c hc).1

/-- A row of characters of one kind, and what it ends at. -/
theorem takeWhile_row {p : Char → Bool} {cs rest : List Char} (hcs : ∀ c ∈ cs, p c = true)
    (hrest : ∀ c ∈ rest.head?, p c = false) :
    (cs ++ rest).takeWhile p = cs ∧ (cs ++ rest).dropWhile p = rest := by
  rw [List.takeWhile_append_of_pos hcs, List.dropWhile_append_of_pos hcs]
  cases rest with
  | nil => simp
  | cons c rest => simp [hrest c rfl]

theorem digits_takeWhile (cs : List Char) : AllDigits (cs.takeWhile isDigit) :=
  fun _ h => List.mem_takeWhile_imp h

theorem Exponent.stops {cs : List Char} (h : Exponent cs) : Stops cs := by
  cases h with
  | absent => simp [Stops]
  | power mark sign digits present =>
    intro c hc
    cases hc
    rcases mark with rfl | rfl <;> decide

theorem stops_point (cs : List Char) : Stops ('.' :: cs) := by
  intro c hc
  cases hc
  decide

theorem moreDigits_append {ds rest : List Char} (hd : AllDigits ds) (hr : Stops rest) :
    moreDigits (ds ++ rest) = (ds, rest) := by
  induction ds with
  | nil =>
    cases rest with
    | nil => rfl
    | cons c rest =>
      obtain ⟨hc, hne⟩ := hr c rfl
      simp [moreDigits, hc, hne]
  | cons d ds ih =>
    have hdigit : isDigit d = true := hd d List.mem_cons_self
    have hne : d ≠ '_' := by
      rintro rfl
      exact absurd hdigit (by decide)
    have htail := ih fun c hc => hd c (List.mem_cons_of_mem d hc)
    simp [moreDigits, hdigit, hne, htail]

theorem digitRow_append {ds rest : List Char} (hd : AllDigits ds) (hr : Stops rest) :
    digitRow (ds ++ rest) = (ds, rest) := by
  cases ds with
  | nil =>
    cases rest with
    | nil => rfl
    | cons c rest => simp [digitRow, (hr c rfl).1]
  | cons d ds =>
    have hdigit : isDigit d = true := hd d List.mem_cons_self
    have htail := moreDigits_append (fun c hc => hd c (List.mem_cons_of_mem d hc)) hr
    simp [digitRow, hdigit, htail]

theorem Sign.split {s : List Char} (h : Sign s) {cs : List Char}
    (hc : ∀ c ∈ cs.head?, c ≠ '+' ∧ c ≠ '-') : ∃ negative, sign (s ++ cs) = (negative, cs) := by
  cases h with
  | absent =>
    refine ⟨false, ?_⟩
    cases cs with
    | nil => rfl
    | cons c cs =>
      obtain ⟨hplus, hminus⟩ := hc c rfl
      simp [sign, hplus, hminus]
  | plus => exact ⟨false, rfl⟩
  | minus => exact ⟨true, rfl⟩

theorem AllDigits.unsigned {ds cs : List Char} (h : AllDigits ds) (hne : ds ≠ []) :
    ∀ c ∈ (ds ++ cs).head?, c ≠ '+' ∧ c ≠ '-' := by
  cases ds with
  | nil => exact absurd rfl hne
  | cons d ds =>
    intro c hc
    cases hc
    have hd : isDigit d = true := h d List.mem_cons_self
    constructor <;> rintro rfl <;> exact absurd hd (by decide)

theorem Exponent.value {cs : List Char} (h : Exponent cs) : ∃ e, exponent? cs = some e := by
  cases h with
  | absent => exact ⟨0, rfl⟩
  | @power e s ds mark sign digits present =>
    obtain ⟨negative, hsign⟩ : ∃ negative, Decimal.sign (s ++ (ds ++ [])) = (negative, ds ++ []) :=
      sign.split (digits.unsigned present)
    have hrow : digitRow (ds ++ []) = (ds, []) := digitRow_append digits (by simp [Stops])
    rw [List.append_nil] at hsign hrow
    simp only [List.cons_append, exponent?, mark, ↓reduceIte, hsign, hrow]
    cases ds with
    | nil => exact absurd rfl present
    | cons d ds => exact ⟨_, rfl⟩

theorem Mantissa.unsigned {m cs : List Char} (h : Mantissa m) :
    ∀ c ∈ (m ++ cs).head?, c ≠ '+' ∧ c ≠ '-' := by
  cases h with
  | whole digits present => exact digits.unsigned present
  | @pointed ds es digits digits' present =>
    cases ds with
    | nil =>
      intro c hc
      cases hc
      decide
    | cons d ds =>
      rw [List.append_assoc]
      exact digits.unsigned (by simp)

/-- A mantissa with an exponent behind it is a number. -/
theorem Mantissa.value {m e : List Char} (hm : Mantissa m) (he : Exponent e) (negative : Bool) :
    ∃ n k, unsigned? negative (m ++ e) = some (Binary64.ofDecimal negative n k) := by
  obtain ⟨k, hk⟩ := he.value
  cases hm with
  | whole digits present =>
    have hpoint : fraction e = ([], e) := by
      cases he with
      | absent => rfl
      | power mark sign digits present => rcases mark with rfl | rfl <;> rfl
    exact ⟨digitsValue m, k,
      by simp [unsigned?, digitRow_append digits he.stops, hpoint, present, hk]⟩
  | @pointed ds es digits digits' present =>
    have hwhole := digitRow_append digits (stops_point (es ++ e))
    have hpart := digitRow_append digits' he.stops
    have hsome : ¬ (ds = [] ∧ es = []) := by
      rintro ⟨rfl, rfl⟩
      simp at present
    exact ⟨digitsValue (ds ++ es), k - es.length, by
      simp [unsigned?, List.append_assoc, hwhole, fraction, hpart, hsome, hk]⟩

theorem unpad_solid {cs : List Char} (h : ∀ c ∈ cs, isBlank c = false) : unpad cs = cs := by
  have hsolid : ∀ ds : List Char, (∀ c ∈ ds, isBlank c = false) → ds.dropWhile isPadding = ds := by
    intro ds hds
    cases ds with
    | nil => rfl
    | cons d ds => simp [isPadding, hds d List.mem_cons_self]
  rw [unpad, hsolid cs h, hsolid cs.reverse (by simpa using h), List.reverse_reverse]

/-- A sign, a mantissa and an exponent, in this order, are a number. -/
theorem ofChars_numeral {s m e : List Char} (hs : Sign s) (hm : Mantissa m) (he : Exponent e)
    (solid : ∀ c ∈ s ++ (m ++ e), isBlank c = false) :
    ∃ x, ofChars? (s ++ (m ++ e)) = some x ∧ x.isNaN = false := by
  obtain ⟨negative, hsign⟩ : ∃ negative, sign (s ++ (m ++ e)) = (negative, m ++ e) :=
    hs.split hm.unsigned
  obtain ⟨n, k, hvalue⟩ := hm.value he negative
  refine ⟨Binary64.ofDecimal negative n k, ?_, Binary64.isNaN_ofDecimal negative n k⟩
  simp only [ofChars?, unpad_solid solid, hsign, hvalue, Option.some_or]

/-- No number starts with a number sign. -/
theorem ofChars_reference (cs : List Char) : ofChars? ('#' :: cs) = none := by
  obtain ⟨ds, hds⟩ : ∃ ds, unpad ('#' :: cs) = '#' :: ds := by
    have hhead : isPadding '#' = false := by decide
    rw [unpad, List.dropWhile_cons_of_neg (by simp [hhead]), List.reverse_cons,
      List.dropWhile_append]
    split
    · exact ⟨[], by simp [hhead]⟩
    · exact ⟨_, by rw [List.reverse_append]; rfl⟩
  have hdigit : isDigit '#' = false := by decide
  have hlower : lowerAscii ('#' :: ds) = '#' :: lowerAscii ds := rfl
  have hinf : "inf".toList = ['i', 'n', 'f'] := rfl
  have hinfinity : "infinity".toList = ['i', 'n', 'f', 'i', 'n', 'i', 't', 'y'] := rfl
  have hnan : "nan".toList = ['n', 'a', 'n'] := rfl
  simp [ofChars?, hds, sign, unsigned?, digitRow, hdigit, fraction, named?, hlower, hinf,
    hinfinity, hnan]

end Decimal

namespace Token
open Decimal

theorem signPart_sign (cs : List Char) : Sign (signPart cs) := by
  unfold signPart
  split
  · exact .plus
  · exact .minus
  · exact .absent

theorem mantissaPart_mantissa {cs : List Char} (h : mantissaPart cs ≠ []) :
    Mantissa (mantissaPart cs) := by
  unfold mantissaPart at h ⊢
  simp only at h ⊢
  split
  · rename_i rest hrest
    simp only [hrest] at h
    split
    · rename_i hnone
      exact absurd (if_pos hnone) h
    · rename_i hsome
      refine .pointed (digits_takeWhile cs) (digits_takeWhile rest) ?_
      simpa [Classical.or_iff_not_imp_left] using hsome
  · rename_i hno
    refine .whole (digits_takeWhile cs) ?_
    intro hnil
    rw [hnil] at h
    split at h
    · exact hno _ ‹_›
    · exact h rfl

theorem exponentPart_exponent (cs : List Char) : Exponent (exponentPart cs) := by
  unfold exponentPart
  split
  · rename_i e rest
    split
    · rename_i hmark
      simp only
      split
      · exact .absent
      · rename_i hdigits
        exact .power hmark (signPart_sign rest) (digits_takeWhile _) (by simpa using hdigits)
    · exact .absent
  · exact .absent

/-- A sign, digits around an optional point, and an exponent; only the digits have to be there. -/
inductive Numeral : List Char → Prop where
  | signed {s m e : List Char} (sign : Sign s) (mantissa : Mantissa m) (exponent : Exponent e) :
      Numeral (s ++ (m ++ e))

theorem numeral_of_ne_nil {cs : List Char} (h : numeral cs ≠ []) : Numeral (numeral cs) := by
  simp only [numeral] at h ⊢
  split
  · rename_i hnone
    exact absurd (if_pos hnone) h
  · rename_i hsome
    rw [List.append_assoc]
    exact .signed (signPart_sign cs) (mantissaPart_mantissa (by simpa using hsome))
      (exponentPart_exponent _)

/-- Every numeral that the scanner takes is a number. -/
theorem numeral_value {cs : List Char} (h : numeral cs ≠ []) :
    ∃ x, ofChars? (numeral cs) = some x ∧ x.isNaN = false := by
  have hsolid := (solid_numeral cs).unblanked
  have hnumeral := numeral_of_ne_nil h
  generalize numeral cs = ds at hsolid hnumeral ⊢
  cases hnumeral with
  | signed sign mantissa exponent => exact ofChars_numeral sign mantissa exponent hsolid

theorem reference_head (cs : List Char) : reference cs = [] ∨ (reference cs).head? = some '#' := by
  unfold reference
  split
  · split
    · exact .inr rfl
    · exact .inl rfl
  · exact .inl rfl

/-- The value of a word is a number, or a reference and no number. -/
theorem wordValue_cases {cs : List Char} (h : wordValue cs ≠ []) :
    ((wordValue cs).head? ≠ some '#' ∧ ∃ x, ofChars? (wordValue cs) = some x ∧ x.isNaN = false) ∨
      (wordValue cs).head? = some '#' ∧ ofChars? (wordValue cs) = none := by
  have hreference : ∀ ds : List Char, ds.head? = some '#' → ofChars? ds = none := by
    rintro (_ | ⟨d, ds⟩) hd
    · cases hd
    · cases hd
      exact ofChars_reference ds
  simp only [wordValue] at h ⊢
  split
  · rename_i hnone
    rw [if_pos hnone] at h
    rcases reference_head cs with hnil | hhead
    · exact absurd hnil h
    · exact .inr ⟨hhead, hreference _ hhead⟩
  · rename_i hsome
    obtain ⟨x, hx, hnan⟩ := numeral_value (by simpa using hsome)
    refine .inl ⟨?_, x, hx, hnan⟩
    intro hhead
    rw [hreference _ hhead] at hx
    cases hx

end Token
end Machining
