import Machining.Json.Read
import Machining.Proofs.Numeral
import Machining.Proofs.SignedZero
import Machining.Proofs.Written

namespace Machining.Json
open Machining.Decimal Machining.Expression

variable {whole fraction exponent ds rest : List Char} {negative : Bool} {c : Char} {n : Nat}

/-- What may follow a value: nothing, or a character that ends it. -/
def Ends (rest : List Char) : Prop := ∀ c ∈ rest.head?, c = ',' ∨ c = ']' ∨ c = '\x7d' ∨ c = '\n'

theorem Ends.nil : Ends [] := by simp [Ends]

theorem Ends.digit (h : Ends rest) : ∀ c ∈ rest.head?, c.isDigit = false := by
  intro c hc
  rcases h c hc with rfl | rfl | rfl | rfl <;> rfl

theorem digitsNat_eq (ds : List Char) : digitsNat ds = Nat.ofDigitChars 10 ds 0 := rfl

theorem fractionPart_append (hf : FractionPart fraction)
    (hrest : ∀ c ∈ rest.head?, c.isDigit = false ∧ c ≠ '.') :
    fractionPart (fraction ++ rest) = (fraction.filter Char.isDigit, rest) := by
  cases hf with
  | none =>
    cases rest with
    | nil => rfl
    | cons c rest =>
      rw [List.nil_append, fractionPart]
      · rfl
      · exact fun cs heq => (hrest c rfl).2 (List.cons.inj heq).1
  | @places ds hd hne =>
    obtain ⟨htake, hdrop⟩ := takeWhile_row hd fun c hc => (hrest c hc).1
    rw [List.cons_append, fractionPart, filter_point hd]
    simp only [htake, hdrop]
    rw [if_neg (by simpa using hne)]

theorem isEmpty_places (hf : FractionPart fraction) :
    (fraction.filter Char.isDigit).isEmpty = fraction.isEmpty := by
  cases hf with
  | none => rfl
  | places hd hne =>
    rw [filter_point hd]
    simpa using hne

theorem exponentPart_append (he : ExponentPart exponent) (hrest : Ends rest) :
    ∃ e, exponentPart (exponent ++ rest) = (e, rest) ∧ e.getD 0 = exponentValue exponent ∧
      e.isNone = exponent.isEmpty := by
  cases he with
  | none =>
    refine ⟨none, ?_, rfl, rfl⟩
    cases rest with
    | nil => rfl
    | cons c rest =>
      have hother : ¬ (c = 'e' ∨ c = 'E') := by
        rcases hrest c rfl with rfl | rfl | rfl | rfl <;> decide
      rw [List.nil_append, exponentPart, if_neg hother]
  | @signed s ds hs hd hne =>
    obtain ⟨htake, hdrop⟩ := takeWhile_row hd hrest.digit
    have hsome : ¬ ds.isEmpty = true := by simpa using hne
    refine ⟨some (exponentValue ('e' :: s :: ds)), ?_, rfl, rfl⟩
    rw [exponentValue_signed hs hd, List.cons_append, List.cons_append, exponentPart,
      if_pos (.inl rfl)]
    rcases hs with rfl | rfl
    · simp only [Decimal.sign, htake, hdrop, if_neg hsome]
      rfl
    · simp only [Decimal.sign, htake, hdrop, if_neg hsome]
      rfl

theorem wholeDigits_append (hd : Decimals ds) (hne : ds ≠ [])
    (hlead : ds = ['0'] ∨ ds.head? ≠ some '0') (hrest : ∀ c ∈ rest.head?, c.isDigit = false) :
    wholeDigits (ds ++ rest) = ds := by
  rcases hlead with rfl | hlead
  · rfl
  · obtain ⟨d, ds, rfl⟩ := List.exists_cons_of_ne_nil hne
    rw [List.cons_append, wholeDigits]
    · exact (takeWhile_row hd hrest).1
    · intro cs heq
      exact hlead (congrArg some (List.cons.inj heq).1)

/-- A number is read part by part. -/
theorem unsigned?_append (hd : Decimals ds) (hne : ds ≠ [])
    (hlead : ds = ['0'] ∨ ds.head? ≠ some '0') (hrest : ∀ c ∈ rest.head?, c.isDigit = false)
    {part rest' rest'' : List Char} {e : Option Int}
    (hpart : fractionPart rest = (part, rest')) (hpower : exponentPart rest' = (e, rest'')) :
    unsigned? negative (ds ++ rest) =
      if part.isEmpty && e.isNone then
        if Text.digitLimit < ds.length then none
        else some (.int (if negative then -(digitsNat ds : Int) else digitsNat ds), rest'')
      else some (.float (Binary64.ofDecimal negative (digitsNat (ds ++ part))
        (e.getD 0 - part.length)), rest'') := by
  unfold unsigned?
  simp only [wholeDigits_append hd hne hlead hrest, List.drop_left, hpart, hpower]
  rw [if_neg (by simpa using hne)]

/-- Digits alone are a whole number. -/
theorem unsigned?_natDigits (h : (natDigits n).length ≤ Text.digitLimit) (hrest : Ends rest) :
    unsigned? negative (natDigits n ++ rest) =
      some (.int (if negative then -(n : Int) else n), rest) := by
  have hlead : natDigits n = ['0'] ∨ (natDigits n).head? ≠ some '0' := by
    by_cases hn : n = 0
    · subst hn
      exact .inl rfl
    · exact .inr (head?_natDigits hn)
  have hpart : fractionPart rest = ([], rest) := by
    refine fractionPart_append .none fun c hc => ⟨hrest.digit c hc, ?_⟩
    rcases hrest c hc with rfl | rfl | rfl | rfl <;> decide
  obtain ⟨e, hpower, -, hnone⟩ := exponentPart_append .none hrest
  rw [unsigned?_append (decimals_natDigits n) (natDigits_ne n) hlead hrest.digit hpart hpower,
    hnone, if_pos (show (([] : List Char).isEmpty && ([] : List Char).isEmpty) = true from rfl),
    if_neg (Nat.not_lt.mpr h), digitsNat_eq, ofDigitChars_natDigits]

/-- Digits with a fraction or an exponent are a decimal. -/
theorem unsigned?_spelled (hs : Spelled whole fraction exponent) (hrest : Ends rest) :
    unsigned? negative (whole ++ fraction ++ exponent ++ rest) =
      some (.float (Binary64.ofDecimal negative
        (Nat.ofDigitChars 10 (whole ++ fraction.filter Char.isDigit) 0)
        (exponentValue exponent - (fraction.filter Char.isDigit).length)), rest) := by
  have hhead : ∀ c ∈ (exponent ++ rest).head?, c.isDigit = false ∧ c ≠ '.' := by
    intro c hc
    cases hs.power with
    | none => rcases hrest c hc with rfl | rfl | rfl | rfl <;> decide
    | signed hsign hd hne =>
      obtain rfl := Option.some.inj hc
      decide
  have hfollow : ∀ c ∈ (fraction ++ (exponent ++ rest)).head?, c.isDigit = false := by
    intro c hc
    cases hs.places with
    | none => exact (hhead c hc).1
    | places hd hne =>
      obtain rfl := Option.some.inj hc
      rfl
  have hsome : (fraction.isEmpty && exponent.isEmpty) = false := by simpa using hs.decimal
  -- one of the two parts is there, so this is no whole number
  obtain ⟨e, hpower, hvalue, hnone⟩ := exponentPart_append hs.power hrest
  rw [List.append_assoc, List.append_assoc, unsigned?_append hs.digits hs.nonempty hs.leads hfollow
    (fractionPart_append hs.places hhead) hpower, isEmpty_places hs.places, hnone, hsome,
    hvalue, digitsNat_eq]
  rfl

theorem named?_append {word : String} {j : Json} (h : (word, j) ∈ names) (rest : List Char) :
    named? (word.toList ++ rest) = some (j, rest) := by
  simp only [names, List.mem_cons, List.not_mem_nil, or_false, Prod.mk.injEq] at h
  rcases h with ⟨rfl, rfl⟩ | ⟨rfl, rfl⟩ | ⟨rfl, rfl⟩ | ⟨rfl, rfl⟩ | ⟨rfl, rfl⟩ | ⟨rfl, rfl⟩ <;> rfl

/-- No word starts with a digit, or with a digit behind a minus sign. -/
theorem head_of_names {e : String × Json} (h : e ∈ names) :
    ∃ a b w, e.1.toList = a :: b :: w ∧ a.isDigit = false ∧ b.isDigit = false := by
  have hall : names.all (fun e => (e.1.toList.take 2).length =
      2 && (e.1.toList.take 2).all (!·.isDigit)) = true := by
    decide
  have hword := List.all_eq_true.mp hall e h
  rcases hw : e.1.toList with - | ⟨a, - | ⟨b, w⟩⟩
  · simp [hw] at hword
  · simp [hw] at hword
  · refine ⟨a, b, w, rfl, ?_⟩
    simpa [hw] using hword

theorem named?_eq_none {cs : List Char} (h : ∀ e ∈ names, ¬ e.1.toList <+: cs) :
    named? cs = none := by
  refine List.findSome?_eq_none_iff.mpr fun e he => ?_
  have hnone : dropWord? e.1 cs = none := by
    unfold dropWord?
    rw [if_neg (by simpa using h e he)]
  change (dropWord? e.1 cs).map _ = none
  rw [hnone, Option.map_none]

theorem named?_digit (h : c.isDigit = true) (cs : List Char) : named? (c :: cs) = none := by
  refine named?_eq_none fun e he hpre => ?_
  obtain ⟨a, b, w, hw, ha, -⟩ := head_of_names he
  rw [hw, List.cons_prefix_cons] at hpre
  rw [hpre.1, h] at ha
  cases ha

theorem named?_minus (h : c.isDigit = true) (cs : List Char) : named? ('-' :: c :: cs) = none := by
  refine named?_eq_none fun e he hpre => ?_
  obtain ⟨a, b, w, hw, -, hb⟩ := head_of_names he
  rw [hw, List.cons_prefix_cons, List.cons_prefix_cons] at hpre
  rw [hpre.2.1, h] at hb
  cases hb

/-- Digits, with a minus sign or without, are a number. -/
theorem scalar?_signed {cs : List Char} {m : Number} (hc : c.isDigit = true)
    (h : unsigned? negative (c :: cs) = some (m, rest)) :
    scalar? (if negative then '-' :: c :: cs else c :: cs) = some (.number m, rest) := by
  cases negative with
  | true =>
    simp only [if_true, scalar?, named?_minus hc, h]
    rfl
  | false =>
    have hminus : c ≠ '-' := by
      rintro rfl
      cases hc
    unfold scalar?
    rw [if_neg Bool.false_ne_true, named?_digit hc]
    split
    · rename_i heq
      exact absurd (List.cons.inj heq).1 hminus
    · rw [h]
      rfl

def IsRead : Number → Prop
  | .int n => (natDigits n.natAbs).length ≤ Text.digitLimit
  | .float _ => True
  | .missing => False

theorem nearest?_withSign (negative : Bool) (num den : Nat) :
    Binary64.nearest? negative num den = (Binary64.nearest? false num den).map
      (Binary64.withSign negative) := by
  unfold Binary64.nearest?
  simp only
  split
  · rfl
  · rfl

theorem ofDecimal_withSign (negative : Bool) (m : Nat) (e : Int) :
    Binary64.ofDecimal negative m e = Binary64.withSign negative
      (Binary64.ofDecimal false m e) := by
  unfold Binary64.ofDecimal
  simp only [nearest?_withSign negative]
  split_ifs
  · rfl
  · rfl
  · rfl
  · exact Option.getD_map ..
  · exact Option.getD_map ..

theorem eq_of_isNaN {x : Float} (h : x.isNaN = true) : x = Binary64.notANumber := by
  rw [Binary64.eq_of_unpack (Binary64.unpack_of_isNaN.mp h)]
  decide

theorem eq_of_isInf {x : Float} (h : x.isInf = true) :
    x = if x < 0.0 then Binary64.negInf else Binary64.posInf := by
  change x.toModel.unpack.isInf = true at h
  cases hu : x.toModel.unpack with
  | infinity s =>
    rw [Binary64.eq_of_unpack hu]
    cases s <;> decide
  | notANumber | zero _ | finite _ _ _ _ =>
    rw [hu] at h
    cases h

theorem scalar?_name {word : String} {j : Json} (h : (word, j) ∈ names) (rest : List Char) :
    scalar? (word.toList ++ rest) = some (j, rest) := by
  unfold scalar?
  rw [named?_append h, Option.some_or]

/-- A finite value is read back from its shortest form. -/
theorem scalar?_finite {x : Float} (h : x.isFinite = true) (hrest : Ends rest) :
    scalar? ((Decimal.text x).toList ++ rest) = some (.number (.float x), rest) := by
  obtain ⟨v, ⟨whole, fraction, exponent, hs, htext, hvalue⟩, hnearest⟩ := spells_unsignedText h
  obtain ⟨c, cs, rfl⟩ := List.exists_cons_of_ne_nil hs.nonempty
  have hread := @unsigned?_spelled (c :: cs) fraction exponent rest (Binary64.signBit x) hs hrest
  rw [ofDecimal_withSign, hnearest _ _ hvalue, Binary64.withSign_modulus h] at hread
  have hscalar := scalar?_signed (hs.digits c List.mem_cons_self) hread
  rw [text_finite h, htext]
  cases hsign : Binary64.signBit x with
  | true => simpa [hsign] using hscalar
  | false => simpa [hsign] using hscalar

theorem scalar?_numberText {m : Number} (h : IsRead m) (hrest : Ends rest) :
    scalar? ((numberText m).toList ++ rest) = some (.number m, rest) := by
  cases m with
  | missing => cases h
  | int n =>
    obtain ⟨c, cs, hcs⟩ := List.exists_cons_of_ne_nil (natDigits_ne n.natAbs)
    have hc : c.isDigit = true := decimals_natDigits n.natAbs c (by simp [hcs])
    have hread := @unsigned?_natDigits rest (decide (n < 0)) n.natAbs h hrest
    rw [hcs, List.cons_append] at hread
    have hscalar := scalar?_signed hc hread
    rw [numberText, toList_intText, hcs]
    by_cases hneg : n < 0
    · simp only [hneg, decide_true, if_true] at hscalar ⊢
      rwa [show -(n.natAbs : Int) = n by omega] at hscalar
    · simp only [hneg, decide_false, Bool.false_eq_true, if_false] at hscalar ⊢
      rwa [show (n.natAbs : Int) = n by omega] at hscalar
  | float x =>
    simp only [numberText]
    split
    · rename_i hnan
      rw [eq_of_isNaN hnan]
      exact scalar?_name (by simp [names]) rest
    · rename_i hnan
      split
      · rename_i hinf
        have hx := eq_of_isInf hinf
        split
        · rename_i hneg
          rw [if_pos hneg] at hx
          rw [hx]
          exact scalar?_name (by simp [names]) rest
        · rename_i hpos
          rw [if_neg hpos] at hx
          rw [hx]
          exact scalar?_name (by simp [names]) rest
      · rename_i hinf
        have hfinite : x.isFinite = true := by
          rw [Binary64.isFinite_eq, Bool.eq_false_iff.mpr hnan, Bool.eq_false_iff.mpr hinf]
          rfl
        exact scalar?_finite hfinite hrest

theorem digitsNat_lt (hd : Decimals ds) : digitsNat ds < 10 ^ ds.length := by
  induction ds using List.reverseRecOn with
  | nil => decide
  | append_singleton ds c ih =>
    have hlast := Text.code_of_isDigit (hd c (by simp))
    have hfirst := ih fun d hmem => hd d (List.mem_append_left _ hmem)
    rw [digitsNat, List.foldl_append, List.length_append, List.length_singleton, Nat.pow_succ]
    change 10 * digitsNat ds + (c.toNat - 0x30) < _
    omega

theorem decimals_wholeDigits (cs : List Char) : Decimals (wholeDigits cs) := by
  unfold wholeDigits
  split
  · simp [Decimals]
  · exact fun c hc => List.mem_takeWhile_imp hc

theorem isRead_of_unsigned? {cs : List Char} {m : Number}
    (h : unsigned? negative cs = some (m, rest)) : IsRead m := by
  unfold unsigned? at h
  simp only at h
  split at h
  · cases h
  · rename_i hsome
    split at h
    · split at h
      · cases h
      · rename_i hshort
        obtain ⟨rfl, -⟩ := Prod.mk.inj (Option.some.inj h)
        have hpos : 0 < (wholeDigits cs).length := List.length_pos_iff.mpr (by simpa using hsome)
        have hlength : (natDigits (digitsNat (wholeDigits cs))).length ≤ (wholeDigits cs).length :=
          (Nat.length_toDigits_le_iff (by decide) hpos).mpr (digitsNat_lt (decimals_wholeDigits cs))
        have habs : (if negative = true then -(digitsNat (wholeDigits cs) : Int)
            else digitsNat (wholeDigits cs)).natAbs = digitsNat (wholeDigits cs) := by
          split <;> simp
        rw [IsRead, habs]
        exact hlength.trans (Nat.not_lt.mp hshort)
    · obtain ⟨rfl, -⟩ := Prod.mk.inj (Option.some.inj h)
      trivial

end Machining.Json
