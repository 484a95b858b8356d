import Machining.Proofs.Layout
import Machining.Proofs.Literal

namespace Machining.Expression
open Machining.Decimal

def Decimals (ds : List Char) : Prop := ∀ c ∈ ds, c.isDigit = true

variable {cs ds whole places rest : List Char} {c : Char}

theorem Decimals.append {ds es : List Char} (hd : Decimals ds) (he : Decimals es) :
    Decimals (ds ++ es) :=
  List.forall_mem_append.mpr ⟨hd, he⟩

theorem decimals_replicate (n : Nat) : Decimals (List.replicate n '0') := by
  intro c hc
  rw [List.eq_of_mem_replicate hc]
  rfl

theorem decimals_natDigits (n : Nat) : Decimals (natDigits n) :=
  fun _ hc => Nat.isDigit_of_mem_toDigits (by decide) (by decide) hc

theorem isDigit_decimal (h : c.isDigit = true) : Radix.decimal.isDigit c = true := by
  have := Text.code_of_isDigit h
  simp only [Radix.isDigit, Radix.digitOf, h, Radix.base, Bool.true_or, Bool.true_and,
    decide_eq_true_eq, if_true]
  omega

theorem isDigit_decimal_of_not (h : c.isDigit = false) : Radix.decimal.isDigit c = false := by
  rw [Bool.eq_false_iff]
  intro hdigit
  have hall : numeralAlphabet.all (fun c => c.isDigit || !Radix.decimal.isDigit c) = true := by
    decide +kernel
  have := List.all_eq_true.mp hall c (Radix.mem_alphabet hdigit)
  simp [h, hdigit] at this

/-- A row of digits ends where something else than a digit or an underscore stands. -/
theorem row_decimals {due free : Bool} (hd : Decimals ds) (hdue : due = true → ds ≠ [])
    (hrest : ∀ c ∈ rest.head?, c.isDigit = false ∧ c ≠ '_') :
    Radix.decimal.row due free (ds ++ rest) = .ok ds := by
  induction ds generalizing due free with
  | nil =>
    have hno : due = false := by
      cases due with
      | false => rfl
      | true => exact absurd rfl (hdue rfl)
    subst hno
    cases rest with
    | nil => rfl
    | cons c rest =>
      obtain ⟨hdigit, hbar⟩ := hrest c rfl
      simp [Radix.row, hdigit, hbar, isDigit_decimal_of_not hdigit]
  | cons d ds ih =>
    have htail : Radix.decimal.row false true (ds ++ rest) = .ok ds :=
      ih (fun c hc => hd c (List.mem_cons_of_mem _ hc)) (by simp)
    simp [Radix.row, isDigit_decimal (hd d List.mem_cons_self), htail, Except.map]

theorem value_decimals (hd : Decimals ds) : Radix.decimal.value ds = Nat.ofDigitChars 10 ds 0 := by
  have hfilter : ds.filter (· ≠ '_') = ds := by
    rw [List.filter_eq_self]
    intro c hc
    simpa using ne_of_isDigit (hd c hc) (by decide)
  have hfold (n : Nat) :
      ds.foldl (fun n c => Radix.decimal.base * n + Radix.digitOf c) n =
        Nat.ofDigitChars 10 ds n := by
    clear hfilter
    induction ds generalizing n with
    | nil => rfl
    | cons d ds ih =>
      have hdigit : Radix.digitOf d = d.toNat - '0'.toNat := by
        rw [Radix.digitOf, if_pos (hd d List.mem_cons_self)]
        rfl
      rw [List.foldl_cons, ih fun c hc => hd c (List.mem_cons_of_mem _ hc),
        Nat.ofDigitChars_cons, hdigit]
      rfl
  rw [Radix.value, hfilter, hfold]

inductive FractionPart : List Char → Prop where
  | none : FractionPart []
  | places {ds : List Char} (hd : Decimals ds) (hne : ds ≠ []) : FractionPart ('.' :: ds)

inductive ExponentPart : List Char → Prop where
  | none : ExponentPart []
  | signed {s : Char} {ds : List Char} (hs : s = '+' ∨ s = '-') (hd : Decimals ds) (hne : ds ≠ []) :
    ExponentPart ('e' :: s :: ds)

variable {fraction exponent : List Char}

theorem ExponentPart.head (h : ExponentPart exponent) : ∀ c ∈ exponent.head?, c = 'e' := by
  cases h with
  | none => simp
  | signed hs hd hne => simp

theorem FractionPart.head (hf : FractionPart fraction) (he : ExponentPart exponent) :
    ∀ c ∈ (fraction ++ exponent).head?, c = '.' ∨ c = 'e' := by
  cases hf with
  | none => exact fun c hc => .inr (he.head c hc)
  | places hd hne => simp

theorem startsDigit_decimals (hd : Decimals ds) (hne : ds ≠ []) :
    startsDigit (ds ++ rest) = true := by
  cases ds with
  | nil => exact absurd rfl hne
  | cons d ds => exact hd d List.mem_cons_self

theorem FractionPart.row (hf : FractionPart fraction) (he : ExponentPart exponent) :
    fractionRow (fraction ++ exponent) = .ok fraction := by
  cases hf with
  | none =>
    cases he with
    | none => rfl
    | signed hs hd hne => rfl
  | places hd hne =>
    have hrest : ∀ c ∈ exponent.head?, c.isDigit = false ∧ c ≠ '_' := by
      intro c hc
      rw [he.head c hc]
      decide
    rw [List.cons_append, fractionRow, if_pos (startsDigit_decimals hd hne),
      row_decimals hd (fun _ => hne) hrest]
    rfl

theorem ExponentPart.row (he : ExponentPart exponent) : exponentRow exponent = .ok exponent := by
  cases he with
  | none => rfl
  | @signed s ds hs hd hne =>
    have hsign : exponentSign (s :: ds) = [s] := by rcases hs with rfl | rfl <;> rfl
    have hrow : Radix.decimal.row true false ds = .ok ds := by
      have := @row_decimals ds [] true false hd (fun _ => hne) (by simp)
      rwa [List.append_nil] at this
    have hstarts : startsDigit ds = true := by
      have := @startsDigit_decimals ds [] hd hne
      rwa [List.append_nil] at this
    rw [exponentRow, if_pos (.inl rfl)]
    simp only [hsign, List.length_singleton, List.drop_succ_cons, List.drop_zero]
    rw [if_pos hstarts, hrow]
    rfl

theorem ofLetter?_of_isDigit (h : c.isDigit = true) : Radix.ofLetter? c = none := by
  have hsmall := (Text.code_of_isDigit h).2
  have := ascii_forall (p := fun c => !c.isDigit || (Radix.ofLetter? c).isNone) (by decide +kernel)
    (show c.toNat < 128 by omega)
  simpa [h] using this

/-- Digits, perhaps with a fraction and an exponent, are read to their end. -/
theorem numeral_parts (hw : Decimals whole) (hne : whole ≠ []) (hf : FractionPart fraction)
    (he : ExponentPart exponent) :
    numeral (whole ++ fraction ++ exponent) = realNumeral whole fraction exponent [] := by
  have hhead := hf.head he
  have hplain : Plain (whole ++ fraction ++ exponent) := by
    intro l more heq
    rw [List.append_assoc] at heq
    rcases whole with - | ⟨w, - | ⟨v, whole⟩⟩
    · exact absurd rfl hne
    · have hl : fraction ++ exponent = l :: more := (List.cons.inj heq).2
      rcases hhead l (by rw [hl]; rfl) with rfl | rfl <;> rfl
    · obtain ⟨rfl, -⟩ := List.cons.inj (List.cons.inj heq).2
      exact ofLetter?_of_isDigit (hw v (by simp))
  have hparts : DecimalParts (whole ++ fraction ++ exponent) whole fraction exponent := by
    constructor
    · rw [List.append_assoc, wholeRow, if_pos (startsDigit_decimals hw hne)]
      refine row_decimals hw (fun _ => hne) fun c hc => ?_
      rcases hhead c hc with rfl | rfl <;> decide
    · rw [List.append_assoc, List.drop_left]
      exact hf.row he
    · rw [← List.length_append, List.drop_left]
      exact he.row
  rw [hplain.numeral_eq, hparts.numeral_eq, ← List.length_append, ← List.length_append,
    List.drop_length, closeNumeral]

/-- Digits with a fraction or an exponent are a numeral. -/
theorem numeral_decimals (hw : Decimals whole) (hne : whole ≠ []) (hf : FractionPart fraction)
    (he : ExponentPart exponent) (hsome : ¬ (fraction = [] ∧ exponent = [])) :
    numeral (whole ++ fraction ++ exponent) =
      .ok ⟨.real (.float (decimalValue whole fraction exponent)),
        (whole ++ fraction ++ exponent).length⟩ := by
  rw [numeral_parts hw hne hf he, realNumeral, if_neg (by simpa using hsome), ← List.length_append,
    ← List.length_append]
  rfl

/-- A text is a numeral for `n * 10 ^ e`. -/
def Writes (cs : List Char) (v : ℚ) : Prop :=
  startsNumeral cs = true ∧ ∃ (n : Nat) (e : Int), (n : ℚ) * 10 ^ e = v ∧
    numeral cs = .ok ⟨.real (.float (Binary64.ofDecimal false n e)), cs.length⟩

theorem filter_decimals (hd : Decimals ds) : ds.filter Char.isDigit = ds :=
  List.filter_eq_self.mpr hd

theorem startsNumeral_decimals (hd : Decimals ds) (hne : ds ≠ []) :
    startsNumeral (ds ++ rest) = true := by
  cases ds with
  | nil => exact absurd rfl hne
  | cons d ds =>
    have hdigit := hd d List.mem_cons_self
    unfold startsNumeral
    split
    · rename_i heq
      obtain ⟨rfl, -⟩ := List.cons.inj heq
      cases hdigit
    · exact hdigit

structure Spelled (whole fraction exponent : List Char) : Prop where
  digits : Decimals whole
  nonempty : whole ≠ []
  leads : whole = ['0'] ∨ whole.head? ≠ some '0'
  places : FractionPart fraction
  power : ExponentPart exponent
  decimal : ¬ (fraction = [] ∧ exponent = [])

/-- A text spells out `v`, by its digits and the exponent that point and exponent make. -/
def SpellsOut (cs : List Char) (v : ℚ) : Prop :=
  ∃ whole fraction exponent, Spelled whole fraction exponent ∧ cs = whole ++ fraction ++ exponent ∧
    (Nat.ofDigitChars 10 (whole ++ fraction.filter Char.isDigit) 0 : ℚ) *
      10 ^ (exponentValue exponent - (fraction.filter Char.isDigit).length) = v

theorem SpellsOut.writes {v : ℚ} (h : SpellsOut cs v) : Writes cs v := by
  obtain ⟨whole, fraction, exponent, hs, rfl, hvalue⟩ := h
  have hstarts : startsNumeral (whole ++ (fraction ++ exponent)) = true :=
    startsNumeral_decimals hs.digits hs.nonempty
  refine ⟨by rwa [List.append_assoc], _, _, hvalue, ?_⟩
  have hplaces : Decimals (fraction.filter Char.isDigit) := fun c hc => (List.mem_filter.mp hc).2
  rw [numeral_decimals hs.digits hs.nonempty hs.places hs.power hs.decimal, decimalValue,
    value_decimals (hs.digits.append hplaces)]

theorem filter_point (hp : Decimals places) : ('.' :: places).filter Char.isDigit = places := by
  rw [List.filter_cons_of_neg (by decide), filter_decimals hp]

theorem spells_point (hw : Decimals whole) (hne : whole ≠ [])
    (hlead : whole = ['0'] ∨ whole.head? ≠ some '0') (hp : Decimals places) (hsome : places ≠ []) :
    SpellsOut (whole ++ '.' :: places)
      (Nat.ofDigitChars 10 (whole ++ places) 0 * 10 ^ (-(places.length : Int))) := by
  refine ⟨whole, '.' :: places, [], ⟨hw, hne, hlead, .places hp hsome, .none, by simp⟩, by simp, ?_⟩
  have hzero : exponentValue [] = 0 := rfl
  rw [filter_point hp, hzero, zero_sub]

theorem exponentValue_signed {s : Char} (hs : s = '+' ∨ s = '-') (hd : Decimals ds) :
    exponentValue ('e' :: s :: ds) =
      if s = '-' then -(Nat.ofDigitChars 10 ds 0 : Int) else (Nat.ofDigitChars 10 ds 0 : Int) := by
  have hsign : s.isDigit = false := by rcases hs with rfl | rfl <;> rfl
  have hfilter : ('e' :: s :: ds).filter Char.isDigit = ds := by
    rw [List.filter_cons_of_neg (by decide), List.filter_cons_of_neg (by simp [hsign]),
      filter_decimals hd]
  have hminus : ('e' :: s :: ds).contains '-' = decide (s = '-') := by
    have hnot : '-' ∉ ds := fun hmem => by cases hd '-' hmem
    rcases hs with rfl | rfl <;> simp [hnot]
  rw [exponentValue, hfilter, hminus, value_decimals hd]
  simp

theorem natDigits_ne (n : Nat) : natDigits n ≠ [] := Nat.toDigits_ne_nil

theorem ofDigitChars_natDigits (n : Nat) : Nat.ofDigitChars 10 (natDigits n) 0 = n :=
  Nat.ofDigitChars_toDigits (by decide) (by decide)

theorem natDigits_split (n : Nat) (h : 10 ≤ n) :
    natDigits n = natDigits (n / 10) ++ [(n % 10).digitChar] :=
  Nat.toDigits_of_base_le (by decide) h

theorem head?_natDigits {n : Nat} (h : n ≠ 0) : (natDigits n).head? ≠ some '0' := by
  induction n using Nat.strong_induction_on with
  | _ n ih =>
    by_cases hsmall : n < 10
    · have hdigits : natDigits n = [n.digitChar] := Nat.toDigits_of_lt_base hsmall
      rw [hdigits, List.head?_singleton, ne_eq, Option.some.injEq]
      intro hzero
      have hcode := congrArg Char.toNat hzero
      rw [Nat.toNat_digitChar_of_lt_ten hsmall] at hcode
      exact h (Nat.add_left_cancel hcode)
    · rw [natDigits_split n (by omega), List.head?_append_of_ne_nil _ (natDigits_ne _)]
      exact ih (n / 10) (by omega) (by omega)

theorem toList_intText (n : Int) :
    (intText n).toList = if n < 0 then '-' :: natDigits n.natAbs else natDigits n.natAbs := by
  unfold intText natText
  split <;> simp

/-- Digits around a point stand for what they do without it, with the exponent that the point
makes. -/
theorem spells_positional (hd : Decimals ds) (hne : ds ≠ []) (hlead : ds.head? ≠ some '0')
    (point : Int) :
    SpellsOut (positional ds point) (Nat.ofDigitChars 10 ds 0 * 10 ^ (point - ds.length)) := by
  unfold positional
  split
  · have hplaces := (decimals_replicate (-point).toNat).append hd
    have hspells :=
      @spells_point ['0'] _ (by simp [Decimals]) (by simp) (.inl rfl) hplaces (by simp [hne])
    have hdigits : Nat.ofDigitChars 10 (['0'] ++ (List.replicate (-point).toNat '0' ++ ds)) 0 =
        Nat.ofDigitChars 10 ds 0 := by
      rw [Nat.ofDigitChars_append, Nat.ofDigitChars_append, Nat.ofDigitChars_replicate_zero]
      rfl
    have hlength : -((List.replicate (-point).toNat '0' ++ ds).length : Int) =
        point - ds.length := by
      rw [List.length_append, List.length_replicate]
      omega
    rwa [hdigits, hlength] at hspells
  · simp only
    by_cases hinside : point.toNat < ds.length
    · have hwhole : Decimals (ds.take point.toNat) := fun c hc => hd c (List.mem_of_mem_take hc)
      have hplaces : Decimals (ds.drop point.toNat) := fun c hc => hd c (List.mem_of_mem_drop hc)
      have hrest : ds.drop point.toNat ≠ [] := by
        intro hnil
        have := List.drop_eq_nil_iff.mp hnil
        omega
      have htake : (ds.take point.toNat).length = point.toNat := List.length_take_of_le hinside.le
      have hfirst : ds.take point.toNat ≠ [] := by
        intro hnil
        rw [hnil, List.length_nil] at htake
        omega
      have htop : (ds.take point.toNat).head? ≠ some '0' := by
        rwa [List.head?_take, if_neg (by omega)]
      have hspells := spells_point hwhole hfirst (.inr htop) hplaces hrest
      have hlength : -((ds.drop point.toNat).length : Int) = point - ds.length := by
        rw [List.length_drop]
        omega
      rw [List.take_append_drop, hlength] at hspells
      rwa [htake, Nat.sub_self, List.replicate_zero, List.append_nil, if_neg (by simpa using hrest)]
    · have hwhole := hd.append (decimals_replicate (point.toNat - ds.length))
      have htop : (ds ++ List.replicate (point.toNat - ds.length) '0').head? ≠ some '0' := by
        rwa [List.head?_append_of_ne_nil _ hne]
      have hspells :=
        @spells_point _ ['0'] hwhole (by simp [hne]) (.inr htop) (by simp [Decimals]) (by simp)
      have hdigits : Nat.ofDigitChars 10
          (ds ++ List.replicate (point.toNat - ds.length) '0' ++ ['0']) 0 =
          10 * (10 ^ (point.toNat - ds.length) * Nat.ofDigitChars 10 ds 0) := by
        rw [Nat.ofDigitChars_append, Nat.ofDigitChars_append, Nat.ofDigitChars_replicate_zero]
        rfl
      have hvalue :
        (Nat.ofDigitChars 10 (ds ++ List.replicate (point.toNat - ds.length) '0' ++ ['0']) 0 : ℚ) *
          10 ^ (-((['0'] : List Char).length : Int)) =
            Nat.ofDigitChars 10 ds 0 * 10 ^ (point - ds.length) := by
        rw [hdigits, show point - ds.length =
          ((point.toNat - ds.length : Nat) : Int) by omega, zpow_natCast]
        push_cast
        rw [List.length_singleton, Nat.cast_one, zpow_neg_one]
        ring
      rw [hvalue] at hspells
      rwa [List.take_of_length_le (by omega), List.drop_of_length_le (by omega)]

/-- Digits with an exponent stand for what they do with the point behind the first of them. -/
theorem spells_scientific (hd : Decimals ds) (hne : ds ≠ []) (hlead : ds.head? ≠ some '0')
    (leading : Int) :
    SpellsOut (scientific Layout.standard ds leading)
      (Nat.ofDigitChars 10 ds 0 * 10 ^ (leading - (ds.length - 1))) := by
  have hexponent : Decimals (padLeft 2 (natDigits leading.natAbs)) :=
    (decimals_replicate _).append (decimals_natDigits _)
  have hsome : padLeft 2 (natDigits leading.natAbs) ≠ [] := by
    unfold padLeft
    simp [natDigits_ne]
  have hsign : (if leading < 0 then '-' else '+') = '+' ∨
      (if leading < 0 then '-' else '+') = '-' := by
    split <;> simp
  have hvalue : exponentValue
      ('e' :: (if leading < 0 then '-' else '+') :: padLeft 2 (natDigits leading.natAbs)) =
      leading := by
    have hdigits : Nat.ofDigitChars 10 (padLeft 2 (natDigits leading.natAbs)) 0 =
        leading.natAbs := by
      rw [padLeft, Nat.ofDigitChars_append, Nat.ofDigitChars_replicate_zero, Nat.mul_zero,
        ofDigitChars_natDigits]
    rw [exponentValue_signed hsign hexponent, hdigits]
    by_cases hneg : leading < 0
    · rw [if_pos hneg, if_pos rfl]
      omega
    · rw [if_neg hneg, if_neg (by decide)]
      omega
  have hpart := ExponentPart.signed hsign hexponent hsome
  rcases ds with - | ⟨d, - | ⟨c, ds⟩⟩
  · exact absurd rfl hne
  · refine ⟨[d], [], _, ⟨hd, hne, .inr hlead, .none, hpart, by simp⟩,
      by simp [scientific, Layout.standard], ?_⟩
    rw [hvalue]
    simp
  · have hfirst : Decimals [d] := fun x hx => hd x (by simp_all)
    have hplaces : Decimals (c :: ds) := fun x hx => hd x (List.mem_cons_of_mem _ hx)
    refine ⟨[d], '.' :: c :: ds, _,
      ⟨hfirst, by simp, .inr hlead, .places hplaces (by simp), hpart, by simp⟩,
      by simp [scientific, Layout.standard], ?_⟩
    rw [filter_point hplaces, hvalue]
    simp

/-- The written form of digits stands for them. -/
theorem spells_write {d : Digits} (h : d.digits ≠ 0) :
    SpellsOut (Layout.standard.write d) (d.digits * 10 ^ d.exponent) := by
  have hdigits := ofDigitChars_natDigits d.digits
  unfold Layout.write
  simp only
  split
  · have := spells_positional (decimals_natDigits d.digits) (natDigits_ne _) (head?_natDigits h)
       (d.exponent + (natDigits d.digits).length)
    rwa [hdigits, add_sub_cancel_right] at this
  · have := spells_scientific (decimals_natDigits d.digits) (natDigits_ne _) (head?_natDigits h)
      (d.exponent + (natDigits d.digits).length - 1)
    rwa [hdigits, sub_sub_sub_cancel_right, add_sub_cancel_right] at this

open Binary64 Float.Model

def unsignedText (x : Float) : List Char :=
  if x == 0.0 then ['0', '.', '0'] else Layout.standard.write (shortest x)

theorem text_finite {x : Float} (h : x.isFinite = true) :
    (Decimal.text x).toList = if signBit x then '-' :: unsignedText x else unsignedText x := by
  rw [isFinite_eq, Bool.and_eq_true, Bool.not_eq_true', Bool.not_eq_true'] at h
  rw [Decimal.text, Layout.text, if_neg (by rw [h.1]; decide), if_neg (by rw [h.2]; decide),
    String.toList_ofList]
  rfl

/-- The zeros are the values without a mantissa. -/
theorem beq_zero_iff {x : Float} (h : x.isFinite = true) :
    (x == 0.0) = true ↔ (parts x).mantissa = 0 := by
  have hunpack := unpack_finite h rfl rfl rfl
  have hzero : (0.0 : Float).toModel.unpack = .zero .positive := rfl
  change x.toModel.unpack.beq (0.0 : Float).toModel.unpack = true ↔ _
  rw [hunpack, hzero]
  split
  · rename_i hpos
    have hne : (parts x).mantissa ≠ 0 := hpos.ne'
    have hbeq :
        (UnpackedFloat.finite (sign x) (parts x).mantissa (parts x).exponent hpos).beq
          (.zero .positive) = false := by
      cases sign x <;> rfl
    simp [hne, hbeq]
  · rename_i hnone
    have hnil : (parts x).mantissa = 0 := by omega
    have hbeq : (UnpackedFloat.zero (sign x)).beq (.zero .positive) = true := by
      cases sign x <;> rfl
    simp [hnil, hbeq]

theorem mantissa_of_modulus {x : Float} (h : x.isFinite = true) (hzero : modulus x = 0.0) :
    (parts x).mantissa = 0 := by
  have hbits := toBits_modulus h
  have hnone : (0.0 : Float).toBits.toNat = 0 := by decide
  rw [hzero, hnone, ← encoding_parts, encoding] at hbits
  omega

theorem shortest_digits_ne {x : Float} (h : x.isFinite = true) (hpos : 0 < (parts x).mantissa) :
    (shortest x).digits ≠ 0 := by
  intro hnone
  have hread : ofDecimal false 0 0 = modulus x := ofDecimal_shortest h hpos (by rw [hnone]; simp)
  have hmantissa := mantissa_of_modulus h (hread.symm.trans rfl)
  omega

/-- The written form of a finite value, without its sign, spells out a number whose nearest value is
its modulus. -/
theorem spells_unsignedText {x : Float} (h : x.isFinite = true) :
    ∃ v, SpellsOut (unsignedText x) v ∧
      ∀ (n : Nat) (e : Int), (n : ℚ) * 10 ^ e = v → ofDecimal false n e = modulus x := by
  unfold unsignedText
  split
  · rename_i hzero
    have hmantissa := (beq_zero_iff h).mp hzero
    have hexponent : (parts x).exponent = -1074 := by
      rcases (parts_canonical x).filled with hleast | hlong
      · exact hleast
      · rw [hmantissa] at hlong
        omega
    have hmodulus : modulus x = 0.0 := by
      rw [modulus, hmantissa, hexponent]
      decide
    refine ⟨_, @spells_point ['0'] ['0'] (by simp [Decimals]) (by simp) (.inl rfl)
      (by simp [Decimals]) (by simp), fun n e hvalue => ?_⟩
    have hdigits : Nat.ofDigitChars 10 (['0'] ++ ['0']) 0 = 0 := rfl
    rw [hdigits, Nat.cast_zero, zero_mul, mul_eq_zero, Nat.cast_eq_zero] at hvalue
    have hn : n = 0 := hvalue.resolve_right (zpow_ne_zero e (by norm_num))
    rw [hmodulus, hn, ofDecimal, if_pos rfl]
    rfl
  · rename_i hzero
    have hpos : 0 < (parts x).mantissa :=
      Nat.pos_of_ne_zero fun hm => hzero ((beq_zero_iff h).mpr hm)
    exact ⟨_, spells_write (shortest_digits_ne h hpos),
      fun n e hvalue => ofDecimal_shortest h hpos hvalue⟩

/-- So it is a literal for the modulus. -/
theorem numeral_unsignedText {x : Float} (h : x.isFinite = true) :
    startsNumeral (unsignedText x) = true ∧
      numeral (unsignedText x) = .ok ⟨.real (.float (modulus x)), (unsignedText x).length⟩ := by
  obtain ⟨v, hspells, hnearest⟩ := spells_unsignedText h
  obtain ⟨hstarts, n, e, hvalue, hread⟩ := hspells.writes
  rw [hnearest n e hvalue] at hread
  exact ⟨hstarts, hread⟩

def Literal.ofFinite (x : Float) (h : x.isFinite = true) : Literal where
  text := unsignedText x
  value := .float (modulus x)
  found := ⟨.real (.float (modulus x)), (unsignedText x).length⟩
  starts := (numeral_unsignedText h).1
  reads := (numeral_unsignedText h).2
  complete := rfl
  means := rfl

end Machining.Expression
