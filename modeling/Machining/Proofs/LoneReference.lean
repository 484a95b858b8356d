import Machining.Proofs.Substitution

namespace Machining

/-- The binary64 value that a number is exactly. -/
structure Number.ExactAs (v : Number) (x : Float) : Prop where
  finite : x.isFinite = true
  converts : v.toFloat = .ok x
  same : (v == .float x) = true

def Number.Exact (v : Number) : Prop := ∃ x, v.ExactAs x

theorem Number.exact_float {x : Float} (h : x.isFinite = true) : (Number.float x).ExactAs x := by
  have hnan : x.isNaN = false := by
    rw [Binary64.isFinite_eq] at h
    simp_all
  exact ⟨h, rfl, float_beq_self hnan⟩

namespace Expression
open Machining.Decimal Machining.Binary64

theorem natDigits_zero_iff (n : Nat) : (natDigits n).all (· = '0') = true ↔ n = 0 := by
  constructor
  · intro hall
    by_contra hn
    obtain ⟨d, ds, hds⟩ := List.exists_cons_of_ne_nil (natDigits_ne n)
    rw [hds, List.all_cons, Bool.and_eq_true, decide_eq_true_eq] at hall
    exact head?_natDigits hn (by rw [hds, hall.1]; rfl)
  · rintro rfl
    rfl

theorem wholeNumeral_natDigits {n : Nat} (h : (natDigits n).length ≤ Text.digitLimit) :
    wholeNumeral (natDigits n) = .real (.int n) := by
  have hfilter : (natDigits n).filter (· ≠ '_') = natDigits n := by
    refine List.filter_eq_self.mpr fun c hc => ?_
    have hdigit := decimals_natDigits n c hc
    simp only [ne_eq, decide_not, Bool.not_eq_true', decide_eq_false_iff_not]
    rintro rfl
    cases hdigit
  unfold wholeNumeral
  simp only [hfilter]
  split
  · rename_i hzero
    rw [(natDigits_zero_iff n).mp hzero]
    rfl
  · rw [if_neg (by omega), value_decimals (decimals_natDigits n), ofDigitChars_natDigits]

theorem numeral_natDigits {n : Nat} (h : (natDigits n).length ≤ Text.digitLimit) :
    numeral (natDigits n) = .ok ⟨.real (.int n), (natDigits n).length⟩ := by
  have hleading : hasLeadingZero (natDigits n) [] = false := by
    by_cases hn : n = 0
    · rw [hn]
      rfl
    · simp [hasLeadingZero, head?_natDigits hn]
  have hparts := numeral_parts (decimals_natDigits n) (natDigits_ne n) .none .none
  rw [List.append_nil, List.append_nil] at hparts
  rw [hparts, realNumeral, if_pos ⟨rfl, rfl⟩, hleading, wholeNumeral_natDigits h]
  rfl

def Literal.ofNat (n : Nat) (h : (natDigits n).length ≤ Text.digitLimit) : Literal where
  text := natDigits n
  value := .int n
  found := ⟨.real (.int n), (natDigits n).length⟩
  starts := by
    rw [← List.append_nil (natDigits n)]
    exact startsNumeral_decimals (decimals_natDigits n) (natDigits_ne n)
  reads := numeral_natDigits h
  complete := rfl
  means := rfl

theorem magnitude_bound {x : Float} {k : Nat} (h : (parts x).exponent ≤ k) :
    0 ≤ magnitude x ∧ magnitude x < 2 ^ (53 + k) := by
  have hshort : ((parts x).mantissa : ℚ) < 2 ^ 53 := by exact_mod_cast (parts_canonical x).short
  have hscale : (2 : ℚ) ^ (parts x).exponent ≤ 2 ^ k := by
    rw [← zpow_natCast]
    exact zpow_le_zpow_right₀ (by norm_num) h
  unfold magnitude
  refine ⟨by positivity, ?_⟩
  calc ((parts x).mantissa : ℚ) * 2 ^ (parts x).exponent
      < 2 ^ 53 * 2 ^ (parts x).exponent := mul_lt_mul_of_pos_right hshort (by positivity)
    _ ≤ 2 ^ 53 * 2 ^ k := mul_le_mul_of_nonneg_left hscale (by positivity)
    _ = 2 ^ (53 + k) := (pow_add 2 53 k).symm

theorem natDigits_length_le {n k : Nat} (hk : 0 < k) (h : n < twoTo k) : (natDigits n).length ≤ k :=
  (Nat.length_toDigits_le_iff (by decide) hk).mpr (h.trans_le (Nat.pow_le_pow_left (by decide) _))

/-- A whole number that binary64 holds has few enough digits. -/
theorem natDigits_length {n : Int} {x : Float} (hx : x.isFinite = true)
    (h : (Number.int n == .float x) = true) : (natDigits n.natAbs).length ≤ Text.digitLimit := by
  obtain ⟨-, hvalue⟩ := Number.value?_float (Number.int_beq_iff.mp h)
  obtain ⟨k, hk, hsmall⟩ : ∃ k : Nat, (parts x).exponent ≤ k ∧ 53 + k ≤ Text.digitLimit :=
    ⟨971, exponent_le hx, by decide⟩
  obtain ⟨hnonneg, hbound⟩ := magnitude_bound hk
  have hmagnitude : (n.natAbs : ℚ) = magnitude x := by
    rw [Nat.cast_natAbs, Int.cast_abs, ← hvalue, value]
    split
    · rw [abs_neg, abs_of_nonneg hnonneg]
    · rw [abs_of_nonneg hnonneg]
  have hlt : n.natAbs < 2 ^ (53 + k) := by
    rw [← hmagnitude] at hbound
    exact_mod_cast hbound
  exact (natDigits_length_le (by omega) hlt).trans hsmall

def signed (negative : Bool) (l : Literal) : Form Literal :=
  if negative then .sign .minus (.leaf l) else .leaf l

/-- A text that evaluates to a value as it stands. -/
structure ReadsAs (cs : List Char) (x : Float) : Prop where
  within : ∀ c ∈ cs, c ∈ textAlphabet
  value : evaluateInfix cs = .ok x

theorem readsAs_signed {negative : Bool} {l : Literal} {x : Float} {v : Value}
    (hv : ((signed negative l).term Literal.term).value = .ok v) (hx : v.toFloat = .ok x) :
    ReadsAs (if negative then '-' :: l.text else l.text) x := by
  have hwf : (signed negative l).WellFormed := by
    cases negative <;> simp [signed, Form.WellFormed, Form.rank]
  have hnesting : (signed negative l).nesting ≤ bracketLimit := by
    cases negative <;> exact Nat.zero_le _
  have hdepth : ((signed negative l).term Literal.term).depth ≤ Term.depthLimit := by
    cases negative <;> simp [signed, Form.term, Unary.term, Literal.term, Term.depth,
      Term.depthLimit]
  have hspells : Spells Literal.text (signed negative l).elements (if negative then '-' :: l.text
      else l.text) := by
    cases negative <;> exact .tight _
      (by simp [signed, Form.elements, Element.text, Unary.mark, Mark.text])
  have hhead : ∀ c ∈ (if negative then '-' :: l.text else l.text).head?, isSpacing c = false := by
    obtain ⟨c, tail, htext, hc, -⟩ := l.head
    cases negative with
    | false =>
      rw [if_neg Bool.false_ne_true, htext]
      rintro d ⟨⟩
      exact (plain_of_head hc).1.1
    | true =>
      rintro d ⟨⟩
      rfl
  refine ⟨hspells.mem_textAlphabet, ?_⟩
  rw [(evaluateInfix_spelled hwf hspells hhead).1 hnesting, Term.result_eq_ok]
  exact ⟨hdepth, by rw [hv]; exact hx⟩

/-- A whole number is read back from its digits, and converted then. -/
theorem readsAs_int {n : Int} {x : Float} (hlength : (natDigits n.natAbs).length ≤ Text.digitLimit)
    (hx : (Number.int n).toFloat = .ok x) : ReadsAs (Number.int n).text.toList x := by
  have htext : (Number.int n).text.toList = if decide (n < 0)
      then '-' :: (Literal.ofNat n.natAbs hlength).text
      else (Literal.ofNat n.natAbs hlength).text := by
    simp only [decide_eq_true_eq]
    exact toList_intText n
  have hvalue :
      ((signed (decide (n < 0)) (Literal.ofNat n.natAbs hlength)).term Literal.term).value =
        .ok (.int n) := by
    by_cases hn : n < 0
    · have hneg : -(n.natAbs : Int) = n := by omega
      rw [decide_eq_true hn]
      change Except.ok (Value.int (-(n.natAbs : Int))) = _
      rw [hneg]
    · have hpos : (n.natAbs : Int) = n := by omega
      rw [decide_eq_false hn]
      change Except.ok (Value.int (n.natAbs : Int)) = _
      rw [hpos]
  rw [htext]
  exact readsAs_signed hvalue hx

/-- A number that binary64 holds is read back from its written form. -/
theorem readsAs_text {v : Number} {x : Float} (h : v.ExactAs x) : ReadsAs v.text.toList x := by
  cases v with
  | missing => cases h.converts
  | float y =>
    obtain rfl : y = x := Except.ok.inj h.converts
    have hwritten : Finite.written id ⟨y, h.finite⟩ =
        signed (signBit y) (Finite.literal ⟨y, h.finite⟩) := rfl
    have hvalue := Form.value_written ⟨y, h.finite⟩
    rw [hwritten] at hvalue
    rw [float_text ⟨y, h.finite⟩]
    exact readsAs_signed hvalue rfl
  | int n => exact readsAs_int (natDigits_length h.finite h.same) h.converts

variable {r : Reference} {vars : Bindings} {line : Int}

theorem evaluate_substituted {cs : List Char} {ds : List Diagnostic} {x : Float}
    (h : substituteFrom vars line 0 r.text = (cs, ds)) (hcs : ReadsAs cs x) :
    evaluate (String.ofList r.text) vars line = ⟨ds, .ok x⟩ := by
  obtain ⟨hhead, hlast⟩ := (Element.atom (.reference r)).solid
  have htrim : Text.trim (String.ofList r.text).toList = r.text := by
    rw [String.toList_ofList]
    exact Text.trim_solid hhead hlast
  unfold evaluate substitute
  simp only [htrim, h]
  rw [if_neg (by simp [Reference.text]), evaluateClosed_eq hcs.within, hcs.value]

/-- A reference with a value evaluates to it. -/
theorem evaluate_reference {v : Number} {x : Float} (hvar : vars.get? r.key = some v)
    (hv : v.ExactAs x) : evaluate (String.ofList r.text) vars line = ⟨[], .ok x⟩ := by
  refine evaluate_substituted ?_ (readsAs_text hv)
  rw [← List.append_nil r.text, substituteFrom_reference hvar (by simp), substituteFrom,
    List.append_nil]

/-- A reference without a value is zero, and is reported as it is spelled. -/
theorem evaluate_undefined (hvar : vars.get? r.key = none) :
    evaluate (String.ofList r.text) vars line =
      ⟨[.onLine line .runtime ("Undefined variable: " ++ String.ofList r.text)], .ok 0.0⟩ := by
  have hreference : referenceAt? r.body = some (r.label, r.body.length) := by
    rw [← List.append_nil r.body, referenceAt?_body r (by simp), List.append_nil]
  have hkey : vars.get? (String.ofList ('#' :: r.label)) = none := hvar
  have hsubstitute : substituteFrom vars line 0 r.text =
      (['0'], [.onLine line .runtime ("Undefined variable: " ++ String.ofList r.text)]) := by
    rw [Reference.text, substituteFrom, if_pos rfl, hreference]
    simp only [replacement, hkey, substituteFrom_skip r.body.length, List.drop_length,
      List.take_length]
    rfl
  have hzero : (Number.int 0).ExactAs 0.0 :=
    ⟨by decide +kernel, by decide +kernel, by decide +kernel⟩
  exact evaluate_substituted hsubstitute (readsAs_text hzero)

end Expression
end Machining
