import Machining.Number
import Mathlib

-- `Float.toBits_inj` and other facts about encodings come only with the library as a whole.
namespace Machining

namespace Binary64
open Float.Model UnpackedFloat

variable {x y : Float}

/-- Mantissas take up 53 bits unless the exponent is the least one. -/
structure Parts.Canonical (p : Parts) : Prop where
  short : p.mantissa < 2 ^ 53
  bounded : -1074 ≤ p.exponent
  filled : p.exponent = -1074 ∨ 2 ^ 52 ≤ p.mantissa

def field (x : Float) : Nat := x.toBits.toNat / 2 ^ 52 % 2 ^ 11

def fraction (x : Float) : Nat := x.toBits.toNat % 2 ^ 52

theorem parts_eq (x : Float) :
    parts x = if field x = 0 then ⟨signBit x, fraction x, -1074⟩
      else ⟨signBit x, fraction x + 2 ^ 52, field x - 1075⟩ := rfl

theorem parts_canonical (x : Float) : (parts x).Canonical := by
  have hfraction : fraction x < 2 ^ 52 := Nat.mod_lt _ (by decide)
  rw [parts_eq]
  split
  · exact ⟨by simp only; omega, le_refl _, .inl rfl⟩
  · exact ⟨by simp only; omega, by simp only; omega, .inr (by simp only; omega)⟩

def sign (x : Float) : Sign := if signBit x then .negative else .positive

theorem unpackMantissa_eq (x : Float) :
    (@unpackMantissa .binary64 x.toModel.toBits.toBitVec).toNat = fraction x := by
  rw [unpackMantissa_def, BitVec.extractLsb'_toNat, Nat.shiftRight_zero]
  rfl

theorem unpackExponent_eq (x : Float) :
    (@unpackExponent .binary64 x.toModel.toBits.toBitVec).toNat = field x := by
  rw [unpackExponent_def, BitVec.extractLsb'_toNat, Nat.shiftRight_eq_div_pow]
  rfl

theorem unpackSign_eq (x : Float) :
    Sign.ofBitVec (@unpackSign .binary64 x.toModel.toBits.toBitVec) = sign x := by
  have hbit : (@unpackSign .binary64 x.toModel.toBits.toBitVec).toNat =
      x.toBits.toNat / 2 ^ 63 % 2 ^ 1 := by
    rw [unpackSign_def, BitVec.extractLsb'_toNat, Nat.shiftRight_eq_div_pow]
    rfl
  have hlt : x.toBits.toNat < 2 ^ 64 := UInt64.toNat_lt _
  have hsign : signBit x = decide (x.toBits.toNat / 2 ^ 63 = 1) := rfl
  rw [sign, hsign]
  by_cases h : x.toBits.toNat / 2 ^ 63 = 1
  · have hone : @unpackSign .binary64 x.toModel.toBits.toBitVec = 1#1 := by
      rw [← BitVec.toNat_inj, hbit, h]
      rfl
    rw [hone, decide_eq_true h]
    rfl
  · have hzero : @unpackSign .binary64 x.toModel.toBits.toBitVec = 0#1 := by
      have : x.toBits.toNat / 2 ^ 63 = 0 := by omega
      rw [← BitVec.toNat_inj, hbit, this]
      rfl
    rw [hzero, decide_eq_false h]
    rfl

/-- A value is none, infinite, zero or what its parts say. -/
theorem unpack_cases (x : Float) :
    x.toModel.unpack = .notANumber ∨ (∃ s, x.toModel.unpack = .infinity s) ∨
      (x.toModel.unpack = .zero (sign x) ∧ (parts x).mantissa = 0) ∨
      ∃ h, x.toModel.unpack = .finite (sign x) (parts x).mantissa (parts x).exponent h := by
  have hm := unpackMantissa_eq x
  have he := unpackExponent_eq x
  have hs := unpackSign_eq x
  generalize hu : x.toModel.unpack = u
  unfold Float.Model.unpack UnpackedFloat.unpack at hu
  simp only at hu
  split at hu
  · split at hu
    · exact .inr (.inl ⟨_, hu.symm⟩)
    · exact .inl hu.symm
  · split at hu
    · rename_i hzero
      have hfield : field x = 0 := by
        rw [← he, hzero]
        rfl
      rw [parts_eq, if_pos hfield]
      split at hu
      · rename_i hnone
        refine .inr (.inr (.inl ⟨hu.symm.trans (by rw [hs]), ?_⟩))
        simp only
        rw [← hm, hnone]
        rfl
      · rename_i hsome
        have hpos : 0 < fraction x := by
          rw [← hm, BitVec.toNat_pos, BitVec.pos_iff_ne_zero]
          exact hsome
        refine .inr (.inr (.inr ⟨hpos, hu.symm.trans ?_⟩))
        rw [UnpackedFloat.finite.injEq]
        refine ⟨hs, hm, ?_⟩
        rw [he, hfield]
        rfl
    · rename_i hnonzero
      have hfield : field x ≠ 0 := by
        rw [← he]
        intro hzero
        exact hnonzero (BitVec.toNat_inj.mp hzero)
      rw [parts_eq, if_neg hfield]
      refine .inr (.inr (.inr ⟨by simp only; omega, hu.symm.trans ?_⟩))
      rw [UnpackedFloat.finite.injEq]
      refine ⟨hs, ?_, ?_⟩
      · have hlt : fraction x < 2 ^ 52 := Nat.mod_lt _ (by decide)
        have hor := Nat.two_pow_add_eq_or_of_lt hlt 1
        rw [BitVec.toNat_append, hm]
        simp only [Nat.mul_one] at hor
        change 1 <<< 52 ||| fraction x = _
        rw [Nat.one_shiftLeft, ← hor, Nat.add_comm]
      · rw [he]
        rfl

def magnitude (x : Float) : ℚ := (parts x).mantissa * 2 ^ (parts x).exponent

def value (x : Float) : ℚ := if signBit x then -magnitude x else magnitude x

theorem magnitude_lt (h : (parts x).exponent < (parts y).exponent) : magnitude x < magnitude y := by
  obtain ⟨hshort, -, -⟩ := parts_canonical x
  obtain ⟨-, -, hfilled⟩ := parts_canonical y
  have hbound := (parts_canonical x).bounded
  have hlong : 2 ^ 52 ≤ (parts y).mantissa := by
    rcases hfilled with hleast | hlong
    · omega
    · exact hlong
  calc magnitude x
      < 2 ^ 53 * 2 ^ (parts x).exponent := by
        unfold magnitude
        gcongr
        exact_mod_cast hshort
    _ = 2 ^ 52 * 2 ^ ((parts x).exponent + 1) := by
        rw [zpow_add₀ (by norm_num)]
        ring
    _ ≤ 2 ^ 52 * 2 ^ (parts y).exponent := by
        gcongr
        · norm_num
        · omega
    _ ≤ magnitude y := by
        unfold magnitude
        gcongr
        exact_mod_cast hlong

/-- The order of magnitudes is that of the exponents, then that of the mantissas. -/
theorem compare_parts (x y : Float) :
    (compare (parts x).exponent (parts y).exponent).then
      (compare (parts x).mantissa (parts y).mantissa) =
      cmp (magnitude x) (magnitude y) := by
  rcases lt_trichotomy (parts x).exponent (parts y).exponent with hlt | heq | hgt
  · rw [compare_lt_iff_lt.mpr hlt, (magnitude_lt hlt).cmp_eq_lt]
    rfl
  · have hpos : (0 : ℚ) < 2 ^ (parts y).exponent := by positivity
    rw [compare_eq_iff_eq.mpr heq, magnitude, magnitude, heq, cmp_mul_pos_right hpos,
      Nat.strictMono_cast.cmp_map_eq, cmp_eq_compare]
    rfl
  · rw [compare_gt_iff_gt.mpr hgt, (magnitude_lt hgt).cmp_eq_gt]
    rfl

theorem cmp_neg (a b : ℚ) : cmp (-a) (-b) = (cmp a b).swap := by
  rw [cmp_swap]
  rcases lt_trichotomy a b with h | h | h
  · rw [h.cmp_eq_gt, (neg_lt_neg h).cmp_eq_gt]
  · rw [h, cmp_self_eq_eq, cmp_self_eq_eq]
  · rw [h.cmp_eq_lt, (neg_lt_neg h).cmp_eq_lt]

theorem magnitude_pos (h : 0 < (parts x).mantissa) : 0 < magnitude x := by
  unfold magnitude
  positivity

/-- A finite value is a zero, or its parts with a sign. -/
theorem finite_cases (h : x.isFinite = true) :
    (∃ s, x.toModel.unpack = .zero s ∧ value x = 0) ∨
      (∃ hm, x.toModel.unpack = .finite .positive (parts x).mantissa (parts x).exponent hm ∧
        value x = magnitude x) ∨
      ∃ hm, x.toModel.unpack = .finite .negative (parts x).mantissa (parts x).exponent hm ∧
        value x = -magnitude x := by
  change x.toModel.unpack.isFinite = true at h
  rcases unpack_cases x with hnan | ⟨s, hinf⟩ | ⟨hu, hm⟩ | ⟨hm, hu⟩
  · rw [hnan] at h
    cases h
  · rw [hinf] at h
    cases h
  · exact .inl ⟨sign x, hu, by simp [value, magnitude, hm]⟩
  · unfold value
    unfold sign at hu
    cases hs : signBit x with
    | false => exact .inr (.inl ⟨hm, by rw [hu, hs]; rfl, rfl⟩)
    | true => exact .inr (.inr ⟨hm, by rw [hu, hs]; rfl, rfl⟩)

/-- The order of finite values is that of their exact values. -/
theorem compare_value (hx : x.isFinite = true) (hy : y.isFinite = true) :
    x.toModel.unpack.compare y.toModel.unpack = some (cmp (value x) (value y)) := by
  have hparts := compare_parts x y
  rcases finite_cases hx with ⟨s, hu, hvx⟩ | ⟨hm, hu, hvx⟩ | ⟨hm, hu, hvx⟩ <;>
    rcases finite_cases hy with ⟨s', hv, hvy⟩ | ⟨hn, hv, hvy⟩ | ⟨hn, hv, hvy⟩ <;>
    rw [hu, hv, hvx, hvy]
  · rw [cmp_self_eq_eq]
    rfl
  · rw [(magnitude_pos hn).cmp_eq_lt]
    rfl
  · rw [(neg_lt_zero.mpr (magnitude_pos hn)).cmp_eq_gt]
    rfl
  · rw [(magnitude_pos hm).cmp_eq_gt]
    rfl
  · rw [← hparts]
    rfl
  · rw [((neg_lt_zero.mpr (magnitude_pos hn)).trans (magnitude_pos hm)).cmp_eq_gt]
    rfl
  · rw [(neg_lt_zero.mpr (magnitude_pos hm)).cmp_eq_lt]
    rfl
  · rw [((neg_lt_zero.mpr (magnitude_pos hm)).trans (magnitude_pos hn)).cmp_eq_lt]
    rfl
  · rw [cmp_neg, ← hparts]
    rfl

theorem scaled_magnitude (x : Float) :
    0 < (scaled (parts x).mantissa 1 (-(parts x).exponent)).2 ∧
      ((scaled (parts x).mantissa 1 (-(parts x).exponent)).1 : ℚ) =
        magnitude x * (scaled (parts x).mantissa 1 (-(parts x).exponent)).2 := by
  unfold scaled magnitude
  split
  · obtain ⟨k, hk⟩ := Int.eq_ofNat_of_zero_le (show 0 ≤ (parts x).exponent by omega)
    simp [hk, twoTo]
  · obtain ⟨k, hk⟩ := Int.eq_ofNat_of_zero_le (show 0 ≤ -(parts x).exponent by omega)
    have hexponent : (parts x).exponent = -(k : Int) := by omega
    simp [hexponent, twoTo]

theorem parts_negative (x : Float) : (parts x).negative = signBit x := by
  rw [parts_eq]
  split <;> rfl

theorem ratio_value (x : Float) : 0 < (ratio x).2 ∧ ((ratio x).1 : ℚ) = value x * (ratio x).2 := by
  obtain ⟨hpos, hscaled⟩ := scaled_magnitude x
  have hratio : ratio x = (if signBit x
      then -((scaled (parts x).mantissa 1 (-(parts x).exponent)).1 : Int)
      else (scaled (parts x).mantissa 1 (-(parts x).exponent)).1,
      (scaled (parts x).mantissa 1 (-(parts x).exponent)).2) := by
    rw [← parts_negative]
    rfl
  rw [hratio]
  refine ⟨hpos, ?_⟩
  unfold value
  split
  · push_cast
    rw [hscaled]
    ring
  · push_cast
    exact hscaled

/-- Whole numbers are compared with exact values. -/
theorem compareInt_value (n : Int) (x : Float) : compareInt n x = cmp (n : ℚ) (value x) := by
  obtain ⟨hpos, hratio⟩ := ratio_value x
  have hden : (0 : ℚ) < (ratio x).2 := by exact_mod_cast hpos
  have hcast : (n : ℚ) * (ratio x).2 = ((n * (ratio x).2 : Int) : ℚ) := by push_cast; rfl
  rw [← cmp_mul_pos_right hden, ← hratio, hcast, Int.cast_strictMono.cmp_map_eq, cmp_eq_compare]
  rfl

theorem lt_iff : x < y ↔ x.toModel.unpack.lt y.toModel.unpack = true := decide_eq_true_iff

theorem isFinite_eq (x : Float) : x.isFinite = (!x.isNaN && !x.isInf) := by
  change x.toModel.unpack.isFinite = (!x.toModel.unpack.isNaN && !x.toModel.unpack.isInf)
  cases x.toModel.unpack <;> rfl

/-- Only what is no number is encoded as such. -/
theorem isNaN_pack {u : UnpackedFloat} (h : u ≠ .notANumber) :
    (⟨Float.Model.pack u⟩ : Float).isNaN = false := by
  rw [Float.isNaN_eq_decide_eq_nan, decide_eq_false_iff_not, ← Float.toBits_inj,
    ← UInt64.toBitVec_inj]
  change ¬ UnpackedFloat.pack Format.binary64 u = packedNaN Format.binary64
  intro heq
  have hmantissa := congrArg unpackMantissa heq
  have hexponent := congrArg unpackExponent heq
  cases u with
  | notANumber => exact h rfl
  | infinity s =>
    simp only [UnpackedFloat.pack, packedInfinity, packedNaN,
      unpackMantissa_packComponents] at hmantissa
    exact absurd hmantissa (by decide)
  | zero s =>
    simp only [UnpackedFloat.pack, packedZero, packedNaN,
      unpackMantissa_packComponents] at hmantissa
    exact absurd hmantissa (by decide)
  | finite s m e hm =>
    simp only [UnpackedFloat.pack] at hmantissa hexponent
    split at hmantissa
    · simp only [packedInfinity, packedNaN, unpackMantissa_packComponents] at hmantissa
      exact absurd hmantissa (by decide)
    · rename_i hbias
      rw [if_neg hbias] at hexponent
      split at hexponent
      · simp only [packedNaN, unpackExponent_packComponents] at hexponent
        have hfield := congrArg BitVec.toNat hexponent
        simp at hfield hbias
        omega
      · simp only [packedNaN, unpackExponent_packComponents] at hexponent
        exact absurd hexponent (by decide)

theorem unpack_of_isNaN : x.isNaN = true ↔ x.toModel.unpack = .notANumber := UnpackedFloat.isNaN_iff

theorem unpack_ne_of_isNaN (h : x.isNaN = false) : x.toModel.unpack ≠ .notANumber := by
  intro hu
  rw [unpack_of_isNaN.mpr hu] at h
  cases h

theorem isNaN_withSign (negative : Bool) (h : x.isNaN = false) :
    (withSign negative x).isNaN = false := by
  cases negative with
  | false => exact h
  | true =>
    refine isNaN_pack (u := x.toModel.unpack.neg) ?_
    have hu := unpack_ne_of_isNaN h
    cases hx : x.toModel.unpack with
    | notANumber => exact absurd hx hu
    | infinity s | zero s | finite s m e hm => simp [UnpackedFloat.neg]

/-- An encoding below that of infinity is a number. -/
theorem isNaN_ofBits {n : Nat} (h : n < 0x7FF0000000000000) :
    (Float.ofBits (UInt64.ofNat n)).isNaN = false := by
  apply isNaN_pack
  have hexponent : (@unpackExponent .binary64 (UInt64.ofNat n).toBitVec).toNat < 2047 := by
    rw [unpackExponent_def, BitVec.extractLsb'_toNat, Nat.shiftRight_eq_div_pow]
    change n % 2 ^ 64 / 2 ^ 52 % 2 ^ 11 < 2047
    omega
  unfold UnpackedFloat.unpack
  simp only
  split
  · rename_i hones
    rw [hones] at hexponent
    exact absurd hexponent (by decide)
  · split
    · split <;> simp
    · simp

theorem isNaN_nearest {negative : Bool} {num den : Nat} (h : nearest? negative num den = some x) :
    x.isNaN = false := by
  simp only [nearest?] at h
  split at h
  · rename_i hbits
    rw [← Option.some.inj h]
    exact isNaN_withSign negative (isNaN_ofBits hbits)
  · cases h

/-- Decimals are numbers, though possibly infinite ones. -/
theorem isNaN_ofDecimal (negative : Bool) (m : Nat) (e : Int) :
    (ofDecimal negative m e).isNaN = false := by
  have hzero : (0.0 : Float).isNaN = false := by decide
  have hinf : posInf.isNaN = false := by decide
  have hgetD : ∀ found : Option Float, (∀ x, found = some x → x.isNaN = false) →
      (found.getD (withSign negative posInf)).isNaN = false := by
    intro found h
    cases found with
    | none => exact isNaN_withSign negative hinf
    | some x => exact h x rfl
  unfold ofDecimal
  split_ifs
  · exact isNaN_withSign negative hzero
  · exact isNaN_withSign negative hinf
  · exact isNaN_withSign negative hzero
  · exact hgetD _ fun x hx => isNaN_nearest hx
  · exact hgetD _ fun x hx => isNaN_nearest hx

theorem compare_self {u : UnpackedFloat} (h : u ≠ .notANumber) : u.compare u = some .eq := by
  cases u with
  | notANumber => exact absurd rfl h
  | infinity s => cases s <;> rfl
  | zero s => rfl
  | finite s m e hm => cases s <;> simp [UnpackedFloat.compare]

end Binary64

namespace Number
variable {a b : Number} {u v : ℚ}

/-- The exact value of a number; infinite values and missing numbers have none. -/
def value? : Number → Option ℚ
  | int n => some n
  | float x => if x.isFinite then some (Binary64.value x) else none
  | missing => none

theorem value?_float {x : Float} (h : (float x).value? = some u) :
    x.isFinite = true ∧ Binary64.value x = u := by
  simp only [value?] at h
  split at h
  · exact ⟨‹_›, Option.some.inj h⟩
  · cases h

theorem compare?_float {x y : Float} (hx : x.isFinite = true) (hy : y.isFinite = true) :
    compare? (float x) (float y) = some (cmp (Binary64.value x) (Binary64.value y)) := by
  have hcompare := Binary64.compare_value hx hy
  have hswap := Binary64.compare_value hy hx
  rw [← cmp_swap] at hswap
  have heq : (x == y) = x.toModel.unpack.beq y.toModel.unpack := rfl
  simp only [compare?, Binary64.lt_iff, heq, Float.Model.UnpackedFloat.lt,
    Float.Model.UnpackedFloat.beq, hcompare, hswap]
  cases cmp (Binary64.value x) (Binary64.value y) <;> rfl

theorem compareInt_finite {n : Int} {x : Float} (hx : x.isFinite = true) :
    compare? (int n) (float x) = some (cmp (n : ℚ) (Binary64.value x)) ∧
      compare? (float x) (int n) = some (cmp (Binary64.value x) (n : ℚ)) := by
  rw [Binary64.isFinite_eq, Bool.and_eq_true, Bool.not_eq_true', Bool.not_eq_true'] at hx
  simp only [compare?, hx, Bool.false_eq_true, ↓reduceIte, Binary64.compareInt_value, cmp_swap]
  exact ⟨trivial, trivial⟩

/-- Numbers of either kind compare by their exact values. -/
theorem compare?_value (ha : a.value? = some u) (hb : b.value? = some v) :
    compare? a b = some (cmp u v) := by
  cases a with
  | missing => cases ha
  | int m =>
    cases ha
    cases b with
    | missing => cases hb
    | int n =>
      cases hb
      rw [Int.cast_strictMono.cmp_map_eq, cmp_eq_compare]
      rfl
    | float y =>
      obtain ⟨hy, rfl⟩ := value?_float hb
      exact (compareInt_finite hy).1
  | float x =>
    obtain ⟨hx, rfl⟩ := value?_float ha
    cases b with
    | missing => cases hb
    | int n =>
      cases hb
      exact (compareInt_finite hx).2
    | float y =>
      obtain ⟨hy, rfl⟩ := value?_float hb
      exact compare?_float hx hy

/-- A number equals a whole number if that is its exact value. -/
theorem int_beq_iff {n : Int} : (int n == b) = true ↔ b.value? = some (n : ℚ) := by
  have hself : (int n).value? = some (n : ℚ) := rfl
  have hbeq : (int n == b) = (compare? (int n) b == some .eq) := by cases b <;> rfl
  rw [hbeq, beq_iff_eq]
  constructor
  · intro heq
    have hfinite : ∃ v, b.value? = some v := by
      cases b with
      | missing => cases heq
      | int m => exact ⟨m, rfl⟩
      | float x =>
        simp only [compare?] at heq
        split_ifs at heq with hnan hinf
        · cases heq
        · cases heq
        · have hx : x.isFinite = true := by
            rw [Binary64.isFinite_eq, Bool.eq_false_of_not_eq_true hnan,
              Bool.eq_false_of_not_eq_true hinf]
            rfl
          exact ⟨Binary64.value x, if_pos hx⟩
    obtain ⟨v, hv⟩ := hfinite
    rw [compare?_value hself hv, Option.some.injEq, cmp_eq_eq_iff] at heq
    rw [hv, heq]
  · intro h
    rw [compare?_value hself h, cmp_self_eq_eq]

theorem beq_int_iff {n : Int} : (b == int n) = true ↔ b.value? = some (n : ℚ) := by
  have hswap : (b == int n) = (int n == b) := by
    cases b with
    | missing => rfl
    | int m =>
      have hbeq : ∀ a c : Int, (int a == int c) = (compare a c == .eq) := fun _ _ => rfl
      rw [hbeq, hbeq, Bool.eq_iff_iff, beq_iff_eq, beq_iff_eq, compare_eq_iff_eq,
        compare_eq_iff_eq, eq_comm]
    | float x =>
      have hleft : (float x == int n) = (compare? (float x) (int n) == some .eq) := rfl
      have hright : (int n == float x) = (compare? (int n) (float x) == some .eq) := rfl
      rw [hleft, hright]
      simp only [compare?]
      split_ifs
      · rfl
      · rfl
      · rfl
      · cases Binary64.compareInt n x <;> rfl
  rw [hswap, int_beq_iff]

/-- A binary64 value equals itself unless it is no number, and then it equals nothing. -/
theorem float_beq_self {x : Float} (h : x.isNaN = false) : (float x == float x) = true := by
  have hself := Binary64.compare_self (Binary64.unpack_ne_of_isNaN h)
  have heq : (x == x) = x.toModel.unpack.beq x.toModel.unpack := rfl
  have hsame : (float x == float x) = (compare? (float x) (float x) == some .eq) := rfl
  simp only [hsame, compare?, Binary64.lt_iff, heq, Float.Model.UnpackedFloat.lt,
    Float.Model.UnpackedFloat.beq, hself]
  rfl

theorem isNaN_of_beq {x : Float} {c : Number} (h : (float x == c) = true) : x.isNaN = false := by
  have hbeq : (float x == c) = (compare? (float x) c == some .eq) := by cases c <;> rfl
  rw [hbeq, beq_iff_eq] at h
  cases hx : x.isNaN with
  | false => rfl
  | true =>
    cases c with
    | missing => cases h
    | int n => simp only [compare?, hx, ↓reduceIte, reduceCtorEq] at h
    | float y =>
      have hu := Binary64.unpack_of_isNaN.mp hx
      have heq : (x == y) = x.toModel.unpack.beq y.toModel.unpack := rfl
      have hnone : x.toModel.unpack.compare y.toModel.unpack = none ∧
          y.toModel.unpack.compare x.toModel.unpack = none := by
        rw [hu]
        cases y.toModel.unpack <;> exact ⟨rfl, rfl⟩
      simp [compare?, Binary64.lt_iff, heq, Float.Model.UnpackedFloat.lt,
        Float.Model.UnpackedFloat.beq, hnone] at h

end Number
end Machining
