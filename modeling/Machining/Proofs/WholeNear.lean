import Machining.Expression.Function
import Machining.Proofs.ReadBack

namespace Machining.Binary64

variable {x : Float} {n d bound : Nat}

def largest : Nat := (2 ^ 53 - 1) * twoTo 971

theorem cast_largest : ((largest : Nat) : ℚ) = ((2 ^ 53 - 1 : Nat) : ℚ) * 2 ^ (971 : Int) := by
  rw [largest, Nat.cast_mul, cast_twoTo, ← zpow_natCast, Nat.cast_ofNat]

theorem cast_largest_lt : ((largest : Nat) : ℚ) < 2 ^ (1024 : Int) := by
  have hshort : ((2 ^ 53 - 1 : Nat) : ℚ) < 2 ^ (53 : Int) := by norm_num
  rw [cast_largest, show (1024 : Int) = 53 + 971 from rfl, zpow_add₀ two_ne_zero]
  exact mul_lt_mul_of_pos_right hshort (by positivity)

theorem largest_lt : largest < twoTo 1024 := by
  have hlt := cast_largest_lt
  rw [show (1024 : Int) = ((1024 : Nat) : Int) from rfl, zpow_natCast, ← cast_twoTo] at hlt
  exact_mod_cast hlt

theorem roundDiv_le (hd : 0 < d) (h : n ≤ bound * d) : roundDiv n d ≤ bound := by
  have hle : n / d ≤ bound := Nat.div_le_of_le_mul (by rwa [Nat.mul_comm] at h)
  unfold roundDiv
  simp only
  split
  · rename_i hup
    rcases hle.eq_or_lt with heq | hlt
    · -- the quotient is the bound, so nothing is left to round up
      have hsplit := Nat.div_add_mod n d
      rw [heq, Nat.mul_comm d bound] at hsplit
      have hnone : n % d = 0 := by omega
      omega
    · exact hlt
  · exact hle

theorem nearestBits_lt (h : n ≤ largest) : nearestBits n 1 < 0x7FF0000000000000 := by
  unfold nearestBits
  split
  · decide
  · rename_i hzero
    simp only
    obtain ⟨hleast, habove, hbelow⟩ := lastPlace_bounds (Nat.pos_of_ne_zero hzero) Nat.one_pos
    rw [Nat.cast_one, div_one] at habove hbelow
    generalize lastPlace n 1 = e at *
    have hmost : e ≤ 971 := by
      by_contra hlt
      rcases hbelow with heq | hbelow
      · omega
      · have hmono : (2 : ℚ) ^ (1024 : Int) ≤ 2 ^ (e + 52) :=
          zpow_le_zpow_right₀ (by norm_num) (by omega)
        have hlarge : (n : ℚ) ≤ largest := by exact_mod_cast h
        linarith [cast_largest_lt]
    have hround {bound : Nat} (hbound : (n : ℚ) ≤ bound * 2 ^ e) :
        roundDiv (scaled n 1 e).1 (scaled n 1 e).2 ≤ bound := by
      obtain ⟨hscaled, hratio⟩ := scaled_ratio n Nat.one_pos e
      have hpos : (0 : ℚ) < (scaled n 1 e).2 := by exact_mod_cast hscaled
      apply roundDiv_le hscaled
      rw [← Nat.cast_le (α := ℚ), Nat.cast_mul, ← div_le_iff₀ hpos, hratio, Nat.cast_one, div_one,
        zpow_neg, ← div_eq_mul_inv, div_le_iff₀ (by positivity)]
      exact hbound
    rcases hmost.eq_or_lt with heq | hlt
    · have hlarge : (n : ℚ) ≤ ((2 ^ 53 - 1 : Nat) : ℚ) * 2 ^ e := by
        rw [heq, ← cast_largest]
        exact_mod_cast h
      have hlast := hround hlarge
      generalize roundDiv (scaled n 1 e).1 (scaled n 1 e).2 = m at hlast ⊢
      change (e + 1074).toNat * 2 ^ 52 + m < _
      omega
    · have hlarge : (n : ℚ) ≤ ((2 ^ 53 : Nat) : ℚ) * 2 ^ e := by
        rw [show e + 53 = e + ((53 : Nat) : Int) from rfl, two_zpow_add] at habove
        exact_mod_cast habove.le
      have hlast := hround hlarge
      generalize roundDiv (scaled n 1 e).1 (scaled n 1 e).2 = m at hlast ⊢
      change (e + 1074).toNat * 2 ^ 52 + m < _
      omega

theorem magnitude_le (hx : x.isFinite = true) : magnitude x ≤ largest := by
  have hshort : (parts x).mantissa ≤ 2 ^ 53 - 1 := Nat.le_sub_one_of_lt (parts_canonical x).short
  have hmantissa : ((parts x).mantissa : ℚ) ≤ ((2 ^ 53 - 1 : Nat) : ℚ) := by exact_mod_cast hshort
  have hscale : (2 : ℚ) ^ (parts x).exponent ≤ 2 ^ (971 : Int) :=
    zpow_le_zpow_right₀ (by norm_num) (exponent_le hx)
  calc magnitude x = (parts x).mantissa * 2 ^ (parts x).exponent := rfl
    _ ≤ ((2 ^ 53 - 1 : Nat) : ℚ) * 2 ^ (971 : Int) :=
      mul_le_mul hmantissa hscale (by positivity) (by positivity)
    _ = largest := cast_largest.symm

/-- The numerator of a value is bounded as the value is. -/
theorem ratio_le (h : magnitude x ≤ bound) : (ratio x).1.natAbs ≤ bound * (ratio x).2 := by
  obtain ⟨-, hvalue⟩ := ratio_value x
  have hnonneg : 0 ≤ magnitude x := by
    unfold magnitude
    positivity
  have habs : |value x| ≤ bound := by
    unfold value
    split
    · rwa [abs_neg, abs_of_nonneg hnonneg]
    · rwa [abs_of_nonneg hnonneg]
  have hbound : |((ratio x).1 : ℚ)| ≤ bound * (ratio x).2 := by
    rw [hvalue, abs_mul, abs_of_nonneg (by positivity : (0 : ℚ) ≤ (ratio x).2)]
    exact mul_le_mul_of_nonneg_right habs (by positivity)
  rw [← Nat.cast_le (α := ℚ), Nat.cast_natAbs, Int.cast_abs, Nat.cast_mul]
  exact hbound

theorem fdiv_natAbs_le {a : Int} (hd : 0 < d) (h : a.natAbs ≤ bound * d) :
    (a.fdiv d).natAbs ≤ bound := by
  have hdiv : a.fdiv d = a / d := Int.fdiv_eq_ediv_of_nonneg a (Int.natCast_nonneg d)
  have hpos : (0 : Int) < d := by exact_mod_cast hd
  have hup : a ≤ bound * d := by
    have : (a.natAbs : Int) ≤ bound * d := by exact_mod_cast h
    omega
  have hdown : -(bound * d) ≤ a := by
    have : (a.natAbs : Int) ≤ bound * d := by exact_mod_cast h
    omega
  have hle : a / d ≤ bound := Int.ediv_le_of_le_mul hpos hup
  have hge : -(bound : Int) ≤ a / d := by
    rw [Int.le_ediv_iff_mul_le hpos]
    linarith
  rw [hdiv]
  omega

end Machining.Binary64

namespace Machining.Expression
open Machining.Binary64

/-- What a function gives: a float, or a whole number within the range of floats. -/
theorem Function.apply_cases {g : Function} {x : Float} {r : Number} (h : g.apply x = .ok r) :
    (∃ y, r = .float y) ∨ ∃ n : Int, r = .int n ∧ n.natAbs ≤ largest := by
  have hchecked {infinite : Fault} {f : Float → Float} (h : checked infinite f x = .ok r) :
      ∃ y, r = .float y := by
    unfold checked at h
    simp only at h
    split at h
    · cases h
    · split at h
      · cases h
      · exact ⟨_, (Except.ok.inj h).symm⟩
  have hwhole {f : Float → Int} (hf : x.isFinite = true → (f x).natAbs ≤ largest)
      (h : wholeNear f x = .ok r) :
      ∃ n : Int, r = .int n ∧ n.natAbs ≤ largest := by
    unfold wholeNear at h
    split at h
    · cases h
    · split at h
      · cases h
      · rename_i hnan hinf
        have hfinite : x.isFinite = true := by
          rw [isFinite_eq, Bool.eq_false_iff.mpr hnan, Bool.eq_false_iff.mpr hinf]
          rfl
        exact ⟨f x, (Except.ok.inj h).symm, hf hfinite⟩
  have hpos := (ratio_value x).1
  cases g with
  | abs => exact .inl ⟨_, (Except.ok.inj h).symm⟩
  | fix => exact .inr (hwhole (fun hx => fdiv_natAbs_le hpos (ratio_le (magnitude_le hx))) h)
  | fup =>
    refine .inr (hwhole (fun hx => ?_) h)
    rw [Binary64.ceil, Int.natAbs_neg]
    exact fdiv_natAbs_le hpos (by rw [Int.natAbs_neg]; exact ratio_le (magnitude_le hx))
  | round =>
    refine .inr (hwhole (fun hx => ?_) h)
    have hle := roundDiv_le hpos (ratio_le (magnitude_le hx))
    unfold roundEven
    simp only
    split
    · rwa [Int.natAbs_neg, Int.natAbs_natCast]
    · rwa [Int.natAbs_natCast]
  | _ => exact .inl (hchecked h)

/-- A whole number within the range has a nearest value. -/
theorem toFloat_whole {n : Int} (h : n.natAbs ≤ largest) : ∃ z, (Number.int n).toFloat = .ok z := by
  have hbits := nearestBits_lt h
  refine ⟨withSign (decide (n < 0)) (Float.ofBits (UInt64.ofNat (nearestBits n.natAbs 1))), ?_⟩
  rw [Number.toFloat, ofInt?, nearest?]
  simp only [hbits, if_true]

end Machining.Expression
