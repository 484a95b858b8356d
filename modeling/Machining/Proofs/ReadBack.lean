import Machining.Proofs.Exact
import Machining.Decimal.Shortest

namespace Machining

theorem cast_twoTo (k : Nat) : ((twoTo k : Nat) : ℚ) = 2 ^ k := Nat.cast_pow 2 k

theorem twoTo_pos (k : Nat) : 0 < twoTo k := Nat.pow_pos (by decide)

theorem tenTo_pos (k : Nat) : 0 < tenTo k := Nat.pow_pos (by decide)

theorem cast_tenTo (k : Nat) : ((tenTo k : Nat) : ℚ) = 10 ^ k := Nat.cast_pow 10 k

namespace Binary64
open Float.Model UnpackedFloat
variable {x : Float} {m num den : Nat} {q e : Int} {v : ℚ}

def encoding (m : Nat) (q : Int) : Nat := (q + 1074).toNat * 2 ^ 52 + m

theorem encoding_parts (x : Float) :
    encoding (parts x).mantissa (parts x).exponent = x.toBits.toNat % 2 ^ 63 := by
  have hfield : field x = x.toBits.toNat / 2 ^ 52 % 2 ^ 11 := rfl
  have hfraction : fraction x = x.toBits.toNat % 2 ^ 52 := rfl
  rw [parts_eq]
  unfold encoding
  split <;> simp only <;> omega

/-- How far below a value its lower midpoint lies, in units of its last place: neighbours below a
power of two are twice as close. -/
def reach (m : Nat) (q : Int) : ℚ := if m = 2 ^ 52 ∧ -1074 < q then 1 / 4 else 1 / 2

theorem reach_bounds (m : Nat) (q : Int) : 1 / 4 ≤ reach m q ∧ reach m q ≤ 1 / 2 := by
  unfold reach
  split <;> norm_num

/-- Ratios between the midpoints to the neighbours of a value; a midpoint counts if the mantissa is
even. -/
structure Near (m : Nat) (q : Int) (v : ℚ) : Prop where
  low : (m - reach m q) * 2 ^ q ≤ v
  high : v ≤ (m + 1 / 2) * 2 ^ q
  odd : m % 2 = 1 → (m - reach m q) * 2 ^ q < v ∧ v < (m + 1 / 2) * 2 ^ q

theorem scaled_ratio (num : Nat) (hden : 0 < den) (e : Int) :
    0 < (scaled num den e).2 ∧
      ((scaled num den e).1 : ℚ) / (scaled num den e).2 = num / den * 2 ^ (-e) := by
  unfold scaled
  split
  · obtain ⟨k, hk⟩ := Int.eq_ofNat_of_zero_le (show 0 ≤ -e by omega)
    refine ⟨hden, ?_⟩
    rw [hk, Int.toNat_natCast, Nat.cast_mul, cast_twoTo, zpow_natCast]
    ring
  · obtain ⟨k, hk⟩ := Int.eq_ofNat_of_zero_le (show 0 ≤ e by omega)
    refine ⟨Nat.mul_pos hden (twoTo_pos _), ?_⟩
    rw [hk, Int.toNat_natCast, Nat.cast_mul, cast_twoTo, zpow_neg, zpow_natCast, div_mul_eq_div_div,
      div_eq_mul_inv]

/-- A quotient within a half of a whole number is rounded to it, from just a half only if it is
even. -/
theorem roundDiv_eq {n d : Nat} (hd : 0 < d) (hlow : (m : ℚ) - 1 / 2 ≤ n / d)
    (hhigh : (n : ℚ) / d ≤ m + 1 / 2)
    (hodd : m % 2 = 1 → (m : ℚ) - 1 / 2 < n / d ∧ (n : ℚ) / d < m + 1 / 2) : roundDiv n d = m := by
  have hpos : (0 : ℚ) < d := by exact_mod_cast hd
  rw [le_div_iff₀ hpos] at hlow
  rw [div_le_iff₀ hpos] at hhigh
  rw [lt_div_iff₀ hpos, div_lt_iff₀ hpos] at hodd
  have hl : 2 * (m * d) ≤ 2 * n + d := by
    exact_mod_cast (by linarith : 2 * ((m : ℚ) * d) ≤ 2 * n + d)
  have hh : 2 * n ≤ 2 * (m * d) + d := by
    exact_mod_cast (by linarith : 2 * (n : ℚ) ≤ 2 * (m * d) + d)
  have hstrict : m % 2 = 1 → 2 * (m * d) < 2 * n + d ∧ 2 * n < 2 * (m * d) + d := by
    intro h
    obtain ⟨h1, h2⟩ := hodd h
    exact ⟨by exact_mod_cast (by linarith : 2 * ((m : ℚ) * d) < 2 * n + d),
      by exact_mod_cast (by linarith : 2 * (n : ℚ) < 2 * (m * d) + d)⟩
  have hn := Nat.div_add_mod n d
  have hr := Nat.mod_lt n hd
  unfold roundDiv
  generalize n / d = k at hn ⊢
  generalize n % d = r at hn hr ⊢
  subst hn
  -- the quotient is the whole number or the one below it
  have hle : k ≤ m := by
    by_contra hk
    have := Nat.mul_le_mul_right d (show m + 1 ≤ k by omega)
    nlinarith
  have hge : m ≤ k + 1 := by
    by_contra hk
    have := Nat.mul_le_mul_right d (show k + 2 ≤ m by omega)
    nlinarith
  rcases (show m = k ∨ m = k + 1 by omega) with rfl | rfl
  · rw [Nat.mul_comm m d] at hh hstrict
    simp only
    rw [if_neg (by omega)]
  · have hexpand : (k + 1) * d = d * k + d := by ring
    rw [hexpand] at hl hstrict
    simp only
    rw [if_pos (by omega)]

/-- A ratio lies between two powers of two around the difference of the logarithms. -/
theorem ratio_bounds (hnum : 0 < num) (hden : 0 < den) :
    (2 : ℚ) ^ ((num.log2 : Int) - den.log2 - 1) < num / den ∧
      (num : ℚ) / den < 2 ^ ((num.log2 : Int) - den.log2 + 1) := by
  have hpos : (0 : ℚ) < den := by exact_mod_cast hden
  have hlow {n : Nat} (hn : 0 < n) : (2 : ℚ) ^ (n.log2 : Int) ≤ n := by
    rw [zpow_natCast]
    exact_mod_cast Nat.log2_self_le hn.ne'
  have hhigh (n : Nat) : (n : ℚ) < 2 ^ ((n.log2 : Int) + 1) := by
    exact_mod_cast Nat.lt_log2_self (n := n)
  constructor
  · rw [lt_div_iff₀ hpos]
    calc (2 : ℚ) ^ ((num.log2 : Int) - den.log2 - 1) * den
        < 2 ^ ((num.log2 : Int) - den.log2 - 1) * 2 ^ ((den.log2 : Int) + 1) := by
          gcongr; exact hhigh den
      _ = 2 ^ (num.log2 : Int) := by rw [← zpow_add₀ two_ne_zero]; congr 1; ring
      _ ≤ num := hlow hnum
  · rw [div_lt_iff₀ hpos]
    calc (num : ℚ) < 2 ^ ((num.log2 : Int) + 1) := hhigh num
      _ = 2 ^ ((num.log2 : Int) - den.log2 + 1) * 2 ^ (den.log2 : Int) := by
        rw [← zpow_add₀ two_ne_zero]; congr 1; ring
      _ ≤ 2 ^ ((num.log2 : Int) - den.log2 + 1) * den := by gcongr; exact hlow hden

/-- The last place of the value nearest to a ratio. -/
theorem lastPlace_bounds (hnum : 0 < num) (hden : 0 < den) :
    -1074 ≤ lastPlace num den ∧ (num : ℚ) / den < 2 ^ (lastPlace num den + 53) ∧
      (lastPlace num den = -1074 ∨ 2 ^ (lastPlace num den + 52) ≤ (num : ℚ) / den) := by
  obtain ⟨hbelow, habove⟩ := ratio_bounds hnum hden
  obtain ⟨hscaled, hratio⟩ := scaled_ratio num hden ((num.log2 : Int) - den.log2 - 53)
  have hfits : twoTo 53 ≤ (scaled num den ((num.log2 : Int) - den.log2 - 53)).1 /
      (scaled num den ((num.log2 : Int) - den.log2 - 53)).2 ↔
      (2 : ℚ) ^ ((num.log2 : Int) - den.log2) ≤ num / den := by
    rw [Nat.le_div_iff_mul_le hscaled, ← Nat.cast_le (α := ℚ), Nat.cast_mul, cast_twoTo,
      ← le_div_iff₀ (by exact_mod_cast hscaled), hratio, neg_sub, ← div_le_iff₀ (by positivity),
      ← zpow_natCast, ← zpow_sub₀ two_ne_zero]
    congr! 2
    push_cast
    ring
  unfold lastPlace
  simp only
  generalize (num.log2 : Int) - den.log2 = k at *
  have hmono {a b : Int} (h : a ≤ b) : (2 : ℚ) ^ a ≤ 2 ^ b := zpow_le_zpow_right₀ (by norm_num) h
  split
  · rename_i h
    have hge := hfits.mp h
    refine ⟨le_max_right _ _, habove.trans_le (hmono (by omega)), ?_⟩
    rcases le_total (k - 53 + 1) (-1074) with hlow | hlow
    · exact .inl (max_eq_right hlow)
    · rw [max_eq_left hlow]
      exact .inr (le_trans (hmono (by omega)) hge)
  · rename_i h
    have hlt := lt_of_not_ge fun hge => h (hfits.mpr hge)
    refine ⟨le_max_right _ _, hlt.trans_le (hmono (by omega)), ?_⟩
    rcases le_total (k - 53) (-1074) with hlow | hlow
    · exact .inl (max_eq_right hlow)
    · rw [max_eq_left hlow]
      exact .inr (le_trans (hmono (by omega)) hbelow.le)

theorem two_zpow_add (q : Int) (k : Nat) : (2 : ℚ) ^ (q + k) = 2 ^ k * 2 ^ q := by
  rw [zpow_add₀ two_ne_zero, zpow_natCast, mul_comm]

/-- The last place of a ratio near a value is that of the value, or the one below if the value is a
power of two. -/
theorem lastPlace_near (hshort : m < 2 ^ 53) (hfilled : q = -1074 ∨ 2 ^ 52 ≤ m) (hq : -1074 ≤ q)
    (hnum : 0 < num) (hden : 0 < den) (h : Near m q (num / den)) :
    lastPlace num den = q ∨ lastPlace num den = q - 1 ∧ m = 2 ^ 52 ∧ -1074 < q := by
  obtain ⟨hleast, habove, hbelow⟩ := lastPlace_bounds hnum hden
  have hunit : (0 : ℚ) < 2 ^ q := by positivity
  have hmono {a b : Int} (h : a ≤ b) : (2 : ℚ) ^ a ≤ 2 ^ b := zpow_le_zpow_right₀ (by norm_num) h
  have hlong : (m : ℚ) + 1 ≤ 2 ^ 53 := by exact_mod_cast hshort
  have hreach := reach_bounds m q
  have hle : lastPlace num den ≤ q := by
    by_contra hlt
    have hge : (2 : ℚ) ^ (q + (53 : Nat)) ≤ num / den := by
      rcases hbelow with hleast' | hbelow
      · omega
      · exact le_trans (hmono (by omega)) hbelow
    have hhigh := h.high
    rw [two_zpow_add] at hge
    nlinarith
  rcases hle.eq_or_lt with heq | hlt
  · exact .inl heq
  · have hnormal : 2 ^ 52 ≤ m := by omega
    have hnormal' : (2 : ℚ) ^ 52 ≤ m := by exact_mod_cast hnormal
    have hlow := h.low
    have hnext : lastPlace num den = q - 1 := by
      by_contra hne
      have hlt' := habove.trans_le (hmono (show lastPlace num den + 53 ≤ q + (51 : Nat) by omega))
      rw [two_zpow_add] at hlt'
      nlinarith
    have hlt' := habove.trans_le (hmono (show lastPlace num den + 53 ≤ q + (52 : Nat) by omega))
    rw [two_zpow_add] at hlt'
    refine .inr ⟨hnext, le_antisymm ?_ hnormal, by omega⟩
    by_contra hgt
    have hgt' : (2 : ℚ) ^ 52 + 1 ≤ m := by exact_mod_cast (not_le.mp hgt : 2 ^ 52 < m)
    nlinarith

theorem roundDiv_near (hden : 0 < den) (h : Near m q (num / den)) :
    roundDiv (scaled num den q).1 (scaled num den q).2 = m := by
  obtain ⟨hscaled, hratio⟩ := scaled_ratio num hden q
  have hunit : (0 : ℚ) < 2 ^ q := by positivity
  have hreach := reach_bounds m q
  rw [zpow_neg, ← div_eq_mul_inv] at hratio
  refine roundDiv_eq hscaled ?_ ?_ fun hodd => ?_ <;> rw [hratio]
  · rw [le_div_iff₀ hunit]
    nlinarith [h.low]
  · rw [div_le_iff₀ hunit]
    exact h.high
  · obtain ⟨hlow, hhigh⟩ := h.odd hodd
    rw [lt_div_iff₀ hunit, div_lt_iff₀ hunit]
    exact ⟨by nlinarith, hhigh⟩

/-- Below a power of two the places are half as far apart, and the ratio is rounded up to the
power. -/
theorem roundDiv_near_power (hq : -1074 < q) (hden : 0 < den) (h : Near (2 ^ 52) q (num / den))
    (habove : (num : ℚ) / den < 2 ^ 52 * 2 ^ q) :
    roundDiv (scaled num den (q - 1)).1 (scaled num den (q - 1)).2 = 2 ^ 53 := by
  obtain ⟨hscaled, hratio⟩ := scaled_ratio num hden (q - 1)
  have hunit : (0 : ℚ) < 2 ^ q := by positivity
  have hdouble : (num : ℚ) / den * 2 ^ (-(q - 1)) = 2 * (num / den) / 2 ^ q := by
    rw [neg_sub, zpow_sub₀ two_ne_zero, zpow_one]
    ring
  rw [hdouble] at hratio
  have hlow := h.low
  rw [reach, if_pos ⟨rfl, hq⟩] at hlow
  push_cast at hlow
  refine roundDiv_eq hscaled ?_ ?_ (by norm_num) <;> rw [hratio]
  · rw [le_div_iff₀ hunit]
    push_cast
    linarith
  · rw [div_le_iff₀ hunit]
    push_cast
    nlinarith

/-- A ratio between the midpoints to its neighbours has a value as the nearest one. -/
theorem nearestBits_near (hshort : m < 2 ^ 53) (hfilled : q = -1074 ∨ 2 ^ 52 ≤ m) (hq : -1074 ≤ q)
    (hnum : 0 < num) (hden : 0 < den) (h : Near m q (num / den)) :
    nearestBits num den = encoding m q := by
  rw [nearestBits, if_neg hnum.ne']
  simp only
  rcases lastPlace_near hshort hfilled hq hnum hden h with heq | ⟨heq, rfl, hnormal⟩
  · rw [heq, roundDiv_near hden h]
    rfl
  · obtain ⟨-, habove, -⟩ := lastPlace_bounds hnum hden
    rw [heq, show q - 1 + 53 = q + ((52 : Nat) : Int) by push_cast; ring, two_zpow_add] at habove
    have hunits : (q - 1 + 1074).toNat * 2 ^ 52 + 2 ^ 53 = (q + 1074).toNat * 2 ^ 52 + 2 ^ 52 := by
      omega
    rw [heq, roundDiv_near_power hnormal hden h habove, encoding, ← hunits]
    rfl

/-- The largest exponent field is that of infinity. -/
theorem isFinite_iff_field : x.isFinite = true ↔ field x < 2047 := by
  have hlt : field x < 2 ^ 11 := Nat.mod_lt _ (by decide)
  have hones : @unpackExponent .binary64 x.toModel.toBits.toBitVec = -1#11 ↔ ¬ field x < 2047 := by
    rw [← BitVec.toNat_inj, unpackExponent_eq, show (-1#11).toNat = 2047 from rfl]
    omega
  change x.toModel.unpack.isFinite = true ↔ _
  unfold Float.Model.unpack UnpackedFloat.unpack
  simp only
  by_cases h : field x < 2047
  · rw [if_neg (fun hall => hones.mp hall h)]
    split
    · split <;> simp [UnpackedFloat.isFinite, h]
    · simp [UnpackedFloat.isFinite, h]
  · rw [if_pos (hones.mpr h)]
    split <;> simp [UnpackedFloat.isFinite, h]

theorem exponent_le (hfinite : x.isFinite = true) : (parts x).exponent ≤ 971 := by
  have hfield := isFinite_iff_field.mp hfinite
  rw [parts_eq]
  split <;> simp only <;> omega

theorem encoding_lt (hfinite : x.isFinite = true) :
    encoding (parts x).mantissa (parts x).exponent < 0x7FF0000000000000 := by
  have hfield := isFinite_iff_field.mp hfinite
  have hfraction : fraction x < 2 ^ 52 := Nat.mod_lt _ (by decide)
  rw [parts_eq, encoding]
  split <;> simp only <;> omega

/-- An encoding below that of infinity is that of its value. -/
theorem toBits_ofBits {n : Nat} (h : n < 0x7FF0000000000000) :
    (Float.ofBits (UInt64.ofNat n)).toBits.toNat = n := by
  have hexponent : (@unpackExponent .binary64 (UInt64.ofNat n).toBitVec).toNat < 2047 := by
    rw [unpackExponent_def, BitVec.extractLsb'_toNat, Nat.shiftRight_eq_div_pow]
    change n % 2 ^ 64 / 2 ^ 52 % 2 ^ 11 < 2047
    omega
  have hnumber : @isNaNBits .binary64 (UInt64.ofNat n).toBitVec = false := by
    unfold isNaNBits
    rw [decide_eq_false_iff_not]
    rintro ⟨hones, -⟩
    rw [hones] at hexponent
    exact absurd hexponent (by decide)
  have hpack := @pack_unpack .binary64 (UInt64.ofNat n).toBitVec (by decide)
  rw [hnumber] at hpack
  change (UnpackedFloat.pack .binary64
    (UnpackedFloat.unpack .binary64 (UInt64.ofNat n).toBitVec)).toNat = n
  rw [hpack]
  change n % 2 ^ 64 = n
  omega

/-- What a finite value unpacks to. -/
theorem unpack_finite (hfinite : x.isFinite = true) {s : Sign} (hs : sign x = s)
    (hm : (parts x).mantissa = m) (hq : (parts x).exponent = q) :
    x.toModel.unpack = if hpos : 0 < m then .finite s m q hpos else .zero s := by
  subst hs hm hq
  change x.toModel.unpack.isFinite = true at hfinite
  rcases unpack_cases x with hnan | ⟨s, hinf⟩ | ⟨hu, hzero⟩ | ⟨hpos, hu⟩
  · rw [hnan] at hfinite
    cases hfinite
  · rw [hinf] at hfinite
    cases hfinite
  · rw [hu, dif_neg (by omega)]
  · rw [hu, dif_pos hpos]

def modulus (x : Float) : Float :=
  Float.ofBits (UInt64.ofNat (encoding (parts x).mantissa (parts x).exponent))

theorem toBits_modulus (hfinite : x.isFinite = true) :
    (modulus x).toBits.toNat = x.toBits.toNat % 2 ^ 63 := by
  rw [modulus, toBits_ofBits (encoding_lt hfinite), encoding_parts]

/-- A finite value is its modulus with its sign. -/
theorem withSign_modulus (hfinite : x.isFinite = true) : withSign (signBit x) (modulus x) = x := by
  have hbits := toBits_modulus hfinite
  have hlt : x.toBits.toNat < 2 ^ 64 := UInt64.toNat_lt _
  have hbit : signBit x = decide (x.toBits.toNat / 2 ^ 63 = 1) := rfl
  cases hsign : signBit x with
  | false =>
    rw [hbit, decide_eq_false_iff_not] at hsign
    apply Float.toBits_inj.mp
    rw [← UInt64.toNat_inj]
    change (modulus x).toBits.toNat = _
    omega
  | true =>
    have hfield : field (modulus x) = field x := by
      unfold field
      omega
    have hfraction : fraction (modulus x) = fraction x := by
      unfold fraction
      omega
    have hpositive : sign (modulus x) = .positive := by
      have hclear : signBit (modulus x) = decide ((modulus x).toBits.toNat / 2 ^ 63 = 1) := rfl
      rw [sign, hclear, decide_eq_false (by omega)]
      rfl
    have hnegative : sign x = .negative := by rw [sign, hsign]; rfl
    have hmantissa : (parts (modulus x)).mantissa = (parts x).mantissa := by
      rw [parts_eq, parts_eq, hfield, hfraction]
      split <;> rfl
    have hexponent : (parts (modulus x)).exponent = (parts x).exponent := by
      rw [parts_eq, parts_eq, hfield, hfraction]
      split <;> rfl
    have hwhole : (modulus x).isFinite = true := by
      rw [isFinite_iff_field, hfield]
      exact isFinite_iff_field.mp hfinite
    have hneg : (modulus x).toModel.unpack.neg = x.toModel.unpack := by
      rw [unpack_finite hwhole hpositive hmantissa hexponent,
        unpack_finite hfinite hnegative rfl rfl]
      split <;> rfl
    change (⟨Float.Model.pack (modulus x).toModel.unpack.neg⟩ : Float) = x
    rw [hneg]
    exact Float.ofBits_toBits x

/-- Decimals near a finite value have no large exponents … -/
theorem decimal_high (hfinite : x.isFinite = true) {digits : Nat} (hdigits : 0 < digits)
    (h : (digits : ℚ) * 10 ^ e ≤ ((parts x).mantissa + 1 / 2) * 2 ^ (parts x).exponent) :
    ¬ 400 < e := by
  intro hlarge
  have hexponent := exponent_le hfinite
  have hone : (1 : ℚ) ≤ digits := by exact_mod_cast hdigits
  have hshort : ((parts x).mantissa : ℚ) + 1 ≤ 2 ^ 53 := by exact_mod_cast (parts_canonical x).short
  obtain ⟨n, rfl⟩ := Int.eq_ofNat_of_zero_le (show 0 ≤ e by omega)
  have hchain : (2 : ℚ) ^ (3 * (n : Int)) < 2 ^ ((parts x).exponent + 53) :=
    calc (2 : ℚ) ^ (3 * (n : Int)) = 8 ^ n := by rw [zpow_mul, zpow_natCast]; norm_num
      _ ≤ 1 * 10 ^ (n : Int) := by
        rw [one_mul, zpow_natCast]
        exact pow_le_pow_left₀ (by norm_num) (by norm_num) n
      _ ≤ digits * 10 ^ (n : Int) := by gcongr
      _ ≤ ((parts x).mantissa + 1 / 2) * 2 ^ (parts x).exponent := h
      _ < 2 ^ 53 * 2 ^ (parts x).exponent := by gcongr; linarith
      _ = 2 ^ ((parts x).exponent + 53) := by rw [zpow_add₀ two_ne_zero, mul_comm]; norm_cast
  have hlt := (zpow_lt_zpow_iff_right₀ (by norm_num : (1 : ℚ) < 2)).mp hchain
  omega

/-- … nor very small ones. -/
theorem decimal_low (hpos : 0 < (parts x).mantissa) {digits : Nat}
    (h : ((parts x).mantissa - reach (parts x).mantissa (parts x).exponent) * 2 ^
      (parts x).exponent ≤
      (digits : ℚ) * 10 ^ e) : ¬ e < -(400 + (digits.log2 + 1 : Nat) : Int) := by
  intro hsmall
  have hbounded := (parts_canonical x).bounded
  have hone : (1 : ℚ) ≤ (parts x).mantissa := by exact_mod_cast hpos
  have hreach := (reach_bounds (parts x).mantissa (parts x).exponent).2
  have hlog : (digits : ℚ) < 2 ^ (digits.log2 + 1) := by
    exact_mod_cast Nat.lt_log2_self (n := digits)
  obtain ⟨n, hn⟩ := Int.eq_ofNat_of_zero_le (show 0 ≤ -e by omega)
  obtain rfl : e = -(n : Int) := by omega
  have hchain : (2 : ℚ) ^ ((parts x).exponent - 1) <
      2 ^ ((digits.log2 + 1 : Nat) - 3 * (n : Int)) :=
    calc (2 : ℚ) ^ ((parts x).exponent - 1) = 1 / 2 * 2 ^ (parts x).exponent := by
          rw [zpow_sub₀ two_ne_zero, zpow_one]
          ring
      _ ≤ ((parts x).mantissa - reach (parts x).mantissa (parts x).exponent) * 2 ^
        (parts x).exponent := by
        refine mul_le_mul_of_nonneg_right ?_ (by positivity)
        linarith
      _ ≤ digits * 10 ^ (-(n : Int)) := h
      _ < 2 ^ (digits.log2 + 1) * 10 ^ (-(n : Int)) := by gcongr
      _ ≤ 2 ^ (digits.log2 + 1) * (8 ^ n)⁻¹ := by
        rw [zpow_neg, zpow_natCast]
        gcongr
        norm_num
      _ = 2 ^ ((digits.log2 + 1 : Nat) - 3 * (n : Int)) := by
        rw [zpow_sub₀ two_ne_zero, zpow_natCast, zpow_mul, zpow_natCast, div_eq_mul_inv]
        norm_num
  have hlt := (zpow_lt_zpow_iff_right₀ (by norm_num : (1 : ℚ) < 2)).mp hchain
  omega

/-- A decimal between the midpoints to the neighbours of a value reads as that value without its
sign. -/
theorem ofDecimal_near (hfinite : x.isFinite = true) (hpos : 0 < (parts x).mantissa)
    {digits : Nat} (h : Near (parts x).mantissa (parts x).exponent (digits * 10 ^ e)) :
    ofDecimal false digits e = modulus x := by
  obtain ⟨hshort, hbounded, hfilled⟩ := parts_canonical x
  have hexponent := exponent_le hfinite
  have hreach := reach_bounds (parts x).mantissa (parts x).exponent
  have hone : (1 : ℚ) ≤ (parts x).mantissa := by exact_mod_cast hpos
  have hvalue : (0 : ℚ) < digits * 10 ^ e := by
    refine lt_of_lt_of_le ?_ h.low
    have : (0 : ℚ) < (parts x).mantissa - reach (parts x).mantissa (parts x).exponent := by linarith
    positivity
  have hdigits : 0 < digits := by
    rcases Nat.eq_zero_or_pos digits with rfl | hd
    · simp at hvalue
    · exact hd
  have hread {num den : Nat} (hnum : 0 < num) (hden : 0 < den)
      (hratio : (num : ℚ) / den = digits * 10 ^ e) :
      nearest? false num den = some (modulus x) := by
    rw [nearest?, nearestBits_near hshort hfilled hbounded hnum hden (hratio ▸ h),
      if_pos (encoding_lt hfinite)]
    rfl
  unfold ofDecimal
  rw [if_neg hdigits.ne', if_neg (decimal_high hfinite hdigits h.high),
    if_neg (decimal_low hpos h.low)]
  split
  · obtain ⟨k, hk⟩ := Int.eq_ofNat_of_zero_le (show 0 ≤ -e by omega)
    have hratio : (digits : ℚ) / (tenTo k : Nat) = digits * 10 ^ e := by
      rw [show e = -(k : Int) by omega, cast_tenTo, zpow_neg, zpow_natCast, div_eq_mul_inv]
    rw [hk, Int.toNat_natCast, hread hdigits (tenTo_pos k) hratio]
    rfl
  · obtain ⟨k, rfl⟩ := Int.eq_ofNat_of_zero_le (show 0 ≤ e by omega)
    have hratio : ((digits * tenTo k : Nat) : ℚ) / (1 : Nat) = digits * 10 ^ (k : Int) := by
      rw [Nat.cast_mul, cast_tenTo, zpow_natCast, Nat.cast_one, div_one]
    rw [Int.toNat_natCast, hread (Nat.mul_pos hdigits (tenTo_pos k)) one_pos hratio]
    rfl

end Binary64

namespace Decimal
open Binary64
variable {m : Nat} {q s : Int}

structure Interval.Spans (i : Interval) (low value high : ℚ) : Prop where
  den : 0 < i.den
  low : (i.low : ℚ) = low * i.den
  value : (i.value : ℚ) = value * i.den
  high : (i.high : ℚ) = high * i.den

namespace Interval
variable {i : Interval} {low value high : ℚ} {c : Nat}

theorem Spans.inUnits (h : i.Spans low value high) (s : Int) :
    (i.inUnits s).Spans (low / 10 ^ s) (value / 10 ^ s) (high / 10 ^ s) := by
  obtain ⟨hden, hlow, hvalue, hhigh⟩ := h
  unfold Interval.inUnits
  split
  · obtain ⟨k, hk⟩ := Int.eq_ofNat_of_zero_le (show 0 ≤ -s by omega)
    have hpower : ((10 : ℚ) ^ s)⁻¹ = (tenTo k : Nat) := by
      rw [cast_tenTo, ← zpow_natCast, ← hk, zpow_neg]
    simp only [hk, Int.toNat_natCast]
    refine ⟨hden, ?_, ?_, ?_⟩ <;> simp only [Nat.cast_mul, hlow, hvalue, hhigh, div_eq_mul_inv,
      hpower] <;> ring
  · obtain ⟨k, rfl⟩ := Int.eq_ofNat_of_zero_le (show 0 ≤ s by omega)
    have hpower : (10 : ℚ) ^ (k : Int) = (tenTo k : Nat) := by rw [cast_tenTo, zpow_natCast]
    have hne : ((tenTo k : Nat) : ℚ) ≠ 0 := by exact_mod_cast (tenTo_pos k).ne'
    simp only [Int.toNat_natCast, hpower]
    refine ⟨Nat.mul_pos hden (tenTo_pos k), ?_, ?_, ?_⟩ <;>
      · simp only [Nat.cast_mul, hlow, hvalue, hhigh]
        field_simp

theorem spans_around (hm : 0 < m) (q : Int) :
    (around m q).Spans ((m - reach m q) * 2 ^ q) (m * 2 ^ q) ((m + 1 / 2) * 2 ^ q) := by
  have hunits : ((if q < 0 then 1 else twoTo q.toNat : Nat) : ℚ) =
      2 ^ q * (if q < 0 then twoTo (-q).toNat else 1 : Nat) := by
    split
    · obtain ⟨k, hk⟩ := Int.eq_ofNat_of_zero_le (show 0 ≤ -q by omega)
      rw [hk, Int.toNat_natCast, cast_twoTo, ← zpow_natCast, ← hk, ← zpow_add₀ two_ne_zero]
      simp
    · obtain ⟨k, rfl⟩ := Int.eq_ofNat_of_zero_le (show 0 ≤ q by omega)
      rw [Int.toNat_natCast, cast_twoTo, zpow_natCast]
      simp
  have hgap : ((4 * m - (if m = twoTo 52 ∧ -1074 < q then 1 else 2) : Nat) : ℚ) =
      4 * (m - reach m q) := by
    have htwo : twoTo 52 = 2 ^ 52 := rfl
    rw [Nat.cast_sub (by split <;> omega), reach, htwo]
    split <;> push_cast <;> ring
  unfold around
  refine ⟨?_, ?_, ?_, ?_⟩ <;> simp only [Nat.cast_mul, hunits, hgap]
  · split
    · exact Nat.mul_pos (by decide) (twoTo_pos _)
    · decide
  · push_cast
    ring
  · push_cast
    ring
  · push_cast
    ring

/-- Whole numbers of units within an interval around a value are near it. -/
theorem contains_iff (hm : 0 < m) (q s : Int) (c : Nat) :
    ((around m q).inUnits s).contains c = true ↔ Near m q (c * 10 ^ s) := by
  obtain ⟨hden, hlow, hvalue, hhigh⟩ := (spans_around hm q).inUnits s
  have hclosed : ((around m q).inUnits s).closed = decide (m % 2 = 0) := by
    unfold Interval.inUnits
    split <;> rfl
  have hunit : (0 : ℚ) < 10 ^ s := by positivity
  have hpos : (0 : ℚ) < ((around m q).inUnits s).den := by exact_mod_cast hden
  generalize (around m q).inUnits s = i at hden hlow hhigh hclosed hpos ⊢
  have hlow_le : i.low ≤ c * i.den ↔ (m - reach m q) * 2 ^ q ≤ c * 10 ^ s := by
    rw [← Nat.cast_le (α := ℚ), Nat.cast_mul, hlow, mul_le_mul_iff_left₀ hpos, div_le_iff₀ hunit]
  have hle_high : c * i.den ≤ i.high ↔ (c : ℚ) * 10 ^ s ≤ (m + 1 / 2) * 2 ^ q := by
    rw [← Nat.cast_le (α := ℚ), Nat.cast_mul, hhigh, mul_le_mul_iff_left₀ hpos, le_div_iff₀ hunit]
  have hlow_lt : i.low < c * i.den ↔ (m - reach m q) * 2 ^ q < c * 10 ^ s := by
    rw [← Nat.cast_lt (α := ℚ), Nat.cast_mul, hlow, mul_lt_mul_iff_left₀ hpos, div_lt_iff₀ hunit]
  have hlt_high : c * i.den < i.high ↔ (c : ℚ) * 10 ^ s < (m + 1 / 2) * 2 ^ q := by
    rw [← Nat.cast_lt (α := ℚ), Nat.cast_mul, hhigh, mul_lt_mul_iff_left₀ hpos, lt_div_iff₀ hunit]
  unfold contains
  rw [hclosed]
  by_cases heven : m % 2 = 0
  · simp only [heven, decide_true, if_true, Bool.and_eq_true, decide_eq_true_eq, hlow_le, hle_high]
    exact ⟨fun h => ⟨h.1, h.2, by omega⟩, fun h => ⟨h.low, h.high⟩⟩
  · simp only [heven, decide_false, Bool.false_eq_true, if_false, Bool.and_eq_true,
      decide_eq_true_eq, hlow_lt, hlt_high]
    exact ⟨fun h => ⟨h.1.le, h.2.le, fun _ => h⟩, fun h => h.odd (by omega)⟩

/-- What is picked reads back. -/
theorem contains_of_pick? (h : i.pick? = some c) : i.contains c = true := by
  unfold pick? at h
  simp only at h
  split at h <;> simp_all
  split at h <;> simp_all

/-- Units that are short beside the last place of a value: one next to the value is near it. -/
theorem pick?_isSome (hm : 0 < m) (q s : Int)
    (hshort : (10 : ℚ) ^ s < (reach m q + 1 / 2) * 2 ^ q) :
    (((around m q).inUnits s).pick?).isSome = true := by
  obtain ⟨hden, -, hvalue, -⟩ := (spans_around hm q).inUnits s
  have hcontains := contains_iff hm q s
  have hunit : (0 : ℚ) < 10 ^ s := by positivity
  have hpos : (0 : ℚ) < ((around m q).inUnits s).den := by exact_mod_cast hden
  generalize (around m q).inUnits s = i at hden hvalue hcontains hpos ⊢
  -- the units just below and just above the value
  have hbelow : ((i.value / i.den : Nat) : ℚ) * 10 ^ s ≤ m * 2 ^ q := by
    rw [← le_div_iff₀ hunit, ← mul_le_mul_iff_left₀ hpos, ← hvalue]
    exact_mod_cast Nat.div_mul_le_self i.value i.den
  have habove : (m : ℚ) * 2 ^ q < ((i.value / i.den + 1 : Nat) : ℚ) * 10 ^ s := by
    rw [← div_lt_iff₀ hunit, ← mul_lt_mul_iff_left₀ hpos, ← hvalue]
    exact_mod_cast Nat.lt_mul_of_div_lt (Nat.lt_succ_self _) hden
  have hnear : i.contains (i.value / i.den) = true ∨ i.contains (i.value / i.den + 1) = true := by
    rw [hcontains, hcontains]
    have hplace : (0 : ℚ) < 2 ^ q := by positivity
    have hreach := (reach_bounds m q).1
    rcases lt_or_ge ((m - reach m q) * 2 ^ q) (((i.value / i.den : Nat) : ℚ) * 10 ^ s) with hlt |
      hge
    · have hhigh : ((i.value / i.den : Nat) : ℚ) * 10 ^ s < (m + 1 / 2) * 2 ^ q := by nlinarith
      exact .inl ⟨hlt.le, hhigh.le, fun _ => ⟨hlt, hhigh⟩⟩
    · have hlow : (m - reach m q) * 2 ^ q < ((i.value / i.den + 1 : Nat) : ℚ) * 10 ^ s := by
        nlinarith
      have hhigh : ((i.value / i.den + 1 : Nat) : ℚ) * 10 ^ s < (m + 1 / 2) * 2 ^ q := by
        push_cast
        nlinarith
      exact .inr ⟨hlow.le, hhigh.le, fun _ => ⟨hlow, hhigh⟩⟩
  unfold pick?
  simp only
  split <;> simp_all

theorem powers_close : ∀ n < 1200, 10 ^ (n * 30103 / 100000) ≤ 5 * 2 ^ n ∧
    2 ^ n ≤ 10 ^ ((n * 30103 + 99999) / 100000) := by
  decide +kernel

/-- The estimate of a decimal logarithm by a binary one. -/
theorem estimate_le {k : Int} (hlow : -1200 < k) (hhigh : k < 1200) :
    (10 : ℚ) ^ ((k * 30103).fdiv 100000) ≤ 5 * 2 ^ k := by
  rw [Int.fdiv_eq_ediv_of_nonneg _ (by decide)]
  rcases le_total 0 k with hk | hk
  · obtain ⟨n, rfl⟩ := Int.eq_ofNat_of_zero_le hk
    have hdiv : (n : Int) * 30103 / 100000 = ((n * 30103 / 100000 : Nat) : Int) := by omega
    rw [hdiv, zpow_natCast, zpow_natCast]
    exact_mod_cast (powers_close n (by omega)).1
  · obtain ⟨n, hn⟩ := Int.eq_ofNat_of_zero_le (show 0 ≤ -k by omega)
    obtain rfl : k = -(n : Int) := by omega
    have hdiv : -(n : Int) * 30103 / 100000 = -(((n * 30103 + 99999) / 100000 : Nat) : Int) := by
      omega
    have hpower : (2 : ℚ) ^ n ≤ 10 ^ ((n * 30103 + 99999) / 100000) := by
      exact_mod_cast (powers_close n (by omega)).2
    rw [hdiv, zpow_neg, zpow_neg, zpow_natCast, zpow_natCast]
    calc ((10 : ℚ) ^ ((n * 30103 + 99999) / 100000))⁻¹ ≤ (2 ^ n)⁻¹ := by gcongr
      _ ≤ 5 * (2 ^ n)⁻¹ := by
        have hpos : (0 : ℚ) < (2 ^ n)⁻¹ := by positivity
        linarith

/-- The leading digit of a value stands at its position or below it. -/
theorem leading_le (hm : 0 < m) (hshort : m < 2 ^ 53) (hleast : -1074 ≤ q) (hmost : q ≤ 971) :
    (10 : ℚ) ^ (around m q).leading ≤ m * 2 ^ q := by
  have hspans := spans_around hm q
  have hone : (1 : ℚ) ≤ m := by exact_mod_cast hm
  have hlong : (m : ℚ) < 2 ^ 53 := by exact_mod_cast hshort
  have hunit : (0 : ℚ) < 2 ^ q := by positivity
  have hcompare (k : Int) : ((around m q).inUnits k).den ≤ ((around m q).inUnits k).value ↔
      (10 : ℚ) ^ k ≤ m * 2 ^ q := by
    obtain ⟨hden, -, hvalue, -⟩ := hspans.inUnits k
    have hpos : (0 : ℚ) < ((around m q).inUnits k).den := by exact_mod_cast hden
    rw [← Nat.cast_le (α := ℚ), hvalue, le_mul_iff_one_le_left hpos,
      le_div_iff₀ (by positivity), one_mul]
  obtain ⟨hden, -, hvalue, -⟩ := hspans
  generalize around m q = i at *
  have hpos : (0 : ℚ) < i.den := by exact_mod_cast hden
  have hratio : (i.value : ℚ) / i.den = m * 2 ^ q := by
    rw [hvalue, mul_div_cancel_right₀ _ hpos.ne']
  have hnum : 0 < i.value := by
    have : (0 : ℚ) < i.value := by rw [hvalue]; positivity
    exact_mod_cast this
  obtain ⟨hbelow, habove⟩ := ratio_bounds hnum hden
  rw [hratio] at hbelow habove
  unfold leading
  simp only
  generalize (i.value.log2 : Int) - i.den.log2 = k at *
  split
  · have hlow : -1200 < k := by
      have hchain : (2 : ℚ) ^ q < 2 ^ (k + 1) := lt_of_le_of_lt (by nlinarith) habove
      have := (zpow_lt_zpow_iff_right₀ (by norm_num : (1 : ℚ) < 2)).mp hchain
      omega
    have hhigh : k < 1200 := by
      have hchain : (2 : ℚ) ^ (k - 1) < 2 ^ (q + 53) :=
        calc (2 : ℚ) ^ (k - 1) < m * 2 ^ q := hbelow
          _ < 2 ^ 53 * 2 ^ q := by gcongr
          _ = 2 ^ (q + 53) := by rw [zpow_add₀ two_ne_zero, mul_comm]; norm_cast
      have := (zpow_lt_zpow_iff_right₀ (by norm_num : (1 : ℚ) < 2)).mp hchain
      omega
    have hestimate := estimate_le hlow hhigh
    rw [zpow_sub₀ (by norm_num), zpow_one, div_le_iff₀ (by norm_num)]
    rw [zpow_sub₀ two_ne_zero, zpow_one] at hbelow
    linarith
  · rename_i hge
    split
    · rename_i hnext
      exact (hcompare _).mp hnext
    · exact (hcompare _).mp (not_lt.mp hge)

end Interval

/-- Dropping zeros at the end changes neither the number nor that it is positive. -/
theorem trimZeros_value (d : Digits) :
    (d.trimZeros.digits : ℚ) * 10 ^ d.trimZeros.exponent = d.digits * 10 ^ d.exponent := by
  have hgo (n : Nat) (d : Digits) :
      ((Digits.trimZeros.go n d).digits : ℚ) * 10 ^ (Digits.trimZeros.go n d).exponent =
      d.digits * 10 ^ d.exponent := by
    induction n generalizing d with
    | zero => rfl
    | succ n ih =>
      rw [Digits.trimZeros.go]
      split
      · rename_i hzero
        rw [ih]
        have hdigits : (d.digits : ℚ) = (d.digits / 10 : Nat) * 10 := by
          exact_mod_cast (Nat.div_mul_cancel (Nat.dvd_of_mod_eq_zero hzero.2)).symm
        simp only
        rw [zpow_add₀ (by norm_num), zpow_one, hdigits]
        ring
      · rfl
  exact hgo _ d

/-- The search comes upon a number of units that reads back, if there is one within its bounds. -/
theorem search_contains {i : Interval} {k : Int} {n count : Nat}
    (h : ∃ j < count, ((i.inUnits (k - (n + j : Nat) + 1)).pick?).isSome = true) :
    ∃ (c : Nat) (s : Int), (i.inUnits s).contains c = true ∧
      search i k n count = Digits.trimZeros ⟨c, s⟩ := by
  induction count generalizing n with
  | zero =>
    obtain ⟨j, hj, -⟩ := h
    omega
  | succ count ih =>
    rw [search]
    cases hpick : (i.inUnits (k - n + 1)).pick? with
    | some c => exact ⟨c, k - n + 1, Interval.contains_of_pick? hpick, rfl⟩
    | none =>
      obtain ⟨j, hj, hsome⟩ := h
      cases j with
      | zero =>
        rw [Nat.add_zero, hpick] at hsome
        cases hsome
      | succ j => exact ih ⟨j, by omega, by rw [← hsome]; congr 4; omega⟩

/-- One unit of the seventeenth digit is less than the distance of the midpoints. -/
theorem last_unit_lt {m : Nat} {q k : Int} (hshort : m < 2 ^ 53) (h : (10 : ℚ) ^ k ≤ m * 2 ^ q) :
    (10 : ℚ) ^ (k - 16) < (reach m q + 1 / 2) * 2 ^ q := by
  have hunit : (0 : ℚ) < 2 ^ q := by positivity
  have hratio : (m : ℚ) < 10 ^ 16 * (reach m q + 1 / 2) := by
    unfold reach
    split
    · rename_i hpower
      rw [hpower.1]
      norm_num
    · have hlong : (m : ℚ) < 2 ^ 53 := by exact_mod_cast hshort
      norm_num at hlong ⊢
      linarith
  rw [zpow_sub₀ (by norm_num), div_lt_iff₀ (by positivity)]
  calc (10 : ℚ) ^ k ≤ m * 2 ^ q := h
    _ < 10 ^ 16 * (reach m q + 1 / 2) * 2 ^ q := by gcongr
    _ = (reach m q + 1 / 2) * 2 ^ q * 10 ^ (16 : Int) := by norm_cast; ring

/-- The digits that a finite value is written with are near it, so they read back as its modulus. -/
theorem ofDecimal_shortest {x : Float} (hfinite : x.isFinite = true) (hpos : 0 < (parts x).mantissa)
    {digits : Nat} {e : Int} (h : (digits : ℚ) * 10 ^ e =
      (shortest x).digits * 10 ^ (shortest x).exponent) :
    ofDecimal false digits e = modulus x := by
  apply ofDecimal_near hfinite hpos
  rw [h]
  obtain ⟨hshort, hbounded, -⟩ := parts_canonical x
  have hleading := Interval.leading_le hpos hshort hbounded (exponent_le hfinite)
  unfold shortest
  simp only
  generalize (parts x).mantissa = m at *
  generalize (parts x).exponent = q at *
  have hlast := Interval.pick?_isSome hpos q _ (last_unit_lt hshort hleading)
  have hfound : ∃ j < 17, (((Interval.around m q).inUnits
      ((Interval.around m q).leading - (1 + j : Nat) + 1)).pick?).isSome = true :=
    ⟨16, by decide, by rw [← hlast]; congr 3; omega⟩
  obtain ⟨c, s, hcontains, hsearch⟩ := search_contains hfound
  rw [hsearch, trimZeros_value]
  exact (Interval.contains_iff hpos q s c).mp hcontains

end Decimal
end Machining
