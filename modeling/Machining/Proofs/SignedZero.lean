import Mathlib

-- `Float.ofBits_toBits` and other facts about encodings come only with the library as a whole.
namespace Machining.Binary64
open Float.Model UnpackedFloat

/-- The zeros are equal as numbers but encoded apart. -/
def IsZero (x : Float) : Prop := x = 0.0 ∨ x = -0.0

variable {x s : Float}

/-- A number is the one that its value is encoded as. -/
theorem eq_of_unpack {u : UnpackedFloat} (h : x.toModel.unpack = u) : x = ⟨Float.Model.pack u⟩ := by
  rw [← h]
  exact (Float.ofBits_toBits x).symm

theorem unpack_of_isZero (h : IsZero s) : ∃ sign, s.toModel.unpack = .zero sign := by
  rcases h with rfl | rfl
  · exact ⟨.positive, rfl⟩
  · exact ⟨.negative, rfl⟩

theorem isZero_of_unpack {sign : Sign} (h : s.toModel.unpack = .zero sign) : IsZero s := by
  rw [eq_of_unpack h]
  cases sign with
  | positive => exact .inl (by decide)
  | negative => exact .inr (by decide)

/-- An operation that has the zeros on its right as neutral, save for a negative zero on its
left. -/
theorem neutral_zero (op : UnpackedFloat → UnpackedFloat → UnpackedFloat)
    (hop : ∀ u sign, u ≠ .zero .negative → op u (.zero sign) = u) (hx : x ≠ -0.0) (hs : IsZero s) :
    (⟨Float.Model.pack (op x.toModel.unpack s.toModel.unpack)⟩ : Float) = x := by
  obtain ⟨sign, hsign⟩ := unpack_of_isZero hs
  have hne : x.toModel.unpack ≠ .zero .negative :=
    fun hu => hx ((eq_of_unpack hu).trans (by decide))
  rw [hsign, hop _ sign hne]
  exact (eq_of_unpack rfl).symm

theorem add_zero_of_ne (hx : x ≠ -0.0) (hs : IsZero s) : x + s = x := by
  refine neutral_zero (UnpackedFloat.add .binary64) ?_ hx hs
  intro u sign hu
  cases u with
  | notANumber | infinity _ | finite _ _ _ _ => rfl
  | zero sx =>
    cases sx with
    | positive => cases sign <;> rfl
    | negative => exact absurd rfl hu

theorem sub_zero_of_ne (hx : x ≠ -0.0) (hs : IsZero s) : x - s = x := by
  refine neutral_zero (UnpackedFloat.sub .binary64) ?_ hx hs
  intro u sign hu
  cases u with
  | notANumber | infinity _ | finite _ _ _ _ => rfl
  | zero sx =>
    cases sx with
    | positive => cases sign <;> rfl
    | negative => exact absurd rfl hu

/-- Adding the positive zero turns the negative zero into it and changes nothing else. -/
theorem add_zero_ne (x : Float) : x + 0.0 ≠ -0.0 := by
  by_cases hx : x = -0.0
  · rw [hx]
    decide
  · rw [add_zero_of_ne hx (.inl rfl)]
    exact hx

/-- Only a zero leaves the positive zero as it is. -/
theorem isZero_of_zero_add (h : 0.0 + s = 0.0) : IsZero s := by
  change (⟨Float.Model.pack (UnpackedFloat.add .binary64 (0.0 : Float).toModel.unpack
    s.toModel.unpack)⟩ :
    Float) = 0.0 at h
  have hz : (0.0 : Float).toModel.unpack = .zero .positive := rfl
  rw [hz] at h
  cases hu : s.toModel.unpack with
  | notANumber =>
    rw [hu] at h
    exact absurd h (by decide)
  | infinity sign =>
    rw [hu] at h
    cases sign <;> exact absurd h (by decide)
  | zero sign => exact isZero_of_unpack hu
  | finite sign m e hm =>
    rw [hu] at h
    exact .inl ((eq_of_unpack hu).trans h)

end Machining.Binary64
