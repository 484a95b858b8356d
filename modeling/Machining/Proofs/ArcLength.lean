import Machining.Proofs.ArcPlanes

namespace Machining
open Real

/-- Of two directions within one turn, the way from the one to the other is their distance or the
rest of the turn. -/
theorem toIcoMod_sub_cases {a b : ℝ} (ha : a ∈ Set.Ico 0 (2 * π)) (hb : b ∈ Set.Ico 0 (2 * π))
    (hne : a ≠ b) :
    toIcoMod two_pi_pos 0 (b - a) = |b - a| ∨ toIcoMod two_pi_pos 0 (b - a) = 2 * π - |b - a| := by
  rcases lt_or_gt_of_ne hne with hlt | hgt
  · left
    rw [abs_of_pos (sub_pos.mpr hlt), toIcoMod_eq_self]
    exact ⟨by linarith, by linarith [ha.1, hb.2]⟩
  · right
    rw [abs_of_neg (sub_neg.mpr hgt), ← toIcoMod_add_right, (toIcoMod_eq_self _).mpr]
    · ring
    · exact ⟨by linarith [hb.1, ha.2], by linarith⟩

theorem MoveKind.swept_cases (kind : MoveKind) {a b : ℝ} (ha : a ∈ Set.Ico 0 (2 * π))
    (hb : b ∈ Set.Ico 0 (2 * π)) : kind.swept a b = |b - a| ∨ kind.swept a b = 2 * π - |b - a| := by
  rw [swept]
  split_ifs with hab hcw
  · right
    simp [hab]
  · rw [abs_sub_comm]
    exact toIcoMod_sub_cases hb ha (Ne.symm hab)
  · exact toIcoMod_sub_cases ha hb hab

namespace Segment

/-- An arc with its radius and the directions of its ends, seen from the centre. -/
structure ArcWith (s : Segment ℝ) (r a b : ℝ) : Prop where
  kind : s.kind.isArc = true
  radius : s.radius = some r
  startAngle : s.startAngle = some a
  endAngle : s.endAngle = some b
  nonneg : 0 ≤ r
  start : a ∈ Set.Ico 0 (2 * π)
  stop : b ∈ Set.Ico 0 (2 * π)

namespace ArcWith
variable {s : Segment ℝ} {r a b : ℝ}

theorem withKind (h : s.ArcWith r a b) {kind : MoveKind} (hkind : kind.isArc = true) :
    ({ s with kind } : Segment ℝ).ArcWith r a b :=
  ⟨hkind, h.radius, h.startAngle, h.endAngle, h.nonneg, h.start, h.stop⟩

/-- The way that is measured does not depend on the direction of the arc. -/
theorem length_eq (h : s.ArcWith r a b) :
    s.measured.map travel = .ok (r * min |b - a| (2 * π - |b - a|)) := by
  have hmeasure : s.measure = .ok (r * min |b - a| (2 * π - |b - a|)) := by
    unfold measure
    rw [if_pos h.kind, h.radius, h.startAngle, h.endAngle]
    simp only [sweep_real]
    rfl
  unfold measured
  rw [hmeasure]
  exact congrArg Except.ok (PlaneScalar.orZero_eq (some _))

theorem length_swept (h : s.ArcWith r a b) :
    s.measured.map travel = .ok (r * min (s.kind.swept a b) (2 * π - s.kind.swept a b)) := by
  rw [h.length_eq]
  rcases s.kind.swept_cases h.start h.stop with hswept | hswept
  · rw [hswept]
  · rw [hswept, sub_sub_cancel, min_comm]

end ArcWith

/-- The shorter way there and the shorter way back make a full turn only if both are half a turn. -/
theorem shorter_add_shorter_iff {r d : ℝ} :
    r * min d (2 * π - d) + r * min d (2 * π - d) = 2 * π * r ↔ r = 0 ∨ d = π := by
  have hmin : min d (2 * π - d) = π ↔ d = π := by
    constructor
    · intro h
      rcases min_cases d (2 * π - d) with ⟨hd, hle⟩ | ⟨hd, hlt⟩ <;> linarith
    · rintro rfl
      rw [two_mul, add_sub_cancel_right, min_self]
  calc r * min d (2 * π - d) + r * min d (2 * π - d) = 2 * π * r
      ↔ r * min d (2 * π - d) = r * π := by constructor <;> intro h <;> linarith
    _ ↔ min d (2 * π - d) = π ∨ r = 0 := mul_eq_mul_left_iff
    _ ↔ r = 0 ∨ d = π := by rw [hmin, or_comm]

end Segment

/-- The angles of an arc are within one turn. -/
theorem PlaneScalar.wrapped_angle_mem (y x : ℝ) : wrapped (angle y x) ∈ Set.Ico 0 (2 * π) := by
  have hwrapped : wrapped (angle y x) =
      if decide (Complex.arg ⟨x, y⟩ < 0) = true then Complex.arg ⟨x, y⟩ + 2 * π
        else Complex.arg ⟨x, y⟩ := rfl
  have hlow := Complex.neg_pi_lt_arg ⟨x, y⟩
  have hhigh := Complex.arg_le_pi ⟨x, y⟩
  have hpi := pi_pos
  rw [hwrapped]
  split
  · rename_i h
    have hneg := of_decide_eq_true h
    exact ⟨by linarith, by linarith⟩
  · rename_i h
    have hnonneg : 0 ≤ Complex.arg ⟨x, y⟩ := by simpa using h
    exact ⟨hnonneg, by linarith⟩

/-- An arc can be added between any points, and has a radius and two directions. -/
theorem Toolpath.addArc_arcWith (t : Toolpath ℝ) (start stop center : Point ℝ) (line : Int)
    {kind : MoveKind} (plane : String) (feed : Option ℝ) (hkind : kind.isArc = true) :
    ∃ t' s r a b, t.addArc start stop center line kind plane feed = .ok t' ∧
      t'.segments = t.segments ++ [s] ∧
      s.ArcWith r a b := by
  obtain ⟨t', hadd⟩ := addArc_real t start stop center line kind plane feed
  obtain ⟨shape, len, hshape, hsegments⟩ := addArc_eq hadd
  rw [ArcShape.ofPoints_exact, Except.ok.injEq] at hshape
  subst hshape
  refine ⟨t', _, _, _, _, hadd, hsegments, hkind, rfl, rfl, rfl, ?_,
    PlaneScalar.wrapped_angle_mem _ _, PlaneScalar.wrapped_angle_mem _ _⟩
  exact div_nonneg (add_nonneg (sqrt_nonneg _) (sqrt_nonneg _)) (add_nonneg zero_le_one zero_le_one)

namespace Segment

/-- The length of an arc is that of the shorter way round. So it is the radius times the angle swept
in the direction of travel if and only if that is no more than half a turn, and the arcs in both
directions add up to the circle only between opposite points. An arc can be added to a path between
any points, and it is one of these. -/
theorem arc_length_iff {s : Segment ℝ} {r a b : ℝ} (h : s.ArcWith r a b) :
    s.measured.map travel = .ok (r * min (s.kind.swept a b) (2 * π - s.kind.swept a b)) ∧
    (s.measured.map travel = .ok (r * s.kind.swept a b) ↔ r = 0 ∨ s.kind.swept a b ≤ π) ∧
    ((∃ l l', ({ s with kind := .arcCw } : Segment ℝ).measured.map travel = .ok l ∧
        ({ s with kind := .arcCcw } : Segment ℝ).measured.map travel = .ok l' ∧
        l + l' = 2 * π * r) ↔
      r = 0 ∨ |b - a| = π) ∧
    ∀ (t : Toolpath ℝ) (start stop center : Point ℝ) (line : Int) (kind : MoveKind) (plane : String)
      (feed : Option ℝ), kind.isArc = true →
      ∃ t' s r a b, t.addArc start stop center line kind plane feed = .ok t' ∧
        t'.segments = t.segments ++ [s] ∧
        s.ArcWith r a b := by
  refine ⟨h.length_swept, ?_, ?_, ?_⟩
  · rw [h.length_swept, Except.ok.injEq, mul_eq_mul_left_iff, min_eq_left_iff, or_comm]
    have hhalf : s.kind.swept a b ≤ 2 * π - s.kind.swept a b ↔ s.kind.swept a b ≤ π := by
      constructor <;> intro hle <;> linarith
    rw [hhalf]
  · rw [(h.withKind rfl).length_eq, (h.withKind rfl).length_eq, ← shorter_add_shorter_iff]
    constructor
    · rintro ⟨l, l', ⟨⟩, ⟨⟩, hsum⟩
      exact hsum
    · exact fun hsum => ⟨_, _, rfl, rfl, hsum⟩
  · intro t start stop center line kind plane feed hkind
    exact t.addArc_arcWith start stop center line plane feed hkind

noncomputable def unitArc (a b : ℝ) : Segment ℝ :=
  ⟨0, 1, .arcCcw, ⟨0, 0, 0⟩, ⟨1, 1, 0⟩, some ⟨1, 0, 0⟩, some 1, some a, some b,
    some "XY", some 1, none⟩

/-- Three quarters of a circle have the length of the fourth quarter. -/
theorem arc_length_iff_threeQuarters :
    (unitArc π (π / 2)).ArcWith 1 π (π / 2) ∧ MoveKind.arcCcw.swept π (π / 2) = 3 * π / 2 ∧
      (unitArc π (π / 2)).measured.map travel = .ok (π / 2) ∧
      (unitArc π (π / 2)).measured.map travel ≠ .ok (3 * π / 2) := by
  have hpi := pi_pos
  have harc : (unitArc π (π / 2)).ArcWith 1 π (π / 2) :=
    ⟨rfl, rfl, rfl, rfl, zero_le_one, ⟨by linarith, by linarith⟩, ⟨by linarith, by linarith⟩⟩
  have hswept : MoveKind.arcCcw.swept π (π / 2) = 3 * π / 2 := by
    rw [MoveKind.swept, if_neg (by linarith), if_neg (by decide), ← toIcoMod_add_right,
      (toIcoMod_eq_self _).mpr]
    · ring
    · exact ⟨by linarith, by linarith⟩
  have hkind : (unitArc π (π / 2)).kind = .arcCcw := rfl
  obtain ⟨hlength, hiff, -⟩ := arc_length_iff harc
  rw [hkind, hswept, one_mul] at hlength hiff
  refine ⟨harc, hswept, ?_, fun h => ?_⟩
  · rw [hlength, min_eq_right (by linarith)]
    congr 1
    ring
  · rcases hiff.mp h with hzero | hle
    · exact one_ne_zero hzero
    · linarith

end Segment
end Machining
