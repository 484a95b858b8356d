import Machining.Number.Sort
import Machining.Proofs.Exact

namespace Machining.Number
variable {β : Type} [LinearOrder β] {r : Number → β} {x y : Number} {xs ys : List Number}

/-- Numbers that compare as their ranks do. -/
def Ranked (r : Number → β) (xs : List Number) : Prop :=
  ∀ x ∈ xs, ∀ y ∈ xs, x.holds .lt y = .ok (decide (r x < r y))

theorem Ranked.mono (h : Ranked r ys) (hsub : xs ⊆ ys) : Ranked r xs :=
  fun x hx y hy => h x (hsub hx) y (hsub hy)

structure InOrder (r : Number → β) (xs ys : List Number) : Prop where
  perm : ys.Perm xs
  ascending : ys.Pairwise fun a b => r a ≤ r b

theorem InOrder.before {us vs : List Number}
    (hsorted : (us ++ y :: vs).Pairwise fun a b => r a ≤ r b) (hlt : r x < r y)
    (h : InOrder r (x :: us) ys) : InOrder r (x :: (us ++ y :: vs)) (ys ++ y :: vs) := by
  obtain ⟨hperm, hascending⟩ := h
  obtain ⟨-, hyvs, hcross⟩ := List.pairwise_append.mp hsorted
  refine ⟨hperm.append_right _, List.pairwise_append.mpr ⟨hascending, hyvs, fun a ha b hb => ?_⟩⟩
  rcases List.mem_cons.mp (hperm.mem_iff.mp ha) with rfl | ha
  · rcases List.mem_cons.mp hb with rfl | hb
    · exact hlt.le
    · exact hlt.le.trans ((List.pairwise_cons.mp hyvs).1 b hb)
  · exact hcross a ha b hb

theorem InOrder.behind {us vs : List Number}
    (hsorted : (us ++ y :: vs).Pairwise fun a b => r a ≤ r b) (hle : r y ≤ r x)
    (h : InOrder r (x :: vs) ys) : InOrder r (x :: (us ++ y :: vs)) (us ++ [y] ++ ys) := by
  obtain ⟨hperm, hascending⟩ := h
  have hsplit : us ++ y :: vs = us ++ [y] ++ vs := by simp
  rw [hsplit] at hsorted ⊢
  obtain ⟨husy, -, hcross⟩ := List.pairwise_append.mp hsorted
  have hbefore : ∀ a ∈ us ++ [y], r a ≤ r y := by
    intro a ha
    rcases List.mem_append.mp ha with hu | hy
    · exact (List.pairwise_append.mp husy).2.2 a hu y (by simp)
    · rw [List.mem_singleton.mp hy]
  refine ⟨(hperm.append_left _).trans List.perm_middle, ?_⟩
  refine List.pairwise_append.mpr ⟨husy, hascending, fun a ha b hb => ?_⟩
  rcases List.mem_cons.mp (hperm.mem_iff.mp hb) with rfl | hb
  · exact (hbefore a ha).trans hle
  · exact hcross a ha b hb

theorem drop_take_middle {k : Nat} (h : xs[k]? = some y) :
    xs.drop k = y :: xs.drop (k + 1) ∧ xs.take (k + 1) = xs.take k ++ [y] := by
  obtain ⟨hk, rfl⟩ := List.getElem?_eq_some_iff.mp h
  exact ⟨List.drop_eq_getElem_cons hk, by rw [List.take_add_one, h, Option.toList_some]⟩

theorem insertWithin_ranked {n : Nat} (h : Ranked r (x :: xs))
    (hsorted : xs.Pairwise fun a b => r a ≤ r b) (hn : xs.length ≤ n) :
    ∃ ys, insertWithin n x xs = .ok ys ∧ InOrder r (x :: xs) ys := by
  induction n generalizing xs with
  | zero =>
    rw [List.length_eq_zero_iff.mp (Nat.le_zero.mp hn)]
    exact ⟨[x], rfl, .refl _, by simp⟩
  | succ n ih =>
    unfold insertWithin
    simp only
    split
    · rename_i hnone
      rw [List.getElem?_eq_none_iff] at hnone
      rw [List.length_eq_zero_iff.mp (by omega : xs.length = 0)]
      exact ⟨[x], rfl, .refl _, by simp⟩
    · rename_i y hy
      obtain ⟨hdrop, htake⟩ := drop_take_middle hy
      have hsplit := List.take_append_drop (xs.length / 2) xs
      rw [hdrop] at hsplit
      rw [← hsplit] at hsorted
      obtain ⟨hbefore, hbehind, -⟩ := List.pairwise_append.mp hsorted
      rw [h x List.mem_cons_self y (List.mem_cons_of_mem x (List.mem_of_getElem? hy))]
      by_cases hlt : r x < r y
      · have hsub : x :: xs.take (xs.length / 2) ⊆ x :: xs :=
          List.cons_subset_cons x (List.take_subset _ xs)
        obtain ⟨ys, hys, hordered⟩ := ih (h.mono hsub) hbefore (by rw [List.length_take]; omega)
        refine ⟨ys ++ xs.drop (xs.length / 2),
          by simp [hlt, hys, bind, Except.bind, pure, Except.pure], ?_⟩
        have hinserted := hordered.before hsorted hlt
        rwa [hsplit, ← hdrop] at hinserted
      · have hsub : x :: xs.drop (xs.length / 2 + 1) ⊆ x :: xs :=
          List.cons_subset_cons x (List.drop_subset _ xs)
        obtain ⟨ys, hys, hordered⟩ :=
          ih (h.mono hsub) (List.pairwise_cons.mp hbehind).2 (by rw [List.length_drop]; omega)
        refine ⟨xs.take (xs.length / 2 + 1) ++ ys,
          by simp [hlt, hys, bind, Except.bind, pure, Except.pure], ?_⟩
        have hinserted := hordered.behind hsorted (not_lt.mp hlt)
        rwa [hsplit, ← htake] at hinserted

theorem insertAll_ranked {sorted : List Number} (h : Ranked r (sorted ++ xs))
    (hsorted : sorted.Pairwise fun a b => r a ≤ r b) :
    ∃ ys, insertAll sorted xs = .ok ys ∧ InOrder r (sorted ++ xs) ys := by
  induction xs generalizing sorted with
  | nil => exact ⟨sorted, rfl, by simp, hsorted⟩
  | cons x xs ih =>
    have hinsert : Ranked r (x :: sorted) := h.mono (by grind)
    obtain ⟨ys, hys, hperm, hascending⟩ := insertWithin_ranked hinsert hsorted le_rfl
    have hrest : (ys ++ xs).Perm (sorted ++ x :: xs) :=
      (hperm.append_right xs).trans List.perm_middle.symm
    obtain ⟨zs, hzs, hordered⟩ := ih (h.mono hrest.subset) hascending
    exact ⟨zs,
      by simp [insertAll, hys, hzs, bind,
        Except.bind], hordered.perm.trans hrest, hordered.ascending⟩

def Runs (falling : Bool) (r : Number → β) (a b : Number) : Prop :=
  if falling then r b < r a else r a ≤ r b

theorem Runs.trans {falling : Bool} {a b c : Number} (hab : Runs falling r a b)
    (hbc : Runs falling r b c) : Runs falling r a c := by
  cases falling with
  | true => exact lt_trans hbc hab
  | false => exact le_trans hab hbc

theorem stretch_ranked (falling : Bool) (h : Ranked r (x :: xs)) :
    ∃ run rest, stretch falling x xs = .ok (x :: run, rest) ∧ run ++ rest = xs ∧
      (x :: run).Pairwise (Runs falling r) := by
  induction xs generalizing x with
  | nil => exact ⟨[], [], rfl, rfl, by simp⟩
  | cons y ys ih =>
    have hcompare := h y (by simp) x (by simp)
    obtain ⟨run, rest, hrun, hsplit, hordered⟩ := ih (h.mono (List.subset_cons_self x _))
    unfold stretch
    rw [hcompare]
    by_cases hgoes : decide (r y < r x) = falling
    · refine ⟨y :: run, rest, ?_, by simp [hsplit], ?_⟩
      · simp [hgoes, hrun, bind, Except.bind, pure, Except.pure]
      · have hnext : Runs falling r x y := by
          cases falling <;> simpa [Runs] using hgoes
        refine List.pairwise_cons.mpr ⟨fun z hz => ?_, hordered⟩
        rcases List.mem_cons.mp hz with rfl | hz
        · exact hnext
        · exact hnext.trans ((List.pairwise_cons.mp hordered).1 z hz)
    · exact ⟨[], y :: ys, by simp [hgoes, bind, Except.bind, pure, Except.pure], rfl, by simp⟩

/-- Numbers with ranks are put in order, and none is lost. -/
theorem sort_ranked (h : Ranked r xs) : ∃ ys, sort xs = .ok ys ∧ InOrder r xs ys := by
  cases xs with
  | nil => exact ⟨[], rfl, .refl _, .nil⟩
  | cons x xs =>
    cases xs with
    | nil => exact ⟨[x], rfl, .refl _, by simp⟩
    | cons y ys =>
      have hcompare := h y (by simp) x (by simp)
      obtain ⟨run, rest, hrun, hsplit, hordered⟩ := stretch_ranked (decide (r y < r x)) h
      by_cases hfalls : r y < r x
      · rw [decide_eq_true hfalls] at hcompare hrun hordered
        have hrest : ((x :: run).reverse ++ rest).Perm (x :: y :: ys) := by
          rw [← hsplit, ← List.cons_append]
          exact (List.reverse_perm _).append_right rest
        have hreverse : (x :: run).reverse.Pairwise fun a b => r a ≤ r b := by
          rw [List.pairwise_reverse]
          exact hordered.imp le_of_lt
        obtain ⟨zs, hzs, hinserted⟩ := insertAll_ranked (h.mono hrest.subset) hreverse
        exact ⟨zs,
          by simp [sort, leading, hcompare, hrun, ← hzs, bind, Except.bind, pure,
            Except.pure], hinserted.perm.trans hrest, hinserted.ascending⟩
      · rw [decide_eq_false hfalls] at hcompare hrun hordered
        rw [← hsplit, ← List.cons_append] at h ⊢
        obtain ⟨zs, hzs, hinserted⟩ := insertAll_ranked h hordered
        refine ⟨zs, ?_, hinserted⟩
        rw [List.cons_append, hsplit]
        simp [sort, leading, hcompare, hrun, hzs, bind, Except.bind]

/-- With different ranks there is only one order. -/
theorem sort_eq (h : Ranked r xs) (hdistinct : ∀ a ∈ xs, ∀ b ∈ xs, r a = r b → a = b)
    (hys : InOrder r xs ys) : sort xs = .ok ys := by
  obtain ⟨zs, hzs, hordered⟩ := sort_ranked h
  have hsame : zs = ys := by
    refine List.Perm.eq_of_pairwise ?_ hordered.ascending hys.ascending
      (hordered.perm.trans hys.perm.symm)
    intro a b ha hb hab hba
    exact hdistinct a (hordered.perm.subset ha) b (hys.perm.subset hb) (le_antisymm hab hba)
  rw [hzs, hsame]

theorem insertWithin_perm {n : Nat} (h : insertWithin n x xs = .ok ys) : ys.Perm (x :: xs) := by
  induction n generalizing xs ys with
  | zero =>
    cases h
    exact .refl _
  | succ n ih =>
    unfold insertWithin at h
    simp only at h
    split at h
    · rename_i hnone
      rw [List.getElem?_eq_none_iff] at hnone
      rw [List.length_eq_zero_iff.mp (by omega : xs.length = 0)]
      cases h
      exact .refl _
    · rename_i y hy
      obtain ⟨hdrop, htake⟩ := drop_take_middle hy
      obtain ⟨below, -, h⟩ := bind_ok_iff.mp h
      split at h
      · obtain ⟨zs, hzs, h⟩ := bind_ok_iff.mp h
        cases h
        have hinserted := (ih hzs).append_right (xs.drop (xs.length / 2))
        rwa [List.cons_append, List.take_append_drop] at hinserted
      · obtain ⟨zs, hzs, h⟩ := bind_ok_iff.mp h
        cases h
        have hinserted := (ih hzs).append_left (xs.take (xs.length / 2 + 1))
        refine hinserted.trans (List.perm_middle.trans ?_)
        rw [List.take_append_drop]

theorem insertAll_perm {sorted : List Number} (h : insertAll sorted xs = .ok ys) :
    ys.Perm (sorted ++ xs) := by
  induction xs generalizing sorted with
  | nil =>
    cases h
    simp
  | cons x xs ih =>
    obtain ⟨zs, hzs, h⟩ := bind_ok_iff.mp h
    exact (ih h).trans (((insertWithin_perm hzs).append_right xs).trans List.perm_middle.symm)

theorem stretch_perm {falling : Bool} {run rest : List Number}
    (h : stretch falling x xs = .ok (run, rest)) : run ++ rest = x :: xs := by
  induction xs generalizing x run with
  | nil =>
    cases h
    rfl
  | cons y ys ih =>
    unfold stretch at h
    obtain ⟨below, -, h⟩ := bind_ok_iff.mp h
    split at h
    · obtain ⟨⟨run', rest'⟩, hrun, h⟩ := bind_ok_iff.mp h
      cases h
      rw [List.cons_append, ih hrun]
    · cases h
      rfl

/-- Whatever the order, sorting loses nothing. -/
theorem sort_perm (h : sort xs = .ok ys) : ys.Perm xs := by
  unfold sort at h
  split at h
  · rename_i x y zs
    obtain ⟨⟨run, rest⟩, hrun, h⟩ := bind_ok_iff.mp h
    refine (insertAll_perm h).trans ?_
    unfold leading at hrun
    obtain ⟨below, -, hrun⟩ := bind_ok_iff.mp hrun
    split at hrun
    · obtain ⟨⟨run', rest'⟩, hstretch, hrun⟩ := bind_ok_iff.mp hrun
      cases hrun
      rw [← stretch_perm hstretch]
      exact (List.reverse_perm _).append_right _
    · rw [stretch_perm hrun]
  · cases h
    exact .refl _

theorem holds_lt (hx : x ≠ missing) (hy : y ≠ missing) :
    x.holds .lt y = .ok (compare? x y == some .lt) := by
  cases x with
  | missing => exact absurd rfl hx
  | int | float =>
    cases y with
    | missing => exact absurd rfl hy
    | int | float => rfl

def rank (x : Number) : ℚ := x.value?.getD 0

theorem ranked_finite (h : ∀ x ∈ xs, x.value?.isSome = true) : Ranked rank xs := by
  intro x hx y hy
  obtain ⟨u, hu⟩ := Option.isSome_iff_exists.mp (h x hx)
  obtain ⟨v, hv⟩ := Option.isSome_iff_exists.mp (h y hy)
  have hcompare := compare?_value hu hv
  have hx : x ≠ missing := by
    rintro rfl
    cases hu
  have hy : y ≠ missing := by
    rintro rfl
    cases hv
  rw [holds_lt hx hy, hcompare, rank, rank, hu, hv, Option.getD_some, Option.getD_some]
  congr 1
  rw [Bool.eq_iff_iff]
  simp [cmp, cmpUsing]

end Machining.Number
