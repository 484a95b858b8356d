import Mathlib.Data.List.Infix
import Machining.Proofs.Layout

namespace Machining.Text
open Token

variable {c d : Char} {cs u : List Char}

def capitalRuns : List (Nat × Nat) :=
  toUpperRuns.map fun r => ((r.first + r.shift).toNat, (r.last + r.shift).toNat)

/-- Every run of small letters is outside ASCII and away from blanks, and its capital forms are
characters. Only those of two letters are ASCII. -/
theorem toUpperRuns_placed : ∀ r ∈ toUpperRuns,
    0 ≤ r.first + r.shift ∧ (r.last + r.shift < 0xD800 ∨ 0xE000 ≤ r.first + r.shift ∧
      r.last + r.shift < 0x110000) ∧
    (0x80 ≤ r.first + r.shift ∨ r.first = r.last ∧ (r.first = 0x131 ∨ r.first = 0x17F)) := by
  decide +kernel

theorem shiftCase_cases (runs : List CaseRun) (c : Char) :
    shiftCase runs c = c ∨
      ∃ r ∈ runs, r.first ≤ c.toNat ∧ c.toNat ≤ r.last ∧
        shiftCase runs c = Char.ofNat (c.toNat + r.shift).toNat := by
  unfold shiftCase
  split
  · rename_i r hr
    have hin := List.find?_some hr
    simp only [Bool.and_eq_true, decide_eq_true_eq] at hin
    exact .inr ⟨r, List.mem_of_find?_eq_some hr, hin.1.1, hin.1.2, rfl⟩
  · exact .inl rfl

/-- Outside ASCII a character keeps its place or moves by the shift of a run that it lies in. -/
theorem upperChar_cases (h : 0x80 ≤ c.toNat) :
    upperChar c = c ∨
      ∃ r ∈ toUpperRuns, r.first ≤ c.toNat ∧ c.toNat ≤ r.last ∧
        ((upperChar c).toNat : Int) = c.toNat + r.shift := by
  rw [upperChar, if_neg (by omega)]
  rcases shiftCase_cases toUpperRuns c with hsame | ⟨r, hr, hfirst, hlast, hshift⟩
  · exact .inl hsame
  · obtain ⟨hpositive, hvalid, -⟩ := toUpperRuns_placed r hr
    have hchar : (c.toNat + r.shift).toNat.isValidChar := by
      unfold Nat.isValidChar
      omega
    refine .inr ⟨r, hr, hfirst, hlast, ?_⟩
    have hcode : (Char.ofNat (c.toNat + r.shift).toNat).toNat = (c.toNat + r.shift).toNat := by
      rw [Char.ofNat, dif_pos hchar]
      rfl
    rw [hshift, hcode]
    omega

/-- Outside ASCII the two letters with an ASCII capital form. -/
theorem upperChar_ascii (h : 0x80 ≤ c.toNat) (hascii : (upperChar c).toNat < 0x80) :
    c.toNat = 0x131 ∨ c.toNat = 0x17F := by
  rcases upperChar_cases h with hsame | ⟨r, hr, hfirst, hlast, hshift⟩
  · rw [hsame] at hascii
    omega
  · obtain ⟨-, -, hplace⟩ := toUpperRuns_placed r hr
    omega

/-- The capital form of a character is one of several characters, or a single one. -/
theorem upperForm_cases (c : Char) :
    (∃ e ∈ longCapitals, e.1 = c.toNat ∧ upperForm c = e.2.map Char.ofNat) ∨
      (∀ e ∈ longCapitals, e.1 ≠ c.toNat) ∧ upperForm c = [upperChar c] := by
  unfold upperForm
  split
  · rename_i e he
    exact .inl ⟨e, List.mem_of_find?_eq_some he, by simpa using List.find?_some he, rfl⟩
  · rename_i hnone
    exact .inr ⟨by simpa using hnone, rfl⟩

/-- What has a long capital form is outside ASCII and no blank, and neither is any character of the
form. -/
theorem longCapitals_placed : ∀ e ∈ longCapitals,
    0x80 ≤ e.1 ∧ e.1 ≠ 0x131 ∧ e.1 ≠ 0x17F ∧ inRuns blankRuns e.1 = false ∧ 2 ≤ e.2.length ∧
      ∀ n ∈ e.2, isBlank (Char.ofNat n) = false := by
  decide +kernel

theorem toUpper_code (c : Char) :
    c.toUpper = c ∨ 0x61 ≤ c.toNat ∧ c.toNat ≤ 0x7A ∧ c.toUpper.toNat + 32 = c.toNat := by
  unfold Char.toUpper
  split
  · rename_i hlower
    simp only [UInt32.le_iff_toNat_le] at hlower
    have hlow : 0x61 ≤ c.val.toNat := hlower.1
    have hhigh : c.val.toNat ≤ 0x7A := hlower.2
    have hback : ('A'.val - 'a'.val).toNat = 0xFFFFFFE0 := rfl
    refine .inr ⟨hlow, hhigh, ?_⟩
    change (c.val + ('A'.val - 'a'.val)).toNat + 32 = c.val.toNat
    rw [UInt32.toNat_add, hback]
    omega
  · exact .inl rfl

theorem toUpper_high (h : 0x80 ≤ c.toNat) : c.toUpper = c := by
  rcases toUpper_code c with hsame | hcode
  · exact hsame
  · omega

/-- A blank is its own capital form. -/
theorem upperForm_blank (h : isBlank c = true) : upperForm c = [c] := by
  have hruns := inRuns_of_isBlank h
  rcases upperForm_cases c with ⟨e, he, hcode, -⟩ | ⟨-, hsingle⟩
  · obtain ⟨-, -, -, hsolid, -⟩ := longCapitals_placed e he
    rw [hcode, hruns] at hsolid
    cases hsolid
  · rw [hsingle]
    by_cases hascii : c.toNat < 0x80
    · have hlow := ascii_blank hruns hascii
      rw [upperChar, if_pos hascii]
      rcases toUpper_code c with hsame | ⟨hletter, -⟩
      · rw [hsame]
      · omega
    · rcases upperChar_cases (Nat.le_of_not_lt hascii) with hsame | ⟨r, hr, hfirst, hlast, -⟩
      · rw [hsame]
      · have hapart :=
          inRuns_apart (n := c.toNat) (toUpperRuns.map fun r => (r.first, r.last)) blankRuns
          (by decide +kernel) hruns
        have hno := List.any_eq_false.mp hapart (r.first, r.last) (List.mem_map.mpr ⟨r, hr, rfl⟩)
        simp [hfirst, hlast] at hno

/-- No other character has a blank in its capital form. -/
theorem upperForm_solid (h : isBlank c = false) : ∀ d ∈ upperForm c, isBlank d = false := by
  rcases upperForm_cases c with ⟨e, he, -, hform⟩ | ⟨-, hsingle⟩
  · rw [hform]
    intro d hd
    obtain ⟨n, hn, rfl⟩ := List.mem_map.mp hd
    obtain ⟨-, -, -, -, -, hsolid⟩ := longCapitals_placed e he
    exact hsolid n hn
  · rw [hsingle]
    intro d hd
    rw [List.mem_singleton.mp hd]
    by_cases hascii : c.toNat < 0x80
    · rw [upperChar, if_pos hascii]
      rcases toUpper_code c with hsame | ⟨hlow, hhigh, hcode⟩
      · rw [hsame]
        exact h
      · rw [Bool.eq_false_iff]
        intro hblank
        have := ascii_blank (inRuns_of_isBlank hblank) (by omega)
        omega
    · rcases upperChar_cases (Nat.le_of_not_lt hascii) with hsame | ⟨r, hr, hfirst, hlast, hshift⟩
      · rw [hsame]
        exact h
      · rw [Bool.eq_false_iff]
        intro hblank
        have hapart :=
          inRuns_apart capitalRuns blankRuns (by decide +kernel) (inRuns_of_isBlank hblank)
        have hno := List.any_eq_false.mp hapart _ (List.mem_map.mpr ⟨r, hr, rfl⟩)
        simp only [Bool.and_eq_true, decide_eq_true_eq] at hno
        omega

theorem upperForm_ne_nil (c : Char) : upperForm c ≠ [] := by
  rcases upperForm_cases c with ⟨e, he, -, hform⟩ | ⟨-, hsingle⟩
  · obtain ⟨-, -, -, -, hlong, -⟩ := longCapitals_placed e he
    rw [hform]
    intro hnil
    rw [List.map_eq_nil_iff.mp hnil] at hlong
    cases hlong
  · simp [hsingle]

/-- Blanks in front are the same before and behind a change of characters that leaves blanks and
brings in none. -/
theorem dropWhile_flatMap {f : Char → List Char} (hblank : ∀ c, isBlank c = true → f c = [c])
    (hsolid : ∀ c, isBlank c = false → f c ≠ [] ∧ ∀ d ∈ f c, isBlank d = false) (cs : List Char) :
    (cs.flatMap f).dropWhile isBlank = (cs.dropWhile isBlank).flatMap f := by
  induction cs with
  | nil => rfl
  | cons c cs ih =>
    cases hc : isBlank c with
    | true => simp [hblank c hc, hc, ih]
    | false =>
      obtain ⟨hne, hall⟩ := hsolid c hc
      obtain ⟨d, ds, hform⟩ := List.exists_cons_of_ne_nil hne
      have hd : isBlank d = false := hall d (by simp [hform])
      simp [hc, hform, hd]

/-- A text may be trimmed before or after it is put in capitals. -/
theorem trim_capitals (cs : List Char) :
    trim (cs.flatMap upperForm) = (trim cs).flatMap upperForm := by
  have hstart := dropWhile_flatMap (f := upperForm) (fun c => upperForm_blank)
    (fun c hc => ⟨upperForm_ne_nil c, upperForm_solid hc⟩)
  have hend :=
    dropWhile_flatMap (f := fun c => (upperForm c).reverse)
      (fun c hc => by simp [upperForm_blank hc])
    (fun c hc => ⟨by simp [upperForm_ne_nil c], by simpa using upperForm_solid hc⟩)
  rw [trim, trimStart, hstart, trimEnd, List.reverse_flatMap]
  rw [Function.comp_def, hend, List.reverse_flatMap, trim, trimEnd, trimStart]
  simp [Function.comp_def]

/-- An ASCII text, without the letter that the dotless i is a small form of, in which no capital
form of several characters stands. -/
def SpelledOut (u : List Char) : Prop :=
  (∀ d ∈ u, d.toNat < 0x80 ∧ d ≠ 'I') ∧ ∀ v ∈ u.tails, ∀ e ∈ longCapitals,
    ¬ e.2.map Char.ofNat <+: v

/-- A text whose end is not the beginning of a capital form of several characters. -/
def EndsApart (u : List Char) : Prop :=
  ∀ v ∈ u.tails, v ≠ [] → ∀ e ∈ longCapitals, ¬ v <+: e.2.map Char.ofNat

instance (u : List Char) : Decidable (SpelledOut u) :=
  @instDecidableAnd _ _ (List.decidableBAll _ u) (List.decidableBAll _ u.tails)

instance (u : List Char) : Decidable (EndsApart u) := inferInstanceAs (Decidable (∀ v ∈ u.tails, _))

theorem SpelledOut.tail (h : SpelledOut (d :: u)) : SpelledOut u :=
  ⟨fun c hc => h.1 c (List.mem_cons_of_mem d hc), fun v hv => h.2 v (by simp_all)⟩

theorem EndsApart.tail (h : EndsApart (d :: u)) : EndsApart u := fun v hv => h v (by simp_all)

/-- Characters with a given ASCII capital form, apart from `I`. -/
theorem upperChar_eq_iff (hd : d.toNat < 0x80) (hI : d ≠ 'I') :
    upperChar c = d ↔ tagUpper c = d := by
  by_cases hascii : c.toNat < 0x80
  · rw [upperChar, tagUpper, if_pos hascii, if_neg (by omega)]
  · have hne : c ≠ d := by
      rintro rfl
      exact hascii hd
    rw [tagUpper, toUpper_high (Nat.le_of_not_lt hascii)]
    by_cases hs : c.toNat = 0x17F
    · have hform : upperChar (Char.ofNat 0x17F) = 'S' := by decide +kernel
      rw [if_pos hs, eq_of_code hs, hform]
    · rw [if_neg hs]
      simp only [hne, iff_false]
      rintro rfl
      rcases upperChar_ascii (Nat.le_of_not_lt hascii) hd with hi | hi
      · have hform : upperChar (Char.ofNat 0x131) = 'I' := by decide +kernel
        rw [eq_of_code hi] at hI
        exact hI hform
      · exact hs hi

/-- None of them has a capital form of several characters. -/
theorem upperForm_singleton_iff (hd : d.toNat < 0x80) (hI : d ≠ 'I') :
    upperForm c = [d] ↔ tagUpper c = d := by
  rw [← upperChar_eq_iff hd hI]
  rcases upperForm_cases c with ⟨e, he, hcode, hform⟩ | ⟨-, hsingle⟩
  · obtain ⟨hhigh, hnoI, hnoS, -, hlong, -⟩ := longCapitals_placed e he
    constructor
    · intro hone
      have hlength := congrArg List.length (hform.symm.trans hone)
      simp only [List.length_map, List.length_singleton] at hlength
      omega
    · rintro rfl
      rcases upperChar_ascii (c := c) (by omega) hd with h | h <;> omega
  · simp [hsingle]

/-- Whether a text is such a word in capitals can be seen character by character. -/
theorem capitals_eq_iff (hu : SpelledOut u) : cs.flatMap upperForm = u ↔ cs.map tagUpper = u := by
  induction cs generalizing u with
  | nil => simp
  | cons c cs ih =>
    rw [List.flatMap_cons, List.map_cons]
    cases u with
    | nil => simp [upperForm_ne_nil]
    | cons d u =>
      obtain ⟨hd, hI⟩ := hu.1 d List.mem_cons_self
      rw [List.cons.injEq, ← upperForm_singleton_iff hd hI, ← ih hu.tail]
      constructor
      · intro heq
        rcases upperForm_cases c with ⟨e, he, -, hform⟩ | ⟨-, hsingle⟩
        · refine absurd ?_ (hu.2 (d :: u) (by simp) e he)
          rw [← hform, ← heq]
          exact List.prefix_append _ _
        · rw [hsingle, List.singleton_append, List.cons.injEq] at heq
          exact ⟨by rw [hsingle, heq.1], heq.2⟩
      · rintro ⟨hone, hrest⟩
        rw [hone, hrest, List.singleton_append]

/-- And whether the capitals of a text begin with one, if its end cannot go on to a longer form. -/
theorem prefix_capitals_iff (hu : SpelledOut u) (hend : EndsApart u) :
    u <+: cs.flatMap upperForm ↔ u <+: cs.map tagUpper := by
  induction u generalizing cs with
  | nil => simp
  | cons d u ih =>
    obtain ⟨hd, hI⟩ := hu.1 d List.mem_cons_self
    cases cs with
    | nil => simp
    | cons c cs =>
      rw [List.flatMap_cons, List.map_cons, List.cons_prefix_cons, eq_comm,
        ← upperForm_singleton_iff hd hI, ← ih hu.tail hend.tail]
      constructor
      · intro hfits
        rcases upperForm_cases c with ⟨e, he, -, hform⟩ | ⟨-, hsingle⟩
        · rw [hform] at hfits
          rcases List.prefix_or_prefix_of_prefix hfits (List.prefix_append _ _) with h | h
          · exact absurd h (hend (d :: u) (by simp) (by simp) e he)
          · exact absurd h (hu.2 (d :: u) (by simp) e he)
        · rw [hsingle, List.singleton_append, List.cons_prefix_cons] at hfits
          exact ⟨by rw [hsingle, hfits.1], hfits.2⟩
      · rintro ⟨hone, hrest⟩
        rw [hone, List.singleton_append, List.cons_prefix_cons]
        exact ⟨rfl, hrest⟩

end Machining.Text
