import Machining.Profile
import Machining.Proofs.Extended

namespace Machining.Profile

variable {a b c d : Json} {codes listed : List Json} {x y : Number}

inductive IsCode : Json → Prop where
  | number {j : Json} {x : Number} (h : codeNumber? j = some x) (present : x ≠ .missing) : IsCode j
  | text (s : String) : IsCode (.string s)
  | null : IsCode .null

/-- Places of numbers; a value that is no number comes last. -/
def numberPlace (x : Number) : WithTop Extended := x.place?.elim ⊤ (↑)

def textPlace : Json → String ⊕ₗ Unit
  | .string s => Sum.inlₗ s
  | _ => Sum.inrₗ ()

def place (c : Json) : WithTop Extended ⊕ₗ String ⊕ₗ Unit :=
  (codeNumber? c).elim (Sum.inrₗ (textPlace c)) fun x => Sum.inlₗ (numberPlace x)

theorem place_number (h : codeNumber? c = some x) : place c = Sum.inlₗ (numberPlace x) := by
  rw [place, h, Option.elim_some]

theorem beq_self_iff (h : x ≠ .missing) : (x == x) = x.place?.isSome := by
  cases hu : x.place? with
  | some u => exact Number.beq_iff.mpr (.inr ⟨u, hu, hu⟩)
  | none =>
    rw [Option.isSome_none, Bool.eq_false_iff]
    intro heq
    rcases Number.beq_iff.mp heq with ⟨hmissing, -⟩ | ⟨u, hplace, -⟩
    · exact h hmissing
    · rw [hu] at hplace
      cases hplace

theorem compareNumbers_eq (hx : x ≠ .missing) (hy : y ≠ .missing) :
    compareNumbers x y = cmp (numberPlace x) (numberPlace y) := by
  unfold compareNumbers numberPlace
  cases hu : x.place? with
  | some u =>
    cases hv : y.place? with
    | some v =>
      rw [Number.compare?_place hu hv]
      exact (WithTop.coe_strictMono.cmp_map_eq u v).symm
    | none =>
      rw [(Number.compare?_of_place_none hv).2, beq_self_iff hx, beq_self_iff hy, hu, hv]
      exact ((cmp_eq_lt_iff _ _).mpr (WithTop.coe_lt_top u)).symm
  | none =>
    rw [(Number.compare?_of_place_none hu).1, beq_self_iff hx, beq_self_iff hy, hu]
    cases hv : y.place? with
    | some v => exact ((cmp_eq_gt_iff _ _).mpr (WithTop.coe_lt_top v)).symm
    | none => exact (cmp_self_eq_eq _).symm

theorem cmp_inr {α β : Type} [LinearOrder α] [LinearOrder β] (u v : β) :
    cmp (Sum.inrₗ u : α ⊕ₗ β) (Sum.inrₗ v) = cmp u v :=
  Sum.Lex.inr_strictMono.cmp_map_eq u v

theorem cmp_inl {α β : Type} [LinearOrder α] [LinearOrder β] (u v : α) :
    cmp (Sum.inlₗ u : α ⊕ₗ β) (Sum.inlₗ v) = cmp u v :=
  Sum.Lex.inl_strictMono.cmp_map_eq u v

theorem cmp_inl_inr {α β : Type} [LinearOrder α] [LinearOrder β] (u : α) (v : β) :
    cmp (Sum.inlₗ u : α ⊕ₗ β) (Sum.inrₗ v) = .lt ∧ cmp (Sum.inrₗ v : α ⊕ₗ β) (Sum.inlₗ u) = .gt :=
  ⟨(cmp_eq_lt_iff _ _).mpr (Sum.Lex.inl_lt_inr u v),
    (cmp_eq_gt_iff _ _).mpr (Sum.Lex.inl_lt_inr u v)⟩

/-- Codes are compared by their places. -/
theorem compareCodes_eq (ha : IsCode a) (hb : IsCode b) :
    compareCodes a b = cmp (place a) (place b) := by
  unfold compareCodes
  cases ha with
  | number hx hpresent =>
    cases hb with
    | number hy hpresent' =>
      simp only [hx, hy, place_number hx, place_number hy]
      rw [compareNumbers_eq hpresent hpresent', cmp_inl]
    | text t =>
      rw [hx, place_number hx]
      exact (cmp_inl_inr _ _).1.symm
    | null =>
      rw [hx, place_number hx]
      exact (cmp_inl_inr _ _).1.symm
  | text s =>
    cases hb with
    | number hy hpresent' =>
      rw [hy, place_number hy]
      exact (cmp_inl_inr _ _).2.symm
    | text t =>
      change compare s t = cmp (Sum.inrₗ (Sum.inlₗ s)) (Sum.inrₗ (Sum.inlₗ t))
      rw [cmp_inr, cmp_inl, cmp_eq_compare]
    | null =>
      change Ordering.lt = cmp (Sum.inrₗ (Sum.inlₗ s)) (Sum.inrₗ (Sum.inrₗ ()))
      rw [cmp_inr, (cmp_inl_inr _ _).1]
  | null =>
    cases hb with
    | number hy hpresent' =>
      rw [hy, place_number hy]
      exact (cmp_inl_inr _ _).2.symm
    | text t =>
      change Ordering.gt = cmp (Sum.inrₗ (Sum.inrₗ ())) (Sum.inrₗ (Sum.inlₗ t))
      rw [cmp_inr, (cmp_inl_inr _ _).2]
    | null => exact (cmp_self_eq_eq _).symm

/-- Codes that count as one: the very same, or numbers of one value. -/
def Same (a b : Json) : Prop :=
  a = b ∨ ∃ x y, codeNumber? a = some x ∧ codeNumber? b = some y ∧ (x == y) = true

theorem numberPlace_eq_iff (hx : x ≠ .missing) (hy : y ≠ .missing) :
    numberPlace x = numberPlace y ↔ (x == y) = true ∨ x = y ∧ x.place? = none := by
  unfold numberPlace
  rw [Number.beq_iff]
  cases hu : x.place? with
  | some u =>
    cases hv : y.place? with
    | some v =>
      simp [hx, eq_comm]
    | none => simp [hx]
  | none =>
    cases hv : y.place? with
    | some v =>
      have hne : x ≠ y := by
        rintro rfl
        rw [hu] at hv
        cases hv
      simp [hx, hne]
    | none => simp [Number.eq_of_place_none hu hx, Number.eq_of_place_none hv hy]

theorem eq_of_codeNumber? {z : Float} (ha : codeNumber? a = some (.float z)) :
    a = .number (.float z) := by
  cases a with
  | number n => rw [Option.some.inj ha]
  | bool b => cases ha
  | null | string s | array items | object members => cases ha

/-- Codes count as one if they share their place. -/
theorem same_iff (ha : IsCode a) (hb : IsCode b) : Same a b ↔ place a = place b := by
  constructor
  · intro h
    rcases h with rfl | ⟨x, y, hx, hy, heq⟩
    · rfl
    · rw [place_number hx, place_number hy]
      congr 1
      rcases Number.beq_iff.mp heq with ⟨rfl, rfl⟩ | ⟨u, hu, hv⟩
      · rfl
      · rw [numberPlace, numberPlace, hu, hv]
  · intro h
    cases ha with
    | number hx hpresent =>
      cases hb with
      | number hy hpresent' =>
        rw [place_number hx, place_number hy] at h
        rcases (numberPlace_eq_iff hpresent hpresent').mp (Sum.inl.inj h) with heq | ⟨rfl, hnone⟩
        · exact .inr ⟨_, _, hx, hy, heq⟩
        · rw [Number.eq_of_place_none hnone hpresent] at hx hy
          exact .inl ((eq_of_codeNumber? hx).trans (eq_of_codeNumber? hy).symm)
      | text t =>
        rw [place_number hx] at h
        cases h
      | null =>
        rw [place_number hx] at h
        cases h
    | text s =>
      cases hb with
      | number hy hpresent' =>
        rw [place_number hy] at h
        cases h
      | text t => exact .inl (congrArg Json.string (Sum.inl.inj (Sum.inr.inj h)))
      | null => cases h
    | null =>
      cases hb with
      | number hy hpresent' =>
        rw [place_number hy] at h
        cases h
      | text t => cases h
      | null => exact .inl rfl

def Ascending (codes : List Json) : Prop := codes.Pairwise fun a b => compareCodes a b = .lt

theorem compareCodes_lt (ha : IsCode a) (hb : IsCode b) :
    compareCodes a b = .lt ↔ place a < place b := by
  rw [compareCodes_eq ha hb, cmp_eq_lt_iff]

theorem ascending_iff (h : ∀ c ∈ codes, IsCode c) :
    Ascending codes ↔ codes.Pairwise fun a b => place a < place b := by
  apply List.Pairwise.iff_of_mem
  intro a b ha hb
  exact compareCodes_lt (h a ha) (h b hb)

/-- A new code is put at its place; of codes at one place the first one stays. -/
theorem mem_insertCode (hc : IsCode c) (h : ∀ d ∈ codes, IsCode d) (hcodes : Ascending codes) :
    d ∈ insertCode codes c ↔ d ∈ codes ∨ d = c ∧ ∀ e ∈ codes, place e ≠ place c := by
  rw [ascending_iff h] at hcodes
  induction codes with
  | nil => simp [insertCode]
  | cons e es ih =>
    obtain ⟨hfirst, hothers⟩ := List.pairwise_cons.mp hcodes
    have hbehind := ih (fun d hd => h d (List.mem_cons_of_mem _ hd)) hothers
    rw [insertCode, compareCodes_eq hc (h e List.mem_cons_self)]
    split
    · rename_i hlt
      rw [cmp_eq_lt_iff] at hlt
      have hapart : ∀ a ∈ e :: es, place a ≠ place c := by
        intro a ha
        rcases List.mem_cons.mp ha with rfl | ha
        · exact hlt.ne'
        · exact (hlt.trans (hfirst a ha)).ne'
      rw [List.mem_cons, or_comm, and_iff_left hapart]
    · rename_i heq
      rw [cmp_eq_eq_iff] at heq
      have hmet : ¬ ∀ a ∈ e :: es, place a ≠ place c :=
        fun hall => hall e List.mem_cons_self heq.symm
      rw [or_iff_left fun hd => hmet hd.2]
    · rename_i hgt
      rw [cmp_eq_gt_iff] at hgt
      rw [List.mem_cons, hbehind, List.forall_mem_cons, and_iff_right hgt.ne,
        List.mem_cons, or_assoc]

theorem ascending_insertCode (hc : IsCode c) (h : ∀ d ∈ codes, IsCode d)
    (hcodes : Ascending codes) : Ascending (insertCode codes c) := by
  induction codes with
  | nil => exact List.pairwise_singleton _ _
  | cons e es ih =>
    obtain ⟨hfirst, hothers⟩ := List.pairwise_cons.mp hcodes
    have he : IsCode e := h e List.mem_cons_self
    have hes : ∀ d ∈ es, IsCode d := fun d hd => h d (List.mem_cons_of_mem _ hd)
    rw [insertCode]
    split
    · rename_i hlt
      refine List.pairwise_cons.mpr ⟨fun d hd => ?_, hcodes⟩
      rcases List.mem_cons.mp hd with rfl | hd
      · exact hlt
      · rw [compareCodes_lt hc (hes d hd)]
        exact ((compareCodes_lt hc he).mp hlt).trans
          ((compareCodes_lt he (hes d hd)).mp (hfirst d hd))
    · exact hcodes
    · rename_i hgt
      refine List.pairwise_cons.mpr ⟨fun d hd => ?_, ih hes hothers⟩
      rcases (mem_insertCode hc hes hothers).mp hd with hd | ⟨rfl, -⟩
      · exact hfirst d hd
      · rw [compareCodes_eq hc he, cmp_eq_gt_iff] at hgt
        exact (compareCodes_lt he hc).mpr hgt

/-- A code that is listed, and listed before all that count as one with it. -/
def FirstIn (listed : List Json) (c : Json) : Prop :=
  ∃ before behind, listed = before ++ c :: behind ∧ ∀ d ∈ before, ¬ Same d c

theorem firstIn_append : FirstIn (listed ++ [d]) c ↔
    FirstIn listed c ∨ c = d ∧ ∀ e ∈ listed, ¬ Same e c := by
  constructor
  · intro h
    obtain ⟨before, behind, heq, hfirst⟩ := h
    rcases List.eq_nil_or_concat behind with rfl | ⟨behind, e, rfl⟩
    · obtain ⟨rfl, hlast⟩ := List.append_inj' heq rfl
      exact .inr ⟨(List.cons.inj hlast).1.symm, hfirst⟩
    · rw [List.concat_eq_append, ← List.cons_append, ← List.append_assoc] at heq
      obtain ⟨rfl, -⟩ := List.append_inj' heq rfl
      exact .inl ⟨before, behind, rfl, hfirst⟩
  · intro h
    rcases h with ⟨before, behind, rfl, hfirst⟩ | ⟨rfl, hfirst⟩
    · exact ⟨before, behind ++ [d], by simp, hfirst⟩
    · exact ⟨listed, [], rfl, hfirst⟩

structure IsSetOf (listed codes : List Json) : Prop where
  ascending : Ascending codes
  first : ∀ c, c ∈ codes ↔ FirstIn listed c

theorem FirstIn.mem (h : FirstIn listed c) : c ∈ listed := by
  obtain ⟨before, behind, rfl, -⟩ := h
  simp

theorem IsSetOf.subset (h : IsSetOf listed codes) : ∀ c ∈ codes, c ∈ listed :=
  fun c hc => ((h.first c).mp hc).mem

/-- A place is taken in a set if it is taken in the list. -/
theorem IsSetOf.exists_place (h : IsSetOf listed codes) (hlisted : ∀ c ∈ listed, IsCode c)
    (hd : d ∈ listed) : ∃ c ∈ codes, place c = place d := by
  classical
  have hsome : (listed.find? fun c => place c = place d).isSome = true :=
    List.find?_isSome.mpr ⟨d, hd, by simp⟩
  obtain ⟨c, hc⟩ := Option.isSome_iff_exists.mp hsome
  obtain ⟨hplace, before, behind, rfl, hfirst⟩ := List.find?_eq_some_iff_append.mp hc
  rw [decide_eq_true_eq] at hplace
  refine ⟨c, (h.first c).mpr ⟨before, behind, rfl, fun e he hsame => ?_⟩, hplace⟩
  have hmet := (same_iff (hlisted e (by simp [he])) (hlisted c (by simp))).mp hsame
  simpa [hmet, hplace] using hfirst e he

theorem IsSetOf.insert (h : IsSetOf listed codes) (hlisted : ∀ c ∈ listed, IsCode c)
    (hd : IsCode d) : IsSetOf (listed ++ [d]) (insertCode codes d) := by
  have hcodes : ∀ c ∈ codes, IsCode c := fun c hc => hlisted c (h.subset c hc)
  refine ⟨ascending_insertCode hd hcodes h.ascending, fun c => ?_⟩
  rw [mem_insertCode hd hcodes h.ascending, firstIn_append, h.first]
  refine or_congr_right (and_congr_right fun heq => ?_)
  subst heq
  -- a place is free in the set if it is free in the list
  constructor
  · intro hapart e he hsame
    obtain ⟨a, ha, hplace⟩ := h.exists_place hlisted he
    exact hapart a ha (hplace.trans ((same_iff (hlisted e he) hd).mp hsame))
  · intro hapart e he hplace
    exact hapart e (h.subset e he) ((same_iff (hcodes e he) hd).mpr hplace)

/-- What is listed is put in one code after the other. -/
theorem isSetOf_codeSet (h : ∀ c ∈ listed, IsCode c) : IsSetOf listed (codeSet listed) := by
  induction listed using List.reverseRecOn with
  | nil =>
    refine ⟨.nil, fun c => ?_⟩
    simp [codeSet, FirstIn]
  | append_singleton listed d ih =>
    rw [codeSet, List.foldl_append]
    exact (ih fun c hc => h c (List.mem_append_left _ hc)).insert
      (fun c hc => h c (List.mem_append_left _ hc))
      (h d (by simp))

/-- A list has one set. -/
theorem IsSetOf.unique {codes' : List Json} (hlisted : ∀ c ∈ listed, IsCode c)
    (h : IsSetOf listed codes) (h' : IsSetOf listed codes') : codes = codes' := by
  have hplaced {codes : List Json} (h : IsSetOf listed codes) :
      codes.Pairwise fun a b => place a < place b :=
    (ascending_iff fun c hc => hlisted c (h.subset c hc)).mp h.ascending
  have hasymm : Std.Irrefl fun a b : Json => place a < place b := ⟨fun a => lt_irrefl (place a)⟩
  exact (hplaced h).eq_of_mem_iff (hplaced h') fun c => (h.first c).trans (h'.first c).symm

/-- A set is the set of its own codes. -/
theorem Ascending.isSetOf (h : Ascending codes) (hcodes : ∀ c ∈ codes, IsCode c) :
    IsSetOf codes codes := by
  refine ⟨h, fun c => ⟨fun hc => ?_, FirstIn.mem⟩⟩
  obtain ⟨before, behind, rfl⟩ := List.append_of_mem hc
  refine ⟨before, behind, rfl, fun d hd hsame => ?_⟩
  have hlt := (List.pairwise_append.mp ((ascending_iff hcodes).mp h)).2.2 d hd c List.mem_cons_self
  exact hlt.ne ((same_iff (hcodes d (by simp [hd])) (hcodes c hc)).mp hsame)

end Machining.Profile
