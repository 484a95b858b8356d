import Machining.Proofs.Order
import Machining.Proofs.SignedZero

namespace Machining

abbrev Extended := WithBot (WithTop ℚ)

def Extended.of (q : ℚ) : Extended := ((q : WithTop ℚ) : WithBot (WithTop ℚ))

theorem Extended.of_strictMono : StrictMono Extended.of :=
  WithBot.coe_strictMono.comp WithTop.coe_strictMono

def Extended.limit : Float.Model.UnpackedFloat.Sign → Extended
  | .negative => ⊥
  | .positive => ⊤

theorem Extended.limit_negative_lt (q : ℚ) : Extended.limit .negative < Extended.of q :=
  WithBot.bot_lt_coe _

theorem Extended.lt_limit_positive (q : ℚ) : Extended.of q < Extended.limit .positive :=
  WithBot.coe_lt_coe.mpr (WithTop.coe_lt_top q)

namespace Binary64
open Float.Model UnpackedFloat

theorem compare_swap (u v : UnpackedFloat) : v.compare u = (u.compare v).map Ordering.swap := by
  cases u with
  | notANumber => cases v <;> rfl
  | infinity s =>
    cases v with
    | infinity s' => cases s <;> cases s' <;> rfl
    | notANumber | zero _ | finite _ _ _ _ => cases s <;> rfl
  | zero s =>
    cases v with
    | notANumber | zero _ => rfl
    | infinity s' | finite s' _ _ _ => cases s' <;> rfl
  | finite s m e hm =>
    cases v with
    | notANumber | zero _ => cases s <;> rfl
    | infinity s' => cases s <;> cases s' <;> rfl
    | finite s' m' e' hm' =>
      have hswap : (compare e' e).then (compare m' m) =
          ((compare e e').then (compare m m')).swap := by
        rw [Ordering.swap_then, Int.compare_swap, Nat.compare_swap]
      cases s <;> cases s' <;> simp [UnpackedFloat.compare, hswap]

/-- Only zeros are equal without being the same. -/
theorem eq_of_compare {u v : UnpackedFloat} (h : u.compare v = some .eq) :
    u = v ∨ (∃ s, u = .zero s) ∧ ∃ s, v = .zero s := by
  cases u with
  | notANumber => cases v <;> cases h
  | infinity s =>
    cases v with
    | infinity s' => cases s <;> cases s' <;> simp_all [UnpackedFloat.compare]
    | notANumber | zero _ | finite _ _ _ _ => cases s <;> cases h
  | zero s =>
    cases v with
    | zero s' => exact .inr ⟨⟨s, rfl⟩, s', rfl⟩
    | notANumber => cases h
    | infinity s' | finite s' _ _ _ => cases s' <;> cases h
  | finite s m e hm =>
    cases v with
    | finite s' m' e' hm' => cases s <;> cases s' <;> simp_all [UnpackedFloat.compare]
    | notANumber | zero _ => cases s <;> cases h
    | infinity s' => cases s <;> cases s' <;> cases h

end Binary64

namespace Number
variable {a b c : Number} {x y : Float} {u v : Extended}

theorem compare?_unpack (x y : Float) :
    compare? (float x) (float y) = x.toModel.unpack.compare y.toModel.unpack := by
  have hswap := Binary64.compare_swap x.toModel.unpack y.toModel.unpack
  have heq : (x == y) = x.toModel.unpack.beq y.toModel.unpack := rfl
  simp only [compare?, Binary64.lt_iff, heq, Float.Model.UnpackedFloat.lt,
    Float.Model.UnpackedFloat.beq, hswap]
  cases x.toModel.unpack.compare y.toModel.unpack with
  | none => rfl
  | some o => cases o <;> rfl

/-- The place of a number; what is no number has none. -/
def place? : Number → Option Extended
  | float x => if x.isInf then some (if x < 0.0 then ⊥ else ⊤) else (float x).value?.map Extended.of
  | a => a.value?.map Extended.of

/-- A place is that of an exact value, or one of the ends. -/
theorem place?_eq_some (h : a.place? = some u) :
    (∃ q, a.value? = some q ∧ u = .of q) ∨
      ∃ x s, a = float x ∧ x.toModel.unpack = .infinity s ∧ u = .limit s := by
  cases a with
  | int n => exact .inl ⟨n, rfl, (Option.some.inj h).symm⟩
  | missing => cases h
  | float x =>
    have hinf : x.isInf = x.toModel.unpack.isInf := rfl
    simp only [place?, hinf, Binary64.lt_iff] at h
    cases hu : x.toModel.unpack with
    | infinity s =>
      rw [hu] at h
      refine .inr ⟨x, s, rfl, hu, ?_⟩
      cases s <;> exact (Option.some.inj h).symm
    | notANumber | zero _ | finite _ _ _ _ =>
      rw [hu] at h
      obtain ⟨q, hq, rfl⟩ := Option.map_eq_some_iff.mp h
      exact .inl ⟨q, hq, rfl⟩

/-- An end is beyond every exact value. -/
theorem compare?_infinite {q : ℚ} {s : Float.Model.UnpackedFloat.Sign} (ha : a.value? = some q)
    (hx : x.toModel.unpack = .infinity s) :
    compare? a (float x) = some (cmp (Extended.of q) (.limit s)) ∧
      compare? (float x) a = some (cmp (Extended.limit s) (.of q)) := by
  have hcompare : compare? a (float x) = Float.Model.UnpackedFloat.compare (.zero .positive)
      (.infinity s) ∧
      compare? (float x) a = Float.Model.UnpackedFloat.compare (.infinity s) (.zero .positive) := by
    cases a with
    | missing => cases ha
    | int n =>
      have hnan : x.isNaN = false := congrArg Float.Model.UnpackedFloat.isNaN hx
      have hinf : x.isInf = true := congrArg Float.Model.UnpackedFloat.isInf hx
      simp only [compare?, hnan, hinf, Binary64.lt_iff, hx, Bool.false_eq_true, if_false, if_true]
      cases s <;> exact ⟨rfl, rfl⟩
    | float y =>
      have hy : y.toModel.unpack.isFinite = true := (value?_float ha).1
      rw [compare?_unpack, compare?_unpack, hx]
      cases hu : y.toModel.unpack with
      | notANumber | infinity _ =>
        rw [hu] at hy
        cases hy
      | zero _ | finite _ _ _ _ => cases s <;> exact ⟨rfl, rfl⟩
  rw [hcompare.1, hcompare.2]
  cases s with
  | negative =>
    rw [(Extended.limit_negative_lt q).cmp_eq_gt, (Extended.limit_negative_lt q).cmp_eq_lt]
    exact ⟨rfl, rfl⟩
  | positive =>
    rw [(Extended.lt_limit_positive q).cmp_eq_gt, (Extended.lt_limit_positive q).cmp_eq_lt]
    exact ⟨rfl, rfl⟩

/-- Numbers compare as their places do. -/
theorem compare?_place (ha : a.place? = some u) (hb : b.place? = some v) :
    compare? a b = some (cmp u v) := by
  rcases place?_eq_some ha with ⟨p, hp, rfl⟩ | ⟨x, s, rfl, hx, rfl⟩
  · rcases place?_eq_some hb with ⟨q, hq, rfl⟩ | ⟨y, s', rfl, hy, rfl⟩
    · rw [compare?_value hp hq, Extended.of_strictMono.cmp_map_eq]
    · exact (compare?_infinite hp hy).1
  · rcases place?_eq_some hb with ⟨q, hq, rfl⟩ | ⟨y, s', rfl, hy, rfl⟩
    · exact (compare?_infinite hq hx).2
    · rw [compare?_unpack, hx, hy]
      cases s <;> cases s' <;> rfl

theorem unpack_of_place_none (h : (float x).place? = none) : x.toModel.unpack = .notANumber := by
  have hinf : x.isInf = x.toModel.unpack.isInf := rfl
  have hfinite : x.isFinite = x.toModel.unpack.isFinite := rfl
  simp only [place?, value?, hinf, hfinite] at h
  cases hu : x.toModel.unpack with
  | notANumber => rfl
  | infinity _ | zero _ | finite _ _ _ _ =>
    rw [hu] at h
    cases h

/-- One number has no place, the missing one apart. -/
theorem eq_of_place_none (h : a.place? = none) (present : a ≠ missing) :
    a = float ⟨Float.Model.pack .notANumber⟩ := by
  cases a with
  | int n => cases h
  | missing => exact absurd rfl present
  | float x => rw [Binary64.eq_of_unpack (unpack_of_place_none h)]

/-- What has no place does not compare. -/
theorem compare?_of_place_none (h : a.place? = none) :
    compare? a b = none ∧ compare? b a = none := by
  cases a with
  | int n => cases h
  | missing => cases b <;> exact ⟨rfl, rfl⟩
  | float x =>
    have hu := unpack_of_place_none h
    cases b with
    | missing => exact ⟨rfl, rfl⟩
    | int n =>
      have hnan : x.isNaN = true := Binary64.unpack_of_isNaN.mpr hu
      simp only [compare?, hnan, if_true, and_self]
    | float y =>
      rw [compare?_unpack, compare?_unpack, hu]
      cases y.toModel.unpack <;> exact ⟨rfl, rfl⟩

/-- Numbers are equal if they stand at one place. -/
theorem beq_iff : (a == b) = true ↔
    (a = missing ∧ b = missing) ∨ ∃ u, a.place? = some u ∧ b.place? = some u := by
  have hbeq : (a == b) = true ↔ (a = missing ∧ b = missing) ∨ compare? a b = some .eq := by
    rw [← @beq_iff_eq _ _ _ (compare? a b)]
    cases a with
    | missing =>
      cases b with
      | missing => exact ⟨fun _ => .inl ⟨rfl, rfl⟩, fun _ => rfl⟩
      | int _ | float _ => exact ⟨.inr, fun h => h.resolve_left nofun⟩
    | int _ | float _ => cases b <;> exact ⟨.inr, fun h => h.resolve_left nofun⟩
  rw [hbeq]
  refine or_congr_right ⟨fun h => ?_, fun ⟨u, ha, hb⟩ => ?_⟩
  · cases ha : a.place? with
    | none =>
      rw [(compare?_of_place_none ha).1] at h
      cases h
    | some u =>
      cases hb : b.place? with
      | none =>
        rw [(compare?_of_place_none hb).2] at h
        cases h
      | some v =>
        rw [compare?_place ha hb, Option.some.injEq, cmp_eq_eq_iff] at h
        exact ⟨v, congrArg some h, rfl⟩
  · rw [compare?_place ha hb, cmp_self_eq_eq]

instance : PartialEquivBEq Number where
  symm h := by
    rw [beq_iff] at h ⊢
    exact h.imp And.symm fun ⟨u, ha, hb⟩ => ⟨u, hb, ha⟩
  trans h k := by
    rw [beq_iff] at h k ⊢
    rcases h with ⟨rfl, rfl⟩ | ⟨u, ha, hb⟩
    · rcases k with ⟨-, rfl⟩ | ⟨v, hb, -⟩
      · exact .inl ⟨rfl, rfl⟩
      · cases hb
    · rcases k with ⟨rfl, -⟩ | ⟨v, hb', hc⟩
      · cases hb
      · exact .inr ⟨u, ha, by rw [hc, ← hb', hb]⟩

theorem place?_of_beq_self {x : Float} (h : (float x == float x) = true) :
    ∃ u, (float x).place? = some u := by
  rcases beq_iff.mp h with ⟨hmissing, -⟩ | ⟨u, hu, -⟩
  · cases hmissing
  · exact ⟨u, hu⟩

def level (x : Number) : Extended := x.place?.getD ⊥

/-- Numbers with places are in the order of these. -/
theorem ranked_level {xs : List Number} (h : ∀ x ∈ xs, ∃ u, x.place? = some u) :
    Ranked level xs := by
  have hpresent (x : Number) (u : Extended) (hu : x.place? = some u) : x ≠ missing := by
    rintro rfl
    cases hu
  intro x hx y hy
  obtain ⟨u, hu⟩ := h x hx
  obtain ⟨v, hv⟩ := h y hy
  rw [holds_lt (hpresent x u hu) (hpresent y v hv), compare?_place hu hv, level, level, hu, hv,
    Option.getD_some, Option.getD_some, Except.ok.injEq, Bool.eq_iff_iff, beq_iff_eq,
    Option.some.injEq, cmp_eq_lt_iff,
    decide_eq_true_iff]

theorem level_eq_iff {u : Extended} (ha : a.place? = some u) (hb : b.place? = some v) :
    a.level = b.level ↔ (a == b) = true := by
  rw [level, level, ha, hb, Option.getD_some, Option.getD_some, beq_iff, ha, hb]
  constructor
  · rintro rfl
    exact .inr ⟨u, rfl, rfl⟩
  · rintro (⟨rfl, -⟩ | ⟨w, hu, hv⟩)
    · cases ha
    · rw [Option.some.inj hu, Option.some.inj hv]

structure Different (xs : List Number) : Prop where
  placed : ∀ x ∈ xs, ∃ u, x.place? = some u
  apart : xs.Pairwise fun a c => (a == c) = false

/-- Different numbers, the same on both sides up to their order and spelling. -/
structure Matched (xs ys : List Number) : Prop where
  left : Different xs
  right : Different ys
  leads : ∀ x ∈ xs, ∃ y ∈ ys, (y == x) = true
  back : ∀ y ∈ ys, ∃ x ∈ xs, (x == y) = true

variable {xs ys : List Number}

theorem Different.nodup (h : Different xs) : (xs.map level).Nodup := by
  rw [List.Nodup, List.pairwise_map]
  refine h.apart.imp_of_mem fun {a c} ha hc hne heq => ?_
  obtain ⟨u, hu⟩ := h.placed a ha
  obtain ⟨v, hv⟩ := h.placed c hc
  rw [(level_eq_iff hu hv).mp heq] at hne
  cases hne

theorem Matched.symm (h : Matched xs ys) : Matched ys xs := ⟨h.right, h.left, h.back, h.leads⟩

theorem Matched.level_mem (h : Matched xs ys) {u : Extended} (hu : u ∈ xs.map level) :
    u ∈ ys.map level := by
  obtain ⟨x, hx, rfl⟩ := List.mem_map.mp hu
  obtain ⟨y, hy, heq⟩ := h.leads x hx
  obtain ⟨p, hp⟩ := h.left.placed x hx
  obtain ⟨q, hq⟩ := h.right.placed y hy
  exact List.mem_map.mpr ⟨y, hy, (level_eq_iff hq hp).mpr heq⟩

theorem Matched.levels_perm (h : Matched xs ys) : (xs.map level).Perm (ys.map level) :=
  (List.perm_ext_iff_of_nodup h.left.nodup h.right.nodup).mpr fun _ => ⟨h.level_mem,
    h.symm.level_mem⟩

theorem Matched.length_eq (h : Matched xs ys) : ys.length = xs.length := by
  simpa using h.levels_perm.length_eq.symm

/-- In order, matched numbers are equal one by one. -/
theorem Matched.sort (h : Matched xs ys) :
    ∃ zs ws, Number.sort xs = .ok zs ∧ Number.sort ys = .ok ws ∧
      List.Forall₂ (fun a c => a ∈ xs ∧ c ∈ ys ∧ (a == c) = true) zs ws := by
  obtain ⟨zs, hzs, hzorder⟩ := sort_ranked (ranked_level h.left.placed)
  obtain ⟨ws, hws, hworder⟩ := sort_ranked (ranked_level h.right.placed)
  refine ⟨zs, ws, hzs, hws, ?_⟩
  have hlevels : zs.map level = ws.map level := by
    have hperm := ((hzorder.perm.map level).trans h.levels_perm).trans (hworder.perm.map level).symm
    exact hperm.eq_of_pairwise (fun a b _ _ hab hba => le_antisymm hab hba)
      (List.pairwise_map.mpr hzorder.ascending) (List.pairwise_map.mpr hworder.ascending)
  have hsame : List.Forall₂ (fun a c => a.level = c.level) zs ws := by
    rw [← List.forall₂_map_right_iff, ← List.forall₂_map_left_iff, List.forall₂_eq_eq_eq, hlevels]
  have hleft := (List.forall₂_and_left zs ws).mpr ⟨fun z hz => hzorder.perm.subset hz, hsame⟩
  have hboth := (List.forall₂_and_left ws zs).mpr ⟨fun w hw => hworder.perm.subset hw, hleft.flip⟩
  refine hboth.flip.imp fun a c hac => ?_
  obtain ⟨hc, ha, heq⟩ := hac
  obtain ⟨u, hu⟩ := h.left.placed a ha
  obtain ⟨v, hv⟩ := h.right.placed c hc
  exact ⟨ha, hc, (level_eq_iff hu hv).mp heq⟩

/-- Equal binary64 values are encoded alike, but for the zeros. -/
theorem float_beq_cases {x y : Float} (h : (float x == float y) = true) :
    x = y ∨ (float x == int 0) = true ∧ (float y == int 0) = true := by
  have hzero (z : Float) (hz : ∃ s, z.toModel.unpack = .zero s) : (float z == int 0) = true := by
    obtain ⟨s, hs⟩ := hz
    rcases Binary64.isZero_of_unpack hs with rfl | rfl <;> decide +kernel
  have hcompare : x.toModel.unpack.compare y.toModel.unpack = some .eq := by
    rw [← compare?_unpack]
    exact eq_of_beq h
  rcases Binary64.eq_of_compare hcompare with heq | ⟨hx, hy⟩
  · exact .inl ((Binary64.eq_of_unpack heq).trans (Binary64.eq_of_unpack rfl).symm)
  · exact .inr ⟨hzero x hx, hzero y hy⟩

end Number
end Machining
