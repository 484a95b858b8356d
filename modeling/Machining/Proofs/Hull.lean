import Machining.Proofs.Extended
import Machining.Proofs.SinglePass

namespace Machining

inductive Coordinate where
  | x | y | z
  deriving DecidableEq, Repr

namespace Point
variable {α : Type}

def get (p : Point α) : Coordinate → α
  | .x => p.x
  | .y => p.y
  | .z => p.z

def ofFn (f : Coordinate → α) : Point α := ⟨f .x, f .y, f .z⟩

@[simp] theorem get_ofFn (f : Coordinate → α) (i : Coordinate) : (ofFn f).get i = f i := by
  cases i <;> rfl

/-- Points are combined where all coordinates are. -/
theorem combine_ofFn {f : α → α → Except Fault α} {p q : Point α} {r : Coordinate → α}
    (h : ∀ i, f (p.get i) (q.get i) = .ok (r i)) : p.combine f q = .ok (.ofFn r) := by
  have hx : f p.x q.x = .ok (r .x) := h .x
  have hy : f p.y q.y = .ok (r .y) := h .y
  have hz : f p.z q.z = .ok (r .z) := h .z
  simp only [combine, hx, hy, hz, bind, Except.bind, pure, Except.pure, ofFn]

end Point

namespace Number
variable {a b v : Number}

/-- A number that compares with every other such number: it is there, and it is not the value that
is no number. -/
structure Ordered (v : Number) : Prop where
  given : v.Given
  number : ∀ x, v = .float x → x.isNaN = false

theorem Ordered.float {x : Float} (h : x.isNaN = false) : (Number.float x).Ordered := by
  constructor
  · intro hmissing
    cases hmissing
  · rintro y ⟨⟩
    exact h

theorem Ordered.place? (h : v.Ordered) : v.place? = some v.level := by
  have hplaced : ∃ u, v.place? = some u := by
    cases v with
    | missing => exact absurd rfl h.given
    | int n => exact ⟨_, rfl⟩
    | float x => exact place?_of_beq_self (float_beq_self (h.number x rfl))
  obtain ⟨u, hu⟩ := hplaced
  rw [level, hu, Option.getD_some]

theorem Ordered.compare? (ha : a.Ordered) (hb : b.Ordered) :
    compare? a b = some (cmp a.level b.level) :=
  compare?_place ha.place? hb.place?

theorem Ordered.beq_iff (ha : a.Ordered) (hb : b.Ordered) : (a == b) = true ↔ a.level = b.level :=
  (level_eq_iff ha.place? hb.place?).symm

theorem holds_le_gt (ha : a.Given) (hb : b.Given) :
    a.holds .le b = .ok (compare? a b == some .lt || compare? a b == some .eq) ∧
      a.holds .gt b = .ok (compare? a b == some .gt) := by
  cases a with
  | missing => exact absurd rfl ha
  | int | float =>
    cases b with
    | missing => exact absurd rfl hb
    | int | float => exact ⟨rfl, rfl⟩

theorem Ordered.le_iff (ha : a.Ordered) (hb : b.Ordered) :
    a.holds .le b = .ok true ↔ a.level ≤ b.level := by
  rw [(holds_le_gt ha.given hb.given).1, ha.compare? hb, Except.ok.injEq, Bool.or_eq_true,
    beq_iff_eq, beq_iff_eq, Option.some.injEq, Option.some.injEq, cmp_eq_lt_iff, cmp_eq_eq_iff,
    le_iff_lt_or_eq]

def pick (o : Ordering) (a b : Number) : Number := if compare? b a = some o then b else a

theorem pick_cases (o : Ordering) (a b : Number) : pick o a b = a ∨ pick o a b = b := by
  unfold pick
  split
  · exact .inr rfl
  · exact .inl rfl

theorem least_given (ha : a.Given) (hb : b.Given) : Scalar.least a b = .ok (pick .lt a b) := by
  have h : Scalar.holds .lt b a = .ok (compare? b a == some .lt) := holds_lt hb ha
  simp only [Scalar.least, h, bind, Except.bind, pure, Except.pure, pick, beq_iff_eq]

theorem greatest_given (ha : a.Given) (hb : b.Given) :
    Scalar.greatest a b = .ok (pick .gt a b) := by
  have h : Scalar.holds .gt b a = .ok (compare? b a == some .gt) := (holds_le_gt hb ha).2
  simp only [Scalar.greatest, h, bind, Except.bind, pure, Except.pure, pick, beq_iff_eq]

theorem level_pick_lt (ha : a.Ordered) (hb : b.Ordered) :
    (pick .lt a b).level = min a.level b.level := by
  simp only [pick, hb.compare? ha, Option.some.injEq, cmp_eq_lt_iff]
  split
  · rename_i hlt
    exact (min_eq_right hlt.le).symm
  · rename_i hle
    exact (min_eq_left (not_lt.mp hle)).symm

theorem level_pick_gt (ha : a.Ordered) (hb : b.Ordered) :
    (pick .gt a b).level = max a.level b.level := by
  simp only [pick, hb.compare? ha, Option.some.injEq, cmp_eq_gt_iff]
  split
  · rename_i hlt
    exact (max_eq_right hlt.le).symm
  · rename_i hle
    exact (max_eq_left (not_lt.mp hle)).symm

end Number

namespace Box
variable {b c : Box Number} {p : Point Number} {ps qs : List (Point Number)} {P : Number → Prop}
    {i : Coordinate}

def ofPoint (p : Point Number) : Box Number := ⟨p, p⟩

/-- A box turned inside out, which holds nothing. -/
def inverted : Box Number :=
  ⟨.ofFn fun _ => .float Binary64.posInf, .ofFn fun _ => .float Binary64.negInf⟩

def grown (b : Box Number) (p : Point Number) : Box Number :=
  ⟨.ofFn fun i => .pick .lt (b.low.get i) (p.get i),
    .ofFn fun i => .pick .gt (b.high.get i) (p.get i)⟩

structure All (P : Number → Prop) (b : Box Number) : Prop where
  low : ∀ i, P (b.low.get i)
  high : ∀ i, P (b.high.get i)

/-- Growing takes no coordinates but those there are. -/
theorem grown_cases (b : Box Number) (p : Point Number) (i : Coordinate) :
    ((b.grown p).low.get i = b.low.get i ∨ (b.grown p).low.get i = p.get i) ∧
      ((b.grown p).high.get i = b.high.get i ∨ (b.grown p).high.get i = p.get i) := by
  rw [grown, Point.get_ofFn, Point.get_ofFn]
  exact ⟨Number.pick_cases _ _ _, Number.pick_cases _ _ _⟩

theorem All.grown (h : b.All P) (hp : ∀ i, P (p.get i)) : (b.grown p).All P := by
  constructor
  · intro i
    rcases (grown_cases b p i).1 with heq | heq <;> rw [heq]
    · exact h.low i
    · exact hp i
  · intro i
    rcases (grown_cases b p i).2 with heq | heq <;> rw [heq]
    · exact h.high i
    · exact hp i

theorem All.foldl_grown (h : b.All P) (hps : ∀ p ∈ ps, ∀ i, P (p.get i)) :
    (ps.foldl Box.grown b).All P := by
  induction ps generalizing b with
  | nil => exact h
  | cons p ps ih =>
    exact ih (h.grown (hps p List.mem_cons_self)) fun q hq => hps q (List.mem_cons_of_mem p hq)

theorem All.add (h : b.All Number.Given) (hp : ∀ i, (p.get i).Given) :
    b.add p = .ok (b.grown p) := by
  rw [Box.add, Point.combine_ofFn fun i => Number.least_given (h.low i) (hp i),
    Point.combine_ofFn fun i => Number.greatest_given (h.high i) (hp i)]
  rfl

/-- Around given numbers there is always a box. -/
theorem All.addAll (h : b.All Number.Given) (hps : ∀ p ∈ ps, ∀ i, (p.get i).Given) :
    b.addAll ps = .ok (ps.foldl Box.grown b) := by
  induction ps generalizing b with
  | nil => rfl
  | cons p ps ih =>
    have hp := hps p List.mem_cons_self
    rw [Box.addAll, h.add hp]
    exact ih (h.grown hp) fun q hq => hps q (List.mem_cons_of_mem p hq)

/-- A corner coordinate that is not where it was comes from a point. -/
theorem foldl_grown_cases (b : Box Number) (ps : List (Point Number)) (i : Coordinate) :
    ((ps.foldl grown b).low.get i = b.low.get i ∨ ∃ p ∈ ps,
      (ps.foldl grown b).low.get i = p.get i) ∧
      ((ps.foldl grown b).high.get i = b.high.get i ∨ ∃ p ∈ ps,
        (ps.foldl grown b).high.get i = p.get i) := by
  induction ps generalizing b with
  | nil => exact ⟨.inl rfl, .inl rfl⟩
  | cons p ps ih =>
    obtain ⟨hlow, hhigh⟩ := ih (b.grown p)
    obtain ⟨hfirst, hlast⟩ := grown_cases b p i
    rw [List.foldl_cons]
    constructor
    · rcases hlow with hlow | ⟨q, hq, hlow⟩
      · rw [hlow]
        exact hfirst.imp_right fun heq => ⟨p, List.mem_cons_self, heq⟩
      · exact .inr ⟨q, List.mem_cons_of_mem p hq, hlow⟩
    · rcases hhigh with hhigh | ⟨q, hq, hhigh⟩
      · rw [hhigh]
        exact hlast.imp_right fun heq => ⟨p, List.mem_cons_self, heq⟩
      · exact .inr ⟨q, List.mem_cons_of_mem p hq, hhigh⟩

structure Covers (b c : Box Number) : Prop where
  low : ∀ i, (b.low.get i).level ≤ (c.low.get i).level
  high : ∀ i, (c.high.get i).level ≤ (b.high.get i).level

theorem Covers.refl (b : Box Number) : b.Covers b := ⟨fun _ => le_rfl, fun _ => le_rfl⟩

theorem Covers.trans {d : Box Number} (h : b.Covers c) (h' : c.Covers d) : b.Covers d :=
  ⟨fun i => (h.low i).trans (h'.low i), fun i => (h'.high i).trans (h.high i)⟩

theorem grown_covers (hb : b.All Number.Ordered) (hp : ∀ i, (p.get i).Ordered) :
    (b.grown p).Covers b ∧ (b.grown p).Covers (ofPoint p) := by
  have hlow : ∀ i, ((b.grown p).low.get i).level = min (b.low.get i).level (p.get i).level := by
    intro i
    rw [grown, Point.get_ofFn, Number.level_pick_lt (hb.low i) (hp i)]
  have hhigh : ∀ i, ((b.grown p).high.get i).level = max (b.high.get i).level (p.get i).level := by
    intro i
    rw [grown, Point.get_ofFn, Number.level_pick_gt (hb.high i) (hp i)]
  refine ⟨⟨fun i => ?_, fun i => ?_⟩, ⟨fun i => ?_, fun i => ?_⟩⟩
  · rw [hlow]
    exact min_le_left _ _
  · rw [hhigh]
    exact le_max_left _ _
  · rw [hlow]
    exact min_le_right _ _
  · rw [hhigh]
    exact le_max_right _ _

/-- However many points a box grows by, it holds them and what it held before. -/
theorem foldl_grown_covers (hb : b.All Number.Ordered) (hps : ∀ p ∈ ps, ∀ i, (p.get i).Ordered) :
    (ps.foldl grown b).Covers b ∧ ∀ p ∈ ps, (ps.foldl grown b).Covers (ofPoint p) := by
  induction ps generalizing b with
  | nil => exact ⟨.refl b, fun p hp => absurd hp List.not_mem_nil⟩
  | cons p ps ih =>
    have hp := hps p List.mem_cons_self
    obtain ⟨hbefore, hpoint⟩ := grown_covers hb hp
    obtain ⟨hgrown, hrest⟩ := ih (hb.grown hp) fun q hq => hps q (List.mem_cons_of_mem p hq)
    refine ⟨hgrown.trans hbefore, fun q hq => ?_⟩
    rcases List.mem_cons.mp hq with rfl | hq
    · exact hgrown.trans hpoint
    · exact hrest q hq

theorem inverted_ordered : inverted.All Number.Ordered := by
  constructor
  · intro i
    rw [inverted, Point.get_ofFn]
    exact .float (by decide)
  · intro i
    rw [inverted, Point.get_ofFn]
    exact .float (by decide)

theorem level_inverted (i : Coordinate) :
    (inverted.low.get i).level = ⊤ ∧ (inverted.high.get i).level = ⊥ := by
  rw [inverted, Point.get_ofFn, Point.get_ofFn]
  have hinf : Binary64.posInf.isInf = true ∧ Binary64.negInf.isInf = true := by decide
  have hsign : ¬ Binary64.posInf < 0.0 ∧ Binary64.negInf < 0.0 := by decide
  simp [Number.level, Number.place?, hinf, hsign]

def around (ps : List (Point Number)) : Box Number := ps.foldl grown inverted

theorem around_ordered (hps : ∀ p ∈ ps, ∀ i, (p.get i).Ordered) : (around ps).All Number.Ordered :=
  inverted_ordered.foldl_grown hps

/-- Every corner coordinate of the box is one of a point. -/
theorem around_attained (hne : ps ≠ []) (hps : ∀ p ∈ ps, ∀ i, (p.get i).Ordered) (i : Coordinate) :
    (∃ p ∈ ps, (p.get i).level = ((around ps).low.get i).level) ∧
      ∃ p ∈ ps, (p.get i).level = ((around ps).high.get i).level := by
  obtain ⟨q, hq⟩ := List.exists_mem_of_ne_nil ps hne
  have hholds := (foldl_grown_covers inverted_ordered hps).2 q hq
  obtain ⟨hlow, hhigh⟩ := foldl_grown_cases inverted ps i
  obtain ⟨htop, hbot⟩ := level_inverted i
  constructor
  · rcases hlow with heq | ⟨p, hp, heq⟩
    · -- a corner that is still at the end of all numbers has every point there
      have hle := hholds.low i
      rw [heq, htop, top_le_iff] at hle
      exact ⟨q, hq, by rw [around, heq, htop]; exact hle⟩
    · exact ⟨p, hp, by rw [around, heq]⟩
  · rcases hhigh with heq | ⟨p, hp, heq⟩
    · have hle := hholds.high i
      rw [heq, hbot, le_bot_iff] at hle
      exact ⟨q, hq, by rw [around, heq, hbot]; exact hle⟩
    · exact ⟨p, hp, by rw [around, heq]⟩

/-- More points never make the box smaller. -/
theorem around_mono (hne : ps ≠ []) (hqs : ∀ q ∈ qs, ∀ i, (q.get i).Ordered) (hsub : ps ⊆ qs) :
    (around qs).Covers (around ps) := by
  have hholds := (foldl_grown_covers inverted_ordered hqs).2
  have hattained := around_attained hne fun p hp => hqs p (hsub hp)
  constructor
  · intro i
    obtain ⟨p, hp, heq⟩ := (hattained i).1
    rw [← heq]
    exact (hholds p (hsub hp)).low i
  · intro i
    obtain ⟨p, hp, heq⟩ := (hattained i).2
    rw [← heq]
    exact (hholds p (hsub hp)).high i

/-- A box lies within another: no coordinate of it is beyond the other's corners. -/
structure Within (b c : Box Number) : Prop where
  low : ∀ i, (c.low.get i).holds .le (b.low.get i) = .ok true
  high : ∀ i, (b.high.get i).holds .le (c.high.get i) = .ok true

/-- The same box, whatever its coordinates are spelled as. -/
structure Same (b c : Box Number) : Prop where
  low : ∀ i, (b.low.get i == c.low.get i) = true
  high : ∀ i, (b.high.get i == c.high.get i) = true

theorem Covers.within (h : c.Covers b) (hb : b.All Number.Ordered)
    (hc : c.All Number.Ordered) : b.Within c :=
  ⟨fun i => ((hc.low i).le_iff (hb.low i)).mpr (h.low i),
    fun i => ((hb.high i).le_iff (hc.high i)).mpr (h.high i)⟩

theorem Covers.same (h : b.Covers c) (h' : c.Covers b) (hb : b.All Number.Ordered)
    (hc : c.All Number.Ordered) : b.Same c :=
  ⟨fun i => ((hb.low i).beq_iff (hc.low i)).mpr ((h.low i).antisymm (h'.low i)),
    fun i => ((hb.high i).beq_iff (hc.high i)).mpr ((h'.high i).antisymm (h.high i))⟩

end Box

namespace Toolpath
variable {t : Toolpath Number}

/-- Around segments whose coordinates are given there is a box. -/
theorem box_eq (hne : t.segments ≠ []) (h : ∀ p ∈ t.ends, ∀ i, (p.get i).Given) :
    t.box = .ok (Box.around t.ends) := by
  have hstart : Box.inverted.All Number.Given :=
    ⟨fun i => (Box.inverted_ordered.low i).given, fun i => (Box.inverted_ordered.high i).given⟩
  rw [box, if_neg (by simpa using hne)]
  exact hstart.addAll h

theorem ends_subset {t' : Toolpath Number} (h : t.segments ⊆ t'.segments) : t.ends ⊆ t'.ends := by
  intro p hp
  obtain ⟨s, hs, hp⟩ := List.mem_flatMap.mp hp
  exact List.mem_flatMap.mpr ⟨s, h hs, hp⟩

theorem ends_ne_nil (h : t.segments ≠ []) : t.ends ≠ [] := by
  obtain ⟨s, hs⟩ := List.exists_mem_of_ne_nil _ h
  exact List.ne_nil_of_mem (List.mem_flatMap.mpr ⟨s, hs, List.mem_cons_self⟩)

/-- The box around segments whose coordinates compare is their hull: it holds both ends of every
segment, and each of its corner coordinates is one of an end. In whatever order the segments are, it
is the same box, and with more segments it is no smaller. -/
theorem box_hull (hne : t.segments ≠ []) (h : ∀ p ∈ t.ends, ∀ i, (p.get i).Ordered) :
    ∃ b, t.box = .ok b ∧ (∀ p ∈ t.ends, (Box.ofPoint p).Within b) ∧
      (∀ i, (∃ p ∈ t.ends, (p.get i == b.low.get i) = true) ∧ ∃ p ∈ t.ends,
        (p.get i == b.high.get i) = true) ∧
      (∀ t' : Toolpath Number, t'.segments.Perm t.segments → ∃ b', t'.box = .ok b' ∧ b'.Same b) ∧
      ∀ t' : Toolpath Number, t.segments ⊆ t'.segments → (∀ p ∈ t'.ends, ∀ i, (p.get i).Ordered) →
        ∃ b', t'.box = .ok b' ∧ b.Within b' := by
  have hordered := Box.around_ordered h
  have hends := ends_ne_nil hne
  refine ⟨_, box_eq hne fun p hp i => (h p hp i).given, fun p hp => ?_, fun i => ?_,
    fun t' hperm => ?_, fun t' hsub h' => ?_⟩
  · exact ((Box.foldl_grown_covers Box.inverted_ordered h).2 p hp).within ⟨h p hp, h p hp⟩ hordered
  · obtain ⟨⟨p, hp, hlow⟩, q, hq, hhigh⟩ := Box.around_attained hends h i
    exact ⟨⟨p, hp, ((h p hp i).beq_iff (hordered.low i)).mpr hlow⟩,
      q, hq, ((h q hq i).beq_iff (hordered.high i)).mpr hhigh⟩
  · have hsub : t'.ends ⊆ t.ends := ends_subset hperm.subset
    have h' : ∀ p ∈ t'.ends, ∀ i, (p.get i).Ordered := fun p hp => h p (hsub hp)
    have hne' : t'.segments ≠ [] := fun hnil => hne (by simpa [hnil] using hperm)
    refine ⟨_, box_eq hne' fun p hp i => (h' p hp i).given, ?_⟩
    exact (Box.around_mono hends h' (ends_subset hperm.symm.subset)).same
      (Box.around_mono (ends_ne_nil hne') h hsub) (Box.around_ordered h') hordered
  · have hne' : t'.segments ≠ [] := fun hnil => hne (List.subset_nil.mp (hnil ▸ hsub))
    refine ⟨_, box_eq hne' fun p hp i => (h' p hp i).given, ?_⟩
    exact (Box.around_mono hends h' (ends_subset hsub)).within hordered (Box.around_ordered h')

def zigzag : Toolpath Number :=
  let leg (start stop : Point Number) : Segment Number :=
    ⟨0, 1, .rapid, start, stop, none, none, none, none, none, none, none⟩
  let turn : Point Number := ⟨.float 3.0, .float (-4.0), .float 0.0⟩
  { (empty : Toolpath Number) with
    segments := [leg ⟨.float 0.0, .float 0.0, .float 0.0⟩ turn,
      leg turn ⟨.float (-1.5), .float 2.0, .float 0.0⟩] }

theorem box_hull_zigzag :
    zigzag.segments ≠ [] ∧ (∀ p ∈ zigzag.ends, ∀ i, (p.get i).Ordered) ∧
      ∃ b, zigzag.box = .ok b ∧ (∀ p ∈ zigzag.ends, (Box.ofPoint p).Within b) ∧
        ∃ b', { zigzag with segments := zigzag.segments.reverse }.box = .ok b' ∧ b'.Same b := by
  have hne : zigzag.segments ≠ [] := by simp [zigzag]
  have hpoint {x y z : Float} (hx : x.isNaN = false) (hy : y.isNaN = false) (hz : z.isNaN = false)
      (i : Coordinate) :
      (Point.get ⟨Number.float x, .float y, .float z⟩ i).Ordered := by
    cases i with
    | x => exact .float hx
    | y => exact .float hy
    | z => exact .float hz
  obtain ⟨h0, h3, h4, h1, h2⟩ :
    Float.isNaN 0.0 = false ∧ Float.isNaN 3.0 = false ∧ Float.isNaN (-4.0) = false ∧
      Float.isNaN (-1.5) = false ∧ Float.isNaN 2.0 = false := by decide +kernel
  have hends : ∀ p ∈ zigzag.ends, ∀ i, (p.get i).Ordered := by
    simp only [ends, zigzag, List.flatMap_cons, List.flatMap_nil, List.append_nil, List.cons_append,
      List.nil_append, List.forall_mem_cons]
    exact ⟨hpoint h0 h0 h0, hpoint h3 h4 h0, hpoint h3 h4 h0, hpoint h1 h2 h0,
      fun _ h => absurd h List.not_mem_nil⟩
  obtain ⟨b, hbox, hwithin, -, hperm, -⟩ := box_hull hne hends
  exact ⟨hne, hends, b, hbox, hwithin, hperm _ (List.reverse_perm _)⟩

end Toolpath
end Machining
