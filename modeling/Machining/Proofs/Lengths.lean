import Mathlib.Tactic.Abel
import Machining.Proofs.Drawing
import Machining.Proofs.Hull
import Machining.Proofs.Reals

namespace Machining

theorem MoveKind.isArc_ofDirection (direction : String) : (ofDirection direction).isArc = true := by
  unfold ofDirection
  split <;> rfl

/-- Every segment is of one of the kinds that are counted. -/
theorem Toolpath.statistics_kinds {α : Type} (t : Toolpath α) :
    t.statistics.segments = t.statistics.rapids + t.statistics.feeds + t.statistics.arcs := by
  simp only [statistics, count, ofKind]
  induction t.segments with
  | nil => rfl
  | cons s rest ih => cases hk : s.kind <;> simp [hk, ih] <;> omega

section
variable {α : Type} [Scalar α]

/-- Measure a segment again, for what it counts in sums. -/
def Segment.reckoned (s : Segment α) : Except Fault α := s.measured.map travel

namespace Toolpath
variable {t t' : Toolpath α} {s : Segment α}

def sumOf (segments : List (Segment α)) : Except Fault α :=
  segments.foldlM (fun sum s => do Scalar.add sum (← s.reckoned)) 0

theorem sumOf_append {segments : List (Segment α)} {sum len sum' : α} (h : sumOf segments = .ok sum)
    (hs : s.reckoned = .ok len) (hadd : Scalar.add sum len = .ok sum') :
    sumOf (segments ++ [s]) = .ok sum' := by
  unfold sumOf at h ⊢
  rw [List.foldlM_append, h]
  simp only [List.foldlM_cons, List.foldlM_nil, hs, bind, Except.bind, hadd, pure, Except.pure]

def Share.of : MoveKind → Share
  | .rapid => rapid
  | .feed | .arcCw | .arcCcw => feed

theorem Share.of_ne_rapid {kind : MoveKind} (h : kind ≠ .rapid) : Share.of kind = .feed := by
  cases kind with
  | rapid => exact absurd rfl h
  | feed | arcCw | arcCcw => rfl

theorem linearShare_eq {kind : MoveKind} (h : kind.isArc = false) :
    linearShare kind = .of kind := by
  cases kind with
  | rapid | feed => rfl
  | arcCw | arcCcw => cases h

/-- Adding a segment adds its length to the total and to the sum of its share. -/
theorem push_lengths {share : Share} (h : t.push s share = .ok t') :
    ∃ s' len, t'.segments = t.segments ++ [s'] ∧ s'.kind = s.kind ∧ s'.reckoned = .ok len ∧
      Scalar.add t.totalLength len = .ok t'.totalLength ∧
      (if share = .rapid then Scalar.add t.rapidLength len else .ok t.rapidLength) =
        .ok t'.rapidLength ∧
      (if share = .feed then Scalar.add t.feedLength len else .ok t.feedLength) =
        .ok t'.feedLength := by
  simp only [push_bind, Segment.measured, bind_ok_iff] at h
  obtain ⟨_, ⟨len, hlen, hs⟩, total, htotal, h⟩ := h
  cases hs
  -- neither its id nor a length that it has makes a difference to how a segment is measured
  have hreckoned : ({ s with id := t.nextId, length := some len } : Segment α).reckoned =
      .ok (Segment.travel { s with id := t.nextId, length := some len }) := by
    have hmeasure : ({ s with id := t.nextId, length := some len } : Segment α).measure = .ok len :=
      hlen
    simp only [Segment.reckoned, Segment.measured, hmeasure, bind, Except.bind, pure,
      Except.pure, Except.map]
  cases share with
  | rapid | feed | neither =>
    simp only [reduceCtorEq, if_true, if_false, bind_ok_iff] at h
    obtain ⟨rapid, hrapid, feed, hfeed, h⟩ := h
    cases h
    exact ⟨_, _, rfl, rfl, hreckoned, htotal, hrapid, hfeed⟩

/-- The running lengths are the sums over the segments: of all, of the rapid moves, and of all
others. -/
structure Accounted (t : Toolpath α) : Prop where
  total : sumOf t.segments = .ok t.totalLength
  rapid : sumOf (t.segments.filter (·.kind = .rapid)) = .ok t.rapidLength
  feed : sumOf (t.segments.filter (·.kind ≠ .rapid)) = .ok t.feedLength

theorem accounted_empty : (empty : Toolpath α).Accounted := ⟨rfl, rfl, rfl⟩

theorem Accounted.push (h : t.Accounted) (hp : t.push s (.of s.kind) = .ok t') : t'.Accounted := by
  obtain ⟨s', len, hsegments, hkind, hlen, htotal, hrapid, hfeed⟩ := push_lengths hp
  have hsum := sumOf_append h.total hlen htotal
  by_cases hr : s.kind = .rapid
  · rw [hr, Share.of, if_pos rfl] at hrapid
    rw [hr, Share.of, if_neg (by decide)] at hfeed
    refine ⟨hsegments ▸ hsum, ?_, ?_⟩
    · simpa [hsegments, hkind, hr] using sumOf_append h.rapid hlen hrapid
    · simpa [hsegments, hkind, hr, ← Except.ok.inj hfeed] using h.feed
  · rw [Share.of_ne_rapid hr, if_neg (by decide)] at hrapid
    rw [Share.of_ne_rapid hr, if_pos rfl] at hfeed
    refine ⟨hsegments ▸ hsum, ?_, ?_⟩
    · simpa [hsegments, hkind, hr, ← Except.ok.inj hrapid] using h.rapid
    · simpa [hsegments, hkind, hr] using sumOf_append h.feed hlen hfeed

inductive Made : Toolpath α → Prop where
  | empty : Made empty
  | linear {t t' : Toolpath α} {start stop : Point α} {line : Int} {kind : MoveKind}
      {feed : Option α} (made : Made t) (straight : kind.isArc = false)
      (added : t.addLinear start stop line kind feed = .ok t') : Made t'
  | arc {t t' : Toolpath α} {start stop center : Point α} {line : Int} {kind : MoveKind}
      {plane : String} {feed : Option α} (made : Made t) (round : kind.isArc = true)
      (added : t.addArc start stop center line kind plane feed = .ok t') : Made t'

/-- All that is made of a path is adding segments, each in the share of its kind. -/
theorem Made.keeps {P : Toolpath α → Prop} (hempty : P .empty)
    (hpush : ∀ t s t', P t → t.push s (.of s.kind) = .ok t' → P t') (h : t.Made) : P t := by
  induction h with
  | empty => exact hempty
  | @linear t t' _ _ _ kind _ made straight added ih =>
    have hp : t.push _ (linearShare kind) = .ok t' := added
    rw [linearShare_eq straight] at hp
    exact hpush t _ t' ih hp
  | @arc t t' _ _ _ _ kind _ _ made round added ih =>
    rw [addArc_bind] at added
    obtain ⟨shape, -, hp⟩ := bind_ok_iff.mp added
    have hne : kind ≠ .rapid := by
      rintro rfl
      cases round
    rw [← Share.of_ne_rapid hne] at hp
    exact hpush t _ t' ih hp

theorem Made.accounted (h : t.Made) :
    t.Accounted := h.keeps accounted_empty fun _ _ _ hacc => hacc.push

theorem Drawn.made {plane : Plane} (d : t.Drawn plane t') (h : t.Made) : t'.Made := by
  cases d with
  | nothing => exact h
  | rapid added | cut _ added => exact h.linear rfl added
  | arc round _ added => exact h.arc round added

/-- Statistics that say of segments what measuring and counting them again would. Segments that are
not rapid moves are cuts and arcs. -/
structure Statistics.Tells (x : Statistics α) (segments : List (Segment α)) : Prop where
  total : sumOf segments = .ok x.totalLength
  rapid : sumOf (segments.filter (·.kind = .rapid)) = .ok x.rapidLength
  feed : sumOf (segments.filter (·.kind ≠ .rapid)) = .ok x.feedLength
  segments : x.segments = segments.length
  kinds : x.segments = x.rapids + x.feeds + x.arcs

theorem Made.tells (h : t.Made) : t.statistics.Tells t.segments :=
  ⟨h.accounted.total, h.accounted.rapid, h.accounted.feed, rfl, t.statistics_kinds⟩

end Toolpath
end

namespace Toolpath

/-- Where nothing is rounded, rapid moves and all others make up the total. -/
theorem Made.total_exact {α : Type} [ExactScalar α] {t : Toolpath α} (h : t.Made) :
    t.totalLength = t.rapidLength + t.feedLength := by
  refine h.keeps (P := fun t => t.totalLength = t.rapidLength + t.feedLength) (add_zero 0).symm
    fun t s t' hsum hp => ?_
  obtain ⟨s', len, -, -, -, htotal, hrapid, hfeed⟩ := push_lengths hp
  cases hk : s.kind <;> simp only [hk, Share.of, reduceCtorEq, if_true, if_false,
    ExactScalar.add_eq, Except.ok.injEq] at htotal hrapid hfeed
  all_goals
    rw [← htotal, ← hrapid, ← hfeed, hsum]
    abel

def Request.isPlain : Request → Bool
  | linear _ _ _ kind _ => !kind.isArc
  | arc .. | clear => true

theorem Made.attempt {t t' : Toolpath Number} {r : Request} {id : Option Nat} (h : t.Made)
    (hr : r.isPlain = true) (ht : t.attempt r = (t', .ok id)) : t'.Made := by
  cases r with
  | linear start stop line kind feed =>
    obtain ⟨p, -, ht⟩ := given_ok_iff.mp ht
    obtain ⟨q, -, ht⟩ := given_ok_iff.mp ht
    exact h.linear (by simpa [Request.isPlain] using hr) (succeeded_of_answered ht)
  | arc start stop center line direction plane feed =>
    obtain ⟨p, -, ht⟩ := given_ok_iff.mp ht
    obtain ⟨q, -, ht⟩ := given_ok_iff.mp ht
    obtain ⟨c, -, ht⟩ := given_ok_iff.mp ht
    exact h.arc (MoveKind.isArc_ofDirection direction) (succeeded_of_answered ht)
  | clear =>
    cases ht
    exact .empty

theorem afterAll_made {requests : List Request} (h : ∀ r ∈ requests, r.isPlain = true) :
    (afterAll requests).Made :=
  (afterAll_keeps .empty fun r hr _ _ _ hmade => hmade.attempt (h r hr)).1

end Toolpath

theorem Interpreter.process_made (text : String) (t : Interpreter) :
    (t.process text).1.path.Made := by
  refine process_station (P := fun s => s.control.path.Made) (fun s u hs hpath _ _ => ?_)
    (fun code b s hs => ?_)
    (fun code b s hs => ?_) text t .empty
  · rw [hpath]
    exact hs
  · rw [Auxiliary.execute_path]
    exact hs
  · exact (Motion.execute_draws code b s.control).path.made hs

theorem Session.afterAll_made (requests : List Request) : (afterAll requests).path.Made :=
  afterAll_path .empty Interpreter.process_made requests

namespace Number
variable {a b v : Number}

def Representable (v : Number) : Prop := ∃ x, v.toFloat = .ok x

theorem Representable.given (h : v.Representable) : v.Given := by
  rintro rfl
  obtain ⟨x, hx⟩ := h
  cases hx

theorem Representable.sub (ha : a.Representable) (hb : b.Representable) :
    ∃ d, Scalar.sub a b = .ok d := by
  obtain ⟨x, hx⟩ := ha
  obtain ⟨y, hy⟩ := hb
  change ∃ d, combine "-" (· - ·) (· - ·) a b = .ok d
  cases a with
  | missing => cases hx
  | int m =>
    cases b with
    | missing => cases hy
    | int n => exact ⟨_, rfl⟩
    | float z => exact ⟨_, by simp only [combine, hx]; rfl⟩
  | float w =>
    cases b with
    | missing => cases hy
    | int n => exact ⟨_, by simp only [combine, hy]; rfl⟩
    | float z => exact ⟨_, rfl⟩

end Number

/-- The box around coordinates within the range of binary64 values has corners within it. -/
theorem Toolpath.box_representable {t : Toolpath Number}
    (h : ∀ p ∈ t.ends, ∀ i, (p.get i).Representable) :
    ∃ b, t.box = .ok b ∧ b.All Number.Representable := by
  by_cases hne : t.segments = []
  · refine ⟨_, by rw [box, hne]; rfl, fun i => ?_, fun i => ?_⟩ <;> cases i <;> exact ⟨_, rfl⟩
  · refine ⟨_, box_eq hne fun p hp i => (h p hp i).given,
      Box.All.foldl_grown ⟨fun i => ?_, fun i => ?_⟩ h⟩ <;>
      rw [Box.inverted, Point.get_ofFn] <;> exact ⟨_, rfl⟩

theorem Box.All.size {b : Box Number} (h : b.All Number.Representable) : ∃ p, b.size = .ok p := by
  choose d hd using fun i => (h.high i).sub (h.low i)
  exact ⟨_, Point.combine_ofFn hd⟩

namespace Session
variable {s : Session}

theorem summary_ok (h : ∀ p ∈ s.path.ends, ∀ i, (p.get i).Representable) :
    ∃ r, s.summary = .ok r := by
  obtain ⟨b, hbox, hb⟩ := Toolpath.box_representable h
  obtain ⟨size, hsize⟩ := hb.size
  exact ⟨_, by rw [summary, hbox]; simp only [hsize, bind, Except.bind]; rfl⟩

structure Summary.Repeats (r : Summary) (x : Toolpath.Statistics Number) : Prop where
  total : r.totalLength = x.totalLength
  rapid : r.rapidLength = x.rapidLength
  feed : r.feedLength = x.feedLength
  segments : r.segments = x.segments
  kinds : r.rapids = x.rapids ∧ r.feeds = x.feeds ∧ r.arcs = x.arcs

theorem summary_repeats {r : Summary} (h : s.summary = .ok r) : r.Repeats s.path.statistics := by
  obtain ⟨box, -, h⟩ := bind_ok_iff.mp h
  obtain ⟨size, -, h⟩ := bind_ok_iff.mp h
  cases h
  exact ⟨rfl, rfl, rfl, rfl, rfl, rfl, rfl⟩

end Session

/-- Statistics say what the segments say, after any requests to a path, those that fail included,
and in every session. In exact arithmetic the lengths of rapid moves and of all others make up the
total. The summary of a session repeats the statistics; there is one wherever coordinates are within
the range of binary64 values. -/
theorem Toolpath.statistics_tell {requests : List Request}
    (hplain : ∀ r ∈ requests, r.isPlain = true) {α : Type} [ExactScalar α] {t : Toolpath α}
    (ht : t.Made) (history : List Session.Request) :
    (afterAll requests).statistics.Tells (afterAll requests).segments ∧
      (t.statistics.Tells t.segments ∧
        t.statistics.totalLength = t.statistics.rapidLength + t.statistics.feedLength) ∧
      (Session.afterAll history).path.statistics.Tells (Session.afterAll history).path.segments ∧
      (∀ r, (Session.afterAll history).summary = .ok r →
        r.Repeats (Session.afterAll history).path.statistics) ∧
      ((∀ p ∈ (Session.afterAll history).path.ends, ∀ i, (p.get i).Representable) →
        ∃ r, (Session.afterAll history).summary = .ok r) :=
  ⟨(afterAll_made hplain).tells, ⟨ht.tells, ht.total_exact⟩, (Session.afterAll_made history).tells,
    fun _ => Session.summary_repeats, Session.summary_ok⟩

def legRequests : List Toolpath.Request :=
  let origin := [.float 0.0, .float 0.0, .float 0.0]
  let corner := [.float 3.0, .float 4.0, .float 0.0]
  [.linear corner origin 1 .rapid none, .clear, .linear origin corner 1 .rapid none,
    .linear [] corner 2 .feed none,
    .linear corner [.float 3.0, .float 4.0, .float 2.0] 3 .feed none]

theorem Toolpath.statistics_tell_legs :
    (∀ r ∈ legRequests, r.isPlain = true) ∧ (afterAll legRequests).totalLength = .float 7.0 ∧
      (afterAll legRequests).statistics.Tells (afterAll legRequests).segments ∧
      (∃ t : Toolpath ℝ, empty.addLinear ⟨0, 0, 0⟩ ⟨1, 0, 0⟩ 1 .feed none = .ok t ∧ t.Made ∧
        t.statistics.totalLength = t.statistics.rapidLength + t.statistics.feedLength) ∧
      ∃ r, (Session.afterAll [.process "G0 X3 Y4"]).summary = .ok r := by
  have hclosed : (∀ r ∈ legRequests, r.isPlain = true) ∧
      (afterAll legRequests).totalLength = .float 7.0 ∧
      (Session.afterAll [.process "G0 X3 Y4"]).path.ends =
        [⟨.float 0.0, .float 0.0, .float 0.0⟩, ⟨.float 3.0, .float 4.0, .float 0.0⟩] := by
    decide +kernel
  obtain ⟨hplain, htotal, hends⟩ := hclosed
  obtain ⟨t, ht⟩ : ∃ t, (empty : Toolpath ℝ).addLinear ⟨0, 0, 0⟩ ⟨1, 0, 0⟩ 1 .feed none = .ok t :=
    ⟨_, rfl⟩
  have hmade : t.Made := .linear .empty rfl ht
  obtain ⟨htells, ⟨-, hexact⟩, -, -, hsummary⟩ := statistics_tell hplain hmade [.process "G0 X3 Y4"]
  refine ⟨hplain, htotal, htells, ⟨t, ht, hmade, hexact⟩, hsummary ?_⟩
  rw [hends]
  simp only [List.forall_mem_cons]
  exact ⟨fun i => by cases i <;> exact ⟨_, rfl⟩, fun i => by cases i <;> exact ⟨_, rfl⟩,
    fun _ h => absurd h List.not_mem_nil⟩

end Machining
