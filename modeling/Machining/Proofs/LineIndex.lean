import Machining.Proofs.Continuity
import Machining.Proofs.Regular
import Machining.Session
import Mathlib.Data.Finset.Card

namespace Machining

namespace Table
variable {κ ν : Type} [DecidableEq κ]

theorem get?_put (t : Table κ ν) (k k' : κ) (v : ν) :
    (t.put k v).get? k' = if k' = k then some v else t.get? k' := by
  obtain ⟨entries⟩ := t
  simp only [get?, put]
  induction entries with
  | nil => by_cases hk : k' = k <;> simp [put.go, hk, Ne.symm]
  | cons e es ih =>
    unfold put.go
    by_cases he : e.1 = k
    · by_cases hk : k' = k
      · simp [he, hk]
      · simp [he, hk, Ne.symm hk]
    · by_cases hk : e.1 = k'
      · have hne : k' ≠ k := hk ▸ he
        simp [hk, hne]
      · simpa [he, hk] using ih

/-- A key that is put again keeps its place. -/
theorem keys_put_of_mem {t : Table κ ν} {k : κ} (h : k ∈ t.keys) (v : ν) :
    (t.put k v).keys = t.keys := by
  obtain ⟨entries⟩ := t
  simp only [keys, put] at h ⊢
  induction entries with
  | nil => cases h
  | cons e es ih =>
    unfold put.go
    by_cases he : e.1 = k
    · simp [he]
    · have hbehind : k ∈ es.map (·.1) := by simpa [Ne.symm he] using h
      simp [he, ih hbehind]

theorem keys_put_of_not_mem {t : Table κ ν} {k : κ} (h : k ∉ t.keys) (v : ν) :
    (t.put k v).keys = t.keys ++ [k] := by
  obtain ⟨entries⟩ := t
  simp only [keys, put] at h ⊢
  induction entries with
  | nil => rfl
  | cons e es ih =>
    rw [List.map_cons, List.mem_cons, not_or] at h
    unfold put.go
    simp [Ne.symm h.1, ih h.2]

theorem nodup_keys_put {t : Table κ ν} (h : t.keys.Nodup) (k : κ) (v : ν) :
    (t.put k v).keys.Nodup := by
  by_cases hk : k ∈ t.keys
  · rw [keys_put_of_mem hk]
    exact h
  · rw [keys_put_of_not_mem hk, ← List.concat_eq_append]
    exact h.concat hk

theorem mem_keys_put_iff {t : Table κ ν} {k k' : κ} {v : ν} :
    k' ∈ (t.put k v).keys ↔ k' ∈ t.keys ∨ k' = k := by
  by_cases hk : k ∈ t.keys
  · rw [keys_put_of_mem hk]
    exact ⟨.inl, fun h => h.elim id fun he => he ▸ hk⟩
  · rw [keys_put_of_not_mem hk, List.mem_append, List.mem_singleton]

end Table

namespace Toolpath
variable {α : Type} {t t' : Toolpath α} {s : Segment α} {i : Nat}

/-- Segments are numbered in order, the next id is free, and for each line the index lists the ids
of its segments. -/
structure Filed (t : Toolpath α) : Prop where
  ids : t.segments.map (·.id) = List.range t.segments.length
  next : t.nextId = t.segments.length
  index : ∀ line, (t.byLine.get? line).getD [] = (t.segments.filter (·.line = line)).map (·.id)
  nodup : t.byLine.keys.Nodup
  keys : ∀ line, line ∈ t.byLine.keys ↔ ∃ s ∈ t.segments, s.line = line

theorem Filed.id_at (h : t.Filed) (hs : t.segments[i]? = some s) : s.id = i := by
  have hlt : i < t.segments.length := (List.getElem?_eq_some_iff.mp hs).1
  have hi : (t.segments.map (·.id))[i]? = (List.range t.segments.length)[i]? := by rw [h.ids]
  rw [List.getElem?_map, hs, List.getElem?_range hlt] at hi
  exact Option.some.inj hi

theorem Filed.at_id (h : t.Filed) (hs : s ∈ t.segments) : t.segments[s.id]? = some s := by
  obtain ⟨i, hi⟩ := List.mem_iff_getElem?.mp hs
  rw [h.id_at hi, hi]

/-- The index leads to the segments of a line, in order. -/
theorem Filed.forLine (h : t.Filed) (line : Int) :
    t.forLine line = t.segments.filter (·.line = line) := by
  have hself : ∀ s ∈ t.segments.filter (·.line = line), t.segments[s.id]? = some s :=
    fun s hs => h.at_id (List.mem_filter.mp hs).1
  rw [Toolpath.forLine, h.index, List.filterMap_map]
  exact (List.filterMap_congr hself).trans List.filterMap_some

/-- The index has as many entries as there are lines. -/
theorem Filed.lines (h : t.Filed) :
    t.statistics.lines = (t.segments.map (·.line)).toFinset.card := by
  have hsize : t.statistics.lines = t.byLine.keys.length := (List.length_map _).symm
  rw [hsize, ← List.toFinset_card_of_nodup h.nodup]
  congr 1
  ext line
  simp [h.keys]

variable [Scalar α]

theorem filed_empty : (empty : Toolpath α).Filed := by
  refine ⟨rfl, rfl, fun _ => rfl, List.nodup_nil, ?_⟩
  intro line
  simp [empty, Table.keys, Table.empty]

theorem Filed.push {share : Share} (h : t.Filed) (hp : t.push s share = .ok t') : t'.Filed := by
  obtain ⟨len, -, hsegments, hindex, hnext⟩ := push_eq hp
  refine ⟨?_, ?_, ?_, ?_, ?_⟩
  · simp [hsegments, h.ids, h.next, List.range_succ]
  · simp [hsegments, hnext, h.next]
  · intro line
    rw [hindex, hsegments, Table.get?_put, List.filter_append, List.map_append, ← h.index line]
    by_cases hline : line = s.line
    · simp [hline]
    · simp [hline, Ne.symm hline]
  · rw [hindex]
    exact Table.nodup_keys_put h.nodup _ _
  · intro line
    rw [hindex, hsegments, Table.mem_keys_put_iff, h.keys]
    simp [or_and_right, exists_or, eq_comm]

end Toolpath

theorem Point.distance_float {p q : Point Number} {v : Number} (h : p.distance q = .ok v) :
    v.IsFloat := by
  simp only [distance, bind_ok_iff] at h
  obtain ⟨_, _, _, _, _, _, _, _, _, _, _, _, hroot⟩ := h
  obtain ⟨x, _, hx⟩ := bind_ok_iff.mp hroot
  cases hx
  exact ⟨_, rfl⟩

theorem ArcShape.radius_float {start stop center : Point Number} {plane : String}
    {shape : ArcShape Number} (h : ofPoints start stop center plane = .ok shape) :
    shape.radius.IsFloat := by
  simp only [ofPoints, bind_ok_iff] at h
  obtain ⟨_, _, _, _, _, _, radius, hhalf, _, _, _, _, _, _, _, _, hshape⟩ := h
  cases hshape
  obtain ⟨x, _, hx⟩ := bind_ok_iff.mp hhalf
  cases hx
  exact ⟨_, rfl⟩

theorem Number.mul_float {v w : Number} {x : Float} (h : Scalar.mul (Number.float x) v = .ok w) :
    w.IsFloat := by
  cases v with
  | missing => cases h
  | int n =>
    obtain ⟨_, _, hw⟩ := bind_ok_iff.mp h
    cases hw
    exact ⟨_, rfl⟩
  | float y =>
    cases h
    exact ⟨_, rfl⟩

/-- Lengths are binary64 values, whatever the coordinates are. -/
theorem Segment.measure_float {s : Segment Number} {len : Number}
    (hr : ∀ r, s.radius = some r → r.IsFloat) (h : s.measure = .ok len) : len.IsFloat := by
  unfold measure at h
  split at h
  · split at h
    · rename_i r a b hradius _ _
      obtain ⟨x, rfl⟩ := hr r hradius
      obtain ⟨_, _, hmul⟩ := bind_ok_iff.mp h
      exact Number.mul_float hmul
    · exact Point.distance_float h
  · exact Point.distance_float h

namespace Toolpath
variable {t t' : Toolpath Number} {f : Fault}

inductive Request where
  | linear (start stop : List Number) (line : Int) (kind : MoveKind) (feed : Option Number)
  | arc (start stop center : List Number) (line : Int) (direction plane : String)
      (feed : Option Number)
  | clear

def pointOf (coordinates : List Number) : Except Fault (Point Number) :=
  match Point.ofList? coordinates with
  | some p => .ok p
  | none => .error .indexOutOfRange

def answered (r : Toolpath Number × Except Fault Nat) :
    Toolpath Number × Except Fault (Option Nat) :=
  (r.1, r.2.map some)

/-- Carry out a request: the path that it leaves, also if it fails, and the id that it gives
back. -/
def attempt (t : Toolpath Number) : Request → Toolpath Number × Except Fault (Option Nat)
  | .linear start stop line kind feed =>
    t.given (pointOf start) fun p => t.given (pointOf stop) fun q =>
      answered (t.insertLinear p q line kind feed)
  | .arc start stop center line direction plane feed =>
    t.given (pointOf start) fun p => t.given (pointOf stop) fun q =>
      t.given (pointOf center) fun c =>
      answered (t.insertArc p q c line (.ofDirection direction) plane feed)
  | .clear => (.empty, .ok none)

def after (t : Toolpath Number) (r : Request) : Toolpath Number := (t.attempt r).1

def afterAll (rs : List Request) : Toolpath Number := rs.foldl after .empty

theorem given_ok_iff {α β γ : Type} {t t' : Toolpath α} {v : Except Fault β}
    {next : β → Toolpath α × Except Fault γ} {z : γ} :
    t.given v next = (t', .ok z) ↔ ∃ y, v = .ok y ∧ next y = (t', .ok z) := by
  cases v <;> simp [given]

/-- What is done the same way to all paths: they are cleared, left with a fault, or a certain
segment is added, the length of which is a binary64 value if there is one. -/
inductive Uniform (change : Toolpath Number → Toolpath Number × Except Fault (Option Nat)) :
    Prop where
  | clears (eq : ∀ t, change t = (.empty, .ok none))
  | fails (f : Fault) (eq : ∀ t, change t = (t, .error f))
  | adds (s : Segment Number) (share : Share) (measured : ∀ len, s.measure = .ok len → len.IsFloat)
      (eq : ∀ t, change t = answered (t.insert s share))

/-- What comes before has nothing to do with the path. -/
theorem Uniform.of_given {β : Type} {v : Except Fault β}
    {next : β → Toolpath Number → Toolpath Number × Except Fault (Option Nat)}
    (h : ∀ x, v = .ok x → Uniform (next x)) : Uniform fun t => t.given v fun x => next x t := by
  cases v with
  | error f => exact .fails f fun _ => rfl
  | ok x => exact h x rfl

theorem attempt_uniform (r : Request) : Uniform fun t => t.attempt r := by
  cases r with
  | clear => exact .clears fun _ => rfl
  | linear start stop line kind feed =>
    refine .of_given fun p _ => .of_given fun q _ => .adds _ (linearShare kind) ?_ fun _ => rfl
    exact fun len => Segment.measure_float (by simp)
  | arc start stop center line direction plane feed =>
    refine .of_given fun p _ => .of_given fun q _ => .of_given fun c _ => ?_
    cases hshape : ArcShape.ofPoints p q c plane with
    | error f => exact .fails f fun t => by simp [answered, insertArc, given, hshape, Except.map]
    | ok shape =>
      refine .adds _ .feed ?_ fun t => by simp only [insertArc, given, hshape]; rfl
      refine fun len => Segment.measure_float ?_
      rintro r ⟨⟩
      exact ArcShape.radius_float hshape

theorem insert_of_error {s : Segment Number} (hs : s.measure = .error f) (share : Share) :
    t.insert s share = (t, .error f) := by
  have hid : ({ s with id := t.nextId } : Segment Number).measure = .error f := hs
  simp [Toolpath.insert, given, Segment.measured, hid, bind, Except.bind]

/-- A request to a path of which the lengths are numbers succeeds whole, or nothing of it is
done. -/
theorem Summed.attempt_cases (h : t.Summed) (r : Request) :
    (∃ t' id, t.attempt r = (t', .ok id) ∧ t'.Summed) ∨ ∃ f, t.attempt r = (t, .error f) := by
  cases attempt_uniform r with
  | clears eq => exact .inl ⟨.empty, none, eq t, summed_empty⟩
  | fails f eq => exact .inr ⟨f, eq t⟩
  | adds s share measured eq =>
    cases hs : s.measure with
    | error f =>
      refine .inr ⟨f, (eq t).trans ?_⟩
      rw [insert_of_error hs]
      rfl
    | ok len =>
      obtain ⟨t', ht', hsum⟩ := h.insert share hs (measured len hs)
      refine .inl ⟨t', some t.nextId, (eq t).trans ?_, hsum⟩
      rw [ht']
      rfl

/-- Whether a request fails depends on the request alone. -/
theorem Summed.attempt_error_iff (h : t.Summed) (r : Request) :
    (t.attempt r).2 = .error f ↔ ((empty : Toolpath Number).attempt r).2 = .error f := by
  cases attempt_uniform r with
  | clears eq => simp only [eq]
  | fails e eq => simp only [eq]
  | adds s share measured eq =>
    simp only [eq]
    cases hs : s.measure with
    | error e => simp only [insert_of_error hs, answered]
    | ok len =>
      obtain ⟨t', ht', -⟩ := h.insert share hs (measured len hs)
      obtain ⟨t'', ht'', -⟩ := summed_empty.insert share hs (measured len hs)
      rw [ht', ht'']
      exact ⟨nofun, nofun⟩

theorem succeeded_of_answered {t' : Toolpath Number} {r : Toolpath Number × Except Fault Nat}
    {id : Option Nat} (h : answered r = (t', .ok id)) : succeeded r = .ok t' := by
  obtain ⟨t, out⟩ := r
  cases out <;> cases h
  rfl

theorem Filed.attempt {r : Request} {id : Option Nat} (h : t.Filed)
    (hr : t.attempt r = (t', .ok id)) : t'.Filed := by
  cases attempt_uniform r with
  | clears eq =>
    cases (eq t).symm.trans hr
    exact filed_empty
  | fails f eq => cases (eq t).symm.trans hr
  | adds s share measured eq =>
    have hp : t.push s share = .ok t' := succeeded_of_answered ((eq t).symm.trans hr)
    exact h.push hp

/-- What requests keep when they succeed, any number of them keeps: nothing is done by those that
fail. -/
theorem afterAll_keeps {P : Toolpath Number → Prop} (hempty : P .empty) {rs : List Request}
    (hattempt : ∀ r ∈ rs, ∀ t t' id, P t → t.attempt r = (t', .ok id) → P t') :
    P (afterAll rs) ∧ (afterAll rs).Summed := by
  have hfrom : ∀ t, P t ∧ t.Summed → P (rs.foldl after t) ∧ (rs.foldl after t).Summed := by
    induction rs with
    | nil => exact fun t h => h
    | cons r rs ih =>
      intro t h
      refine ih (fun r' hr' => hattempt r' (List.mem_cons_of_mem r hr')) _ ?_
      unfold after
      rcases h.2.attempt_cases r with ⟨t', id, ht', hsum⟩ | ⟨f, hf⟩
      · rw [ht']
        exact ⟨hattempt r List.mem_cons_self t t' id h.1 ht', hsum⟩
      · rw [hf]
        exact h
  exact hfrom .empty ⟨hempty, summed_empty⟩

theorem afterAll_filed (rs : List Request) : (afterAll rs).Filed :=
  (afterAll_keeps filed_empty fun _ _ _ _ _ h => h.attempt).1

theorem afterAll_summed (rs : List Request) : (afterAll rs).Summed :=
  (afterAll_keeps (P := fun _ => True) trivial fun _ _ _ _ _ _ _ => trivial).2

end Toolpath

theorem Auxiliary.executeCustom_path (code : Number) (b : Block Number) (s : Station) :
    (executeCustom code b s).2.control.path = s.control.path := by
  unfold executeCustom
  split
  · rfl
  · simp only [Station.foldl_report]
    split <;> rfl

/-- No M-code has a say in the path, not even one with an action. -/
theorem Auxiliary.execute_path (code : Number) (b : Block Number) (s : Station) :
    (execute code b s).station.control.path = s.control.path := by
  unfold execute
  split
  · exact (executeBuiltin_effect _ code b s).rests.path
  · split
    · rfl
    · exact executeCustom_path code b s
    · rfl

theorem Auxiliary.register_control {code : Number} {a : Action} {s s' : Station}
    (h : register code a s = .ok s') : s'.control = s.control := by
  obtain ⟨custom, -, h⟩ := bind_ok_iff.mp h
  split at h
  · cases h
    rfl
  · cases h

/-- What adding a segment keeps, a G-code keeps. -/
theorem Motion.Effect.keeps_path {P : Toolpath Number → Prop}
    (hpush : ∀ p s share q, P p → p.push s share = .ok q → P q) {b : Block Number}
    {c : Controller Number}
    {r : Result Number} (e : Effect b c r) (h : P c.path) : P r.controller.path := by
  cases e with
  | stays still _ _ _ | refuses still _ _ _ _ =>
    rw [still.path]
    exact h
  | moves _ _ _ _ _ _ _ _ added =>
    obtain ⟨s, share, hp⟩ := added
    exact hpush _ s share _ h hp

namespace Interpreter
variable {P : Station → Prop}

theorem note_plane (b : Block Number) (m : Machine Number) : (note b m).plane = m.plane := by
  unfold note
  cases feedMode? b <;> rfl

/-- What codes keep, and what shows in path, plane and actions alone, is kept by the processing of a
text. -/
theorem process_station
    (hsame : ∀ s t : Station, P s → t.control.path = s.control.path →
      t.machine.plane = s.machine.plane →
      t.actions = s.actions → P t)
    (hm : ∀ code b s, P s → P (Auxiliary.execute code b s).station)
    (hg : ∀ code b s, P s → P { s with control := (Motion.execute code b s.control).2 })
    (text : String) (t : Interpreter) (h : P (begin text t).station) :
    P (t.process text).1.station := by
  have hfollow : ∀ b t, P t.station → P (follow b t).1.station := by
    intro b t ht
    unfold follow
    split
    · exact ht
    · split
      · exact ht
      · exact hsame t.station _ ht rfl rfl rfl
  have hblock : ∀ b t, P t.station → P (executeBlock b t).1.station := by
    intro b t ht
    apply runCodes_keeps (fun code s => hm code b s) (fun code s => hg code b s)
    rw [foldl_print]
    unfold modifyMachine
    split
    · exact hsame t.station _ ht rfl rfl rfl
    · exact hsame t.station _ ht rfl (note_plane b _) rfl
  refine process_keeps (P := fun u => P u.station) (fun u _ hu => hsame u.station _ hu rfl rfl rfl)
    (fun n u hu => ?_)
    text t h
  refine run_keeps (P := fun u => P u.station) (t := { u with position := 0 }) (fun v hv => ?_) n hu
  exact step_keeps (P := fun u => P u.station) hfollow hblock (fun _ _ hw => hw) hv

/-- What adding a segment keeps, holds of the path that processing a text leaves. -/
theorem process_path {P : Toolpath Number → Prop} (hempty : P .empty)
    (hpush : ∀ p s share q, P p → p.push s share = .ok q → P q) (text : String) (t : Interpreter) :
    P (t.process text).1.path := by
  refine process_station (P := fun s => P s.control.path) (fun s u hs hpath _ _ => ?_)
    (fun code b s hs => ?_)
    (fun code b s hs => ?_) text t hempty
  · rw [hpath]
    exact hs
  · rw [Auxiliary.execute_path]
    exact hs
  · exact (Motion.execute_effect code b s.control).keeps_path hpush hs

end Interpreter

namespace Session
variable {s : Session}

inductive Request where
  | process (text : String)
  | validate (text : String)
  | register (code : Number) (a : Action)
  | reset

def after (s : Session) : Request → Session
  | .process text => (s.process text).1
  | .validate text => (s.validate text).1
  | .register code a =>
    match Auxiliary.register code a s.interpreter.station with
    | .ok station => { s with interpreter := { s.interpreter with station } }
    | .error _ => s
  | .reset => s.reset

def afterAll (rs : List Request) : Session := rs.foldl after .initial

theorem after_path {P : Toolpath Number → Prop} (hempty : P .empty)
    (hprocess : ∀ text (t : Interpreter), P (t.process text).1.path) (h : P s.path) (r : Request) :
    P (s.after r).path := by
  cases r with
  | process text => exact hprocess text s.interpreter
  | validate text =>
    simp only [after, validate, Interpreter.validate]
    split <;> exact h
  | register code a =>
    simp only [after]
    split
    · rename_i station hs
      change P station.control.path
      rw [Auxiliary.register_control hs]
      exact h
    · exact h
  | reset => exact hempty

/-- What is true of the empty path and of every path that a text leaves, is true in every
session. -/
theorem afterAll_path {P : Toolpath Number → Prop} (hempty : P .empty)
    (hprocess : ∀ text (t : Interpreter), P (t.process text).1.path) (rs : List Request) :
    P (afterAll rs).path := by
  have hfrom : ∀ s : Session, P s.path → P (rs.foldl after s).path := by
    induction rs with
    | nil => exact fun s h => h
    | cons r rs ih => exact fun s h => ih _ (after_path hempty hprocess h r)
  exact hfrom .initial hempty

theorem afterAll_filed (rs : List Request) : (afterAll rs).path.Filed :=
  afterAll_path Toolpath.filed_empty
    (Interpreter.process_path Toolpath.filed_empty fun _ _ _ _ hp => hp.push) rs

theorem mem_idsFor (h : s.path.Filed) {n : Nat} {line : Int} :
    n ∈ s.idsFor line ↔ ∃ g, s.path.segments[n]? = some g ∧ g.line = line := by
  rw [idsFor, h.forLine]
  simp only [List.mem_map, List.mem_filter, decide_eq_true_eq]
  constructor
  · rintro ⟨g, ⟨hg, hl⟩, rfl⟩
    exact ⟨g, h.at_id hg, hl⟩
  · rintro ⟨g, hg, hl⟩
    exact ⟨g, ⟨List.mem_of_getElem? hg, hl⟩, h.id_at hg⟩

theorem idsFor_nodup (h : s.path.Filed) (line : Int) : (s.idsFor line).Nodup := by
  have hall : (s.path.segments.map (·.id)).Nodup := by
    rw [h.ids]
    exact List.nodup_range
  rw [idsFor, h.forLine]
  exact (List.filter_sublist.map _).nodup hall

/-- The line of an id is the one that lists it. -/
theorem lineOf_iff (h : s.path.Filed) (id line : Int) :
    s.lineOf? id = some line ↔ ∃ n ∈ s.idsFor line, (n : Int) = id := by
  rw [lineOf?, Option.map_eq_some_iff]
  constructor
  · rintro ⟨g, hg, hl⟩
    have hid : (g.id : Int) = id := by simpa using List.find?_some hg
    exact ⟨g.id, (mem_idsFor h).mpr ⟨g, h.at_id (List.mem_of_find?_eq_some hg), hl⟩, hid⟩
  · rintro ⟨n, hn, rfl⟩
    obtain ⟨g, hg, hl⟩ := (mem_idsFor h).mp hn
    cases hf : s.path.segments.find? fun g => (g.id : Int) = n with
    | none =>
      have hnone := List.find?_eq_none.mp hf g (List.mem_of_getElem? hg)
      simp [h.id_at hg] at hnone
    | some g' =>
      -- ids are positions, so the one that is found is the one that is meant
      have hid : g'.id = n := by simpa using List.find?_some hf
      have hat := h.at_id (List.mem_of_find?_eq_some hf)
      rw [hid, hg] at hat
      cases hat
      exact ⟨g, rfl, hl⟩

theorem count_idsFor (h : s.path.Filed) {g : Segment Number} (hg : g ∈ s.path.segments)
    (line : Int) : (s.idsFor line).count g.id = if line = g.line then 1 else 0 := by
  have hmem : g.id ∈ s.idsFor line ↔ line = g.line := by
    rw [mem_idsFor h, h.at_id hg]
    simp [eq_comm]
  split
  · rename_i hl
    exact List.count_eq_one_of_mem (idsFor_nodup h line) (hmem.mpr hl)
  · rename_i hl
    exact List.count_eq_zero_of_not_mem (mt hmem.mp hl)

end Session

/-- Ids, the counter, the index by line and the statistics of a path are in step with its
segments. -/
structure Toolpath.InStep (t : Toolpath Number) : Prop where
  ids : ∀ (i : Nat) (s : Segment Number), t.segments[i]? = some s → s.id = i
  next : t.nextId = t.segments.length
  forLine : ∀ line, t.forLine line = t.segments.filter (·.line = line)
  lines : t.statistics.lines = (t.segments.map (·.line)).toFinset.card

theorem Toolpath.Filed.inStep {t : Toolpath Number} (h : t.Filed) : t.InStep :=
  ⟨fun _ _ => h.id_at, h.next, h.forLine, h.lines⟩

/-- Editor and viewer are in step: a line lists an id exactly if it is the line of that id, and
every id is listed once, for one line. -/
structure Session.InStep (s : Session) : Prop where
  path : s.path.InStep
  lineOf : ∀ id line, s.lineOf? id = some line ↔ ∃ n ∈ s.idsFor line, (n : Int) = id
  once : ∀ g ∈ s.path.segments, ∀ line, (s.idsFor line).count g.id = if line = g.line then 1 else 0

/-- However moves are added and paths cleared, ids and index stay in step with the segments. Whether
a request fails depends on the request alone, and then nothing is half done: the path is as it was.
So editor and viewer stay in step in every session, with or without custom actions. -/
theorem segments_indexed_by_line :
    (∀ requests : List Toolpath.Request, (Toolpath.afterAll requests).InStep ∧
      ∀ r f, (((Toolpath.afterAll requests).attempt r).2 = .error f ↔
          ((Toolpath.empty : Toolpath Number).attempt r).2 = .error f) ∧
        (((Toolpath.afterAll requests).attempt r).2 = .error f →
          Toolpath.afterAll (requests ++ [r]) = Toolpath.afterAll requests)) ∧
    ∀ requests : List Session.Request, (Session.afterAll requests).InStep := by
  refine ⟨fun requests => ⟨(Toolpath.afterAll_filed requests).inStep, fun r f => ⟨?_, ?_⟩⟩,
    fun requests => ?_⟩
  · exact (Toolpath.afterAll_summed requests).attempt_error_iff r
  · intro hf
    rw [Toolpath.afterAll, List.foldl_append]
    change ((Toolpath.afterAll requests).attempt r).1 = _
    rcases (Toolpath.afterAll_summed requests).attempt_cases r with ⟨t', id, ht', -⟩ | ⟨f', hf'⟩
    · rw [ht'] at hf
      cases hf
    · rw [hf']
  · have h := Session.afterAll_filed requests
    exact ⟨h.inStep, Session.lineOf_iff h, fun g hg => Session.count_idsFor h hg⟩

def wideArc : Toolpath.Request :=
  .arc [.int 0, .int 0, .int 0] [.int 2, .int 0, .int 0]
    [.int (Int.shiftLeft 1 600), .int 0, .int 0] 7 "cw" "XY" none

def mixedRequests : List Toolpath.Request :=
  [.linear [.int 0, .int 0, .int 0] [.int 3, .int 4, .int 0] 7 .rapid none,
    wideArc,
    .linear [.int 3, .int 4] [.int 0, .int 0, .int 0] 7 .feed (some (.int 100)),
    .linear [.int 3, .int 4, .int 0] [.int 2, .int 0, .int 0] 2 .feed (some (.int 100)),
    .linear [.int 2, .int 0, .int 0] [.float 0.5, .int 0, .int 0] 7 .feed none]

/-- The requests that fail leave no gap in the ids, and both moves of line 7 are listed for it. -/
theorem segments_indexed_by_line_mixed :
    (Toolpath.afterAll mixedRequests).segments.length = 3 ∧
    (Toolpath.afterAll mixedRequests).nextId = 3 ∧
    ((Toolpath.afterAll mixedRequests).forLine 7).map (·.id) = [0, 2] ∧
    (Toolpath.afterAll mixedRequests).statistics.lines = 2 ∧
    (∃ f, ((Toolpath.afterAll mixedRequests).attempt wideArc).2 = .error f ∧
      ((Toolpath.empty : Toolpath Number).attempt wideArc).2 = .error f ∧
      Toolpath.afterAll (mixedRequests ++ [wideArc]) = Toolpath.afterAll mixedRequests) ∧
    (Session.afterAll [.process "G0 X1\nG1 X2 F5\nG0 X3 Y1"]).lineOf? 1 = some 2 := by
  obtain ⟨hpath, hfails⟩ := segments_indexed_by_line.1 mixedRequests
  have hsession := segments_indexed_by_line.2 [.process "G0 X1\nG1 X2 F5\nG0 X3 Y1"]
  have hlen : (Toolpath.afterAll mixedRequests).segments.length = 3 := by decide +kernel
  have hwide : ((Toolpath.afterAll mixedRequests).attempt wideArc).2.toBool = false := by
    decide +kernel
  refine ⟨hlen, hpath.next.trans hlen, ?_, ?_, ?_, ?_⟩
  · rw [hpath.forLine]
    decide +kernel
  · rw [hpath.lines]
    decide +kernel
  · cases hf : ((Toolpath.afterAll mixedRequests).attempt wideArc).2 with
    | ok t =>
      rw [hf] at hwide
      cases hwide
    | error f => exact ⟨f, rfl, (hfails wideArc f).1.mp hf, (hfails wideArc f).2 hf⟩
  · rw [hsession.lineOf]
    decide +kernel

end Machining
