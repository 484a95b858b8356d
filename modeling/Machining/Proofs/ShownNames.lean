import Machining.Proofs.ParameterHistory

namespace Machining.Parameters
variable {p : Parameters} {c : Change} {n : Int}

/-- The predefined names and the system parameters they stand for: the position on each axis, the
tool, the feed rate, the spindle speed, and the modes of motion, plane and distance. -/
def shown : List (String × Int) :=
  [("_x", 5420), ("_y", 5421), ("_z", 5422), ("_a", 5423), ("_b", 5424), ("_c", 5425), ("_u", 5426),
    ("_v", 5427), ("_w", 5428), ("_tool", 5400), ("_feed", 5410), ("_speed", 5411),
    ("_motion", 5070), ("_plane", 5080),
    ("_distance", 5090)]

def uncopied : List (String × Int) :=
  [("_a", 5423), ("_b", 5424), ("_c", 5425), ("_u", 5426), ("_v", 5427), ("_w", 5428)]

theorem shown_table :
    shown.Perm (synced ++ uncopied) ∧ (synced.map (·.1)).Nodup ∧
    (∀ e ∈ shown, e.2 ∈ initialSystem.keys) ∧
      ∀ e ∈ uncopied, e.1 ∉ synced.map (·.1) := by
  decide +kernel

theorem mem_shown_iff {e : String × Int} : e ∈ shown ↔ e ∈ synced ∨ e ∈ uncopied :=
  shown_table.1.mem_iff.trans List.mem_append

theorem uncopied_initial {e : String × Int} (he : e ∈ uncopied) :
    initialPredefined.get? e.1 = some (.float 0.0) ∧ initial.getNumbered e.2 = .float 0.0 := by
  revert e
  simp only [uncopied, List.forall_mem_cons]
  exact ⟨⟨rfl, rfl⟩, ⟨rfl, rfl⟩, ⟨rfl, rfl⟩, ⟨rfl, rfl⟩, ⟨rfl, rfl⟩, ⟨rfl, rfl⟩, by simp⟩

def Change.isUpdate : Change → Bool
  | updateSystem _ _ | updatePredefined _ _ => true
  | set _ _ | assign _ _ _ | clearLocal | clearUser => false

theorem Change.isUpdate_cases (c : Change) :
    c.isUpdate = false ∨ (∃ n v, c = .updateSystem n v) ∨
    ∃ name v, c = .updatePredefined name v := by
  cases c with
  | updateSystem n v => exact .inr (.inl ⟨n, v, rfl⟩)
  | updatePredefined name v => exact .inr (.inr ⟨name, v, rfl⟩)
  | _ => exact .inl rfl

theorem set?_kept {q : Parameters} {r : Reference} {v : Number} (hset : p.set? r v = some q) :
    q.system = p.system ∧ q.predefined = p.predefined := by
  rcases set?_cases hset with ⟨n, -, -, rfl⟩ | ⟨name, -, -, rfl⟩ |
    ⟨name, -, -, rfl⟩ <;> exact ⟨rfl, rfl⟩

theorem Change.apply_kept (hc : c.isUpdate = false) (p : Parameters) :
    (c.apply p).system = p.system ∧ (c.apply p).predefined = p.predefined := by
  cases c with
  | set r v =>
    cases hset : p.set? r v with
    | none => simp [apply, hset]
    | some q => simpa [apply, hset] using set?_kept hset
  | assign ref v line =>
    rcases assign_cases p ref v line with ⟨-, hsame⟩ | ⟨r, -, -, hset⟩
    · rw [apply, hsame]
      exact ⟨rfl, rfl⟩
    · exact set?_kept hset
  | updateSystem n v => cases hc
  | updatePredefined name v => cases hc
  | clearLocal => exact ⟨rfl, rfl⟩
  | clearUser => exact ⟨rfl, rfl⟩

def Change.update? (n : Int) : Change → Option Number
  | updateSystem m v => if m = n then some v else none
  | set _ _ | assign _ _ _ | updatePredefined _ _ | clearLocal | clearUser => none

theorem Change.update?_of_isUpdate (hc : c.isUpdate = false) : c.update? n = none := by
  cases c with
  | updateSystem m v => cases hc
  | _ => rfl

/-- The value that the last update brought to a number. -/
def lastUpdate? (cs : List Change) (n : Int) : Option Number :=
  (cs.filterMap (Change.update? n)).getLast?

theorem lastUpdate?_concat (cs : List Change) (c : Change) (n : Int) :
    lastUpdate? (cs ++ [c]) n = (c.update? n).or (lastUpdate? cs n) := by
  rw [lastUpdate?, lastUpdate?, List.filterMap_append, List.getLast?_append]
  cases hc : c.update? n <;> simp [hc]

theorem system_updateSystem (hn : n ∈ p.system.keys) (v : Number) :
    (p.updateSystem n v).system = p.system.put n v := by
  rw [updateSystem, if_pos (Table.contains_iff_mem_keys.mpr hn)]
  rfl

theorem updateSystem_unknown (hn : n ∉ p.system.keys) (v : Number) : p.updateSystem n v = p := by
  rw [updateSystem, if_neg (mt Table.contains_iff_mem_keys.mp hn)]

theorem get?_system_apply (hn : n ∈ p.system.keys) (c : Change) :
    (c.apply p).system.get? n = (c.update? n).or (p.system.get? n) := by
  rcases c.isUpdate_cases with hc | ⟨m, v, rfl⟩ | ⟨name, v, rfl⟩
  · rw [(c.apply_kept hc p).1, Change.update?_of_isUpdate hc, Option.none_or]
  · simp only [Change.apply, Change.update?]
    by_cases hm : m ∈ p.system.keys
    · rw [system_updateSystem hm, Table.get?_put]
      by_cases hmn : n = m
      · simp [hmn]
      · simp [hmn, Ne.symm hmn]
    · have hmn : m ≠ n := fun hmn => hm (hmn ▸ hn)
      simp [updateSystem_unknown hm, hmn]
  · simp only [Change.apply, Change.update?, updatePredefined]
    split <;> rfl

/-- A system parameter holds what the last update brought to it, or what it had at the start. -/
theorem get?_system_run (hn : n ∈ initialSystem.keys) (cs : List Change) :
    (run cs).system.get? n = (lastUpdate? cs n).or (initialSystem.get? n) := by
  induction cs using List.reverseRecOn with
  | nil => rfl
  | append_singleton cs c ih =>
    have hkeys : n ∈ (run cs).system.keys := by rwa [(run_arranged cs).systemKeys]
    rw [run_concat, get?_system_apply hkeys, ih, lastUpdate?_concat, Option.or_assoc]

theorem getNumbered_run (hn : n ∈ initialSystem.keys) (cs : List Change) :
    (run cs).getNumbered n = (lastUpdate? cs n).getD (initial.getNumbered n) := by
  obtain ⟨w, hw⟩ := Table.mem_keys_iff.mp hn
  have hinitial : initial.system.get? n = some w := hw
  rw [getNumbered, get?_system_run hn, hw, getNumbered, hinitial]
  cases lastUpdate? cs n <;> rfl

def copy (system : Table Int Number) (t : Table String Number) (e : String × Int) :
    Table String Number :=
  (system.get? e.2).elim t (t.put e.1)

theorem get?_copy (system : Table Int Number) (t : Table String Number) (e : String × Int)
    (name : String) :
    (copy system t e).get? name = if name = e.1 then (system.get? e.2).or (t.get? name)
      else t.get? name := by
  unfold copy
  cases system.get? e.2 with
  | none => simp
  | some v => simp [Table.get?_put]

theorem get?_foldl_copy {system : Table Int Number} {es : List (String × Int)}
    (hes : (es.map (·.1)).Nodup) (t : Table String Number) (name : String) :
    (name ∉ es.map (·.1) → (es.foldl (copy system) t).get? name = t.get? name) ∧
    ∀ n, (name, n) ∈ es → (es.foldl (copy system) t).get? name =
      (system.get? n).or (t.get? name) := by
  induction es generalizing t with
  | nil => simp
  | cons e es ih =>
    rw [List.map_cons, List.nodup_cons] at hes
    obtain ⟨hkeeps, hcopies⟩ := ih hes.2 (copy system t e)
    rw [List.foldl_cons, List.map_cons]
    -- The names differ, so what one pair has copied no later pair overwrites.
    refine ⟨fun hname => ?_, fun n hn => ?_⟩
    · rw [List.mem_cons, not_or] at hname
      rw [hkeeps hname.2, get?_copy, if_neg hname.1]
    · rcases List.mem_cons.mp hn with rfl | hn
      · rw [hkeeps hes.1, get?_copy, if_pos rfl]
      · have hne : name ≠ e.1 := fun hne => hes.1 (hne ▸ List.mem_map_of_mem (f := (·.1)) hn)
        rw [hcopies n hn, get?_copy, if_neg hne]

theorem predefined_sync (p : Parameters) :
    p.sync.predefined = synced.foldl (copy p.system) p.predefined := by
  simp only [sync]
  congr 1
  funext t e
  unfold copy
  cases p.system.get? e.2 <;> rfl

theorem Arranged.get?_shown (h : p.Arranged) {e : String × Int} (he : e ∈ shown) :
    ∃ v, p.system.get? e.2 = some v := by
  rw [← Table.mem_keys_iff, h.systemKeys]
  exact shown_table.2.2.1 e he

/-- Every name that is copied has the value of its number, and the others have what they had at the
start. -/
structure Copied (p : Parameters) : Prop where
  copies : ∀ e ∈ synced, p.predefined.get? e.1 = p.system.get? e.2
  others : ∀ name ∉ synced.map (·.1), p.predefined.get? name = initialPredefined.get? name

theorem copied_initial : initial.Copied := by
  refine ⟨?_, fun _ _ => rfl⟩
  simp only [synced, List.forall_mem_cons]
  exact ⟨rfl, rfl, rfl, rfl, rfl, rfl, rfl, rfl, rfl, by simp⟩

namespace Copied

theorem sync (harranged : p.Arranged)
    (h : ∀ name ∉ synced.map (·.1), p.predefined.get? name = initialPredefined.get? name) :
    p.sync.Copied := by
  have hnodup := shown_table.2.1
  constructor
  · intro e he
    obtain ⟨v, hv⟩ := harranged.get?_shown (mem_shown_iff.mpr (.inl he))
    have hsystem : p.sync.system.get? e.2 = some v := hv
    rw [predefined_sync, (get?_foldl_copy hnodup _ _).2 e.2 he, hv, hsystem]
    rfl
  · intro name hname
    rw [predefined_sync, (get?_foldl_copy hnodup _ _).1 hname, h name hname]

theorem updateSystem (h : p.Copied) (harranged : p.Arranged) (n : Int) (v : Number) :
    (p.updateSystem n v).Copied := by
  by_cases hn : n ∈ p.system.keys
  · rw [Parameters.updateSystem, if_pos (Table.contains_iff_mem_keys.mpr hn)]
    refine Copied.sync { harranged with systemKeys := ?_ } h.others
    exact (Table.keys_put_of_mem hn v).trans harranged.systemKeys
  · rwa [updateSystem_unknown hn]

theorem apply (h : p.Copied) (harranged : p.Arranged)
    (hc : ∀ name v, c ≠ .updatePredefined name v) : (c.apply p).Copied := by
  -- A program changes neither side, and an update ends with a copy of all pairs, whichever number
  -- it was for.
  rcases c.isUpdate_cases with hprogram | ⟨n, v, rfl⟩ | ⟨name, v, rfl⟩
  · obtain ⟨hsystem, hpredefined⟩ := c.apply_kept hprogram p
    constructor
    · rw [hsystem, hpredefined]
      exact h.copies
    · rw [hpredefined]
      exact h.others
  · exact h.updateSystem harranged n v
  · exact absurd rfl (hc name v)

end Copied

theorem forall_shown_iff {Q : String × Int → Prop} :
    (∀ e ∈ shown, Q e) ↔ (∀ e ∈ synced, Q e) ∧ ∀ e ∈ uncopied, Q e := by
  simp only [mem_shown_iff, or_imp, forall_and]

theorem run_copied (cs : List Change) (hcs : ∀ name v, .updatePredefined name v ∉ cs) :
    (run cs).Copied := by
  induction cs using List.reverseRecOn with
  | nil => exact copied_initial
  | append_singleton cs c ih =>
    rw [run_concat]
    refine (ih fun name v h => hcs name v (List.mem_append_left _ h)).apply (run_arranged cs) ?_
    rintro name v rfl
    exact hcs name v (List.mem_append_right _ List.mem_cons_self)

theorem Copied.getNamed_synced (h : p.Copied) (harranged : p.Arranged) {e : String × Int}
    (he : e ∈ synced) : p.getNamed e.1 = p.getNumbered e.2 := by
  obtain ⟨v, hv⟩ := harranged.get?_shown (mem_shown_iff.mpr (.inl he))
  simp [getNamed, getNumbered, h.copies e he, hv]

theorem Copied.getNamed_uncopied (h : p.Copied) {e : String × Int} (he : e ∈ uncopied) :
    p.getNamed e.1 = .float 0.0 := by
  simp [getNamed, h.others _ (shown_table.2.2.2 e he), uncopied_initial he]

/-- The names of the six axes show zero, whatever the updates of their numbers write. -/
theorem run_uncopied_iff {Q : Number → Number → Prop} {cs : List Change}
    (hcopied : (run cs).Copied) (hzero : Q (.float 0.0) (.float 0.0)) {e : String × Int}
    (he : e ∈ uncopied) :
    Q ((run cs).getNamed e.1) ((run cs).getNumbered e.2) ↔
      ∀ v ∈ lastUpdate? cs e.2, Q (.float 0.0) v := by
  have hkept := shown_table.2.2.1 e (mem_shown_iff.mpr (.inr he))
  rw [hcopied.getNamed_uncopied he, getNumbered_run hkept cs, (uncopied_initial he).2]
  cases lastUpdate? cs e.2 <;> simp [hzero]

/-- After any requests but a direct write to a predefined name: what the machine keeps is what it
wrote last, the copied names show it, and the names of the six axes show zero. So all names show
what they stand for exactly if the last update of each of the six, if there was one, was to zero. As
numbers compare, the zero may be of any kind, and the copied values have to be numbers. -/
theorem run_shown_iff (cs : List Change) (hcs : ∀ name v, .updatePredefined name v ∉ cs) :
    (∀ n ∈ initialSystem.keys, (run cs).getNumbered n =
      (lastUpdate? cs n).getD (initial.getNumbered n)) ∧
    (∀ e ∈ synced, (run cs).getNamed e.1 = (run cs).getNumbered e.2) ∧
    (∀ e ∈ uncopied, (run cs).getNamed e.1 = .float 0.0) ∧
    ((∀ e ∈ shown, (run cs).getNamed e.1 = (run cs).getNumbered e.2) ↔
      ∀ e ∈ uncopied, ∀ v ∈ lastUpdate? cs e.2, v = .float 0.0) ∧
    ((∀ e ∈ shown, ((run cs).getNamed e.1 == (run cs).getNumbered e.2) = true) ↔
      (∀ e ∈ synced, ((run cs).getNumbered e.2 == (run cs).getNumbered e.2) = true) ∧
        ∀ e ∈ uncopied, ∀ v ∈ lastUpdate? cs e.2, (.float 0.0 == v) = true) := by
  have hcopied := run_copied cs hcs
  have hsynced : ∀ e ∈ synced, (run cs).getNamed e.1 = (run cs).getNumbered e.2 :=
    fun e he => hcopied.getNamed_synced (run_arranged cs) he
  refine ⟨fun n hn => getNumbered_run hn cs, hsynced,
    fun e he => hcopied.getNamed_uncopied he, ?_, ?_⟩
  · rw [forall_shown_iff, and_iff_right hsynced]
    refine forall₂_congr fun e he => (run_uncopied_iff (Q := Eq) hcopied rfl he).trans ?_
    exact forall₂_congr fun v _ => eq_comm
  · have hzero : (Number.float 0.0 == .float 0.0) = true := by decide +kernel
    rw [forall_shown_iff]
    refine and_congr (forall₂_congr fun e he => ?_) (forall₂_congr fun e he => ?_)
    · rw [hsynced e he]
    · exact run_uncopied_iff (Q := fun a b => (a == b) = true) hcopied hzero he

def positioning : List Change :=
  [.updateSystem 5420 (.float 3.5), .set (.named "_x") (.float 1.0),
    .updateSystem 5423 (.float 7.0), .assign "#<_a>" (.float 2.0) 1, .clearUser]

/-- The first axis is shown, the fourth is not. -/
theorem run_shown_iff_positioning :
    (∀ name v, .updatePredefined name v ∉ positioning) ∧
    (run positioning).getNamed "_x" = .float 3.5 ∧
    (run positioning).getNamed "_a" = .float 0.0 ∧ (run positioning).getNumbered 5423 = .float 7.0 ∧
    ¬ ∀ e ∈ shown, (run positioning).getNamed e.1 = (run positioning).getNumbered e.2 := by
  have hcs : ∀ name v, .updatePredefined name v ∉ positioning := by simp [positioning]
  obtain ⟨hsystem, hsynced, huncopied, hall, -⟩ := run_shown_iff positioning hcs
  have hkept : 5420 ∈ initialSystem.keys ∧ 5423 ∈ initialSystem.keys ∧
      (Number.float 7.0 == .float 0.0) = false ∧ (Number.float 0.0 == .float 0.0) = true := by
    decide +kernel
  refine ⟨hcs, ?_, huncopied ("_a", 5423) (by decide), hsystem 5423 hkept.2.1, fun h => ?_⟩
  · rw [hsynced ("_x", 5420) (by decide)]
    exact hsystem 5420 hkept.1
  · have hzero := hall.mp h ("_a", 5423) (by decide) (.float 7.0) rfl
    have hdiffers := hkept.2.2.1
    rw [hzero, hkept.2.2.2] at hdiffers
    cases hdiffers

end Machining.Parameters
