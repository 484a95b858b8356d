import Machining.Proofs.LineIndex
import Machining.Proofs.LoneReference

namespace Machining

theorem Number.exact_iff {v : Number} :
    v.Exact ↔ v.toFloat.toOption.any (fun x => x.isFinite && v == .float x) = true := by
  rw [Number.Exact, Option.any_eq_true]
  constructor
  · rintro ⟨x, h⟩
    exact ⟨x, by rw [h.converts]; rfl, by rw [h.finite, h.same]; rfl⟩
  · rintro ⟨x, hx, h⟩
    rw [Bool.and_eq_true] at h
    cases hv : v.toFloat with
    | error e =>
      rw [hv] at hx
      cases hx
    | ok y =>
      rw [hv] at hx
      obtain rfl : y = x := Option.some.inj hx
      exact ⟨y, h.1, hv, h.2⟩

instance (v : Number) : Decidable v.Exact := decidable_of_iff _ Number.exact_iff.symm

namespace Table
variable {κ ν : Type} [DecidableEq κ]

omit [DecidableEq κ] in
@[simp] theorem keys_empty : (empty : Table κ ν).keys = [] := rfl

theorem mem_keys_iff {t : Table κ ν} {k : κ} : k ∈ t.keys ↔ ∃ v, t.get? k = some v := by
  rw [← Option.isSome_iff_exists]
  simp [get?, keys]

theorem get?_eq_none_iff {t : Table κ ν} {k : κ} : t.get? k = none ↔ k ∉ t.keys := by
  rw [mem_keys_iff, Option.eq_none_iff_forall_ne_some, not_exists]

theorem contains_iff_mem_keys {t : Table κ ν} {k : κ} : t.contains k = true ↔ k ∈ t.keys := by
  simp [contains, keys]

end Table

namespace Parameters

inductive Change where
  | set (r : Reference) (v : Number)
  | assign (ref : String) (v : Number) (line : Int)
  | updateSystem (n : Int) (v : Number)
  | updatePredefined (name : String) (v : Number)
  | clearLocal
  | clearUser
  deriving DecidableEq, Repr

namespace Change

def value? : Change → Option Number
  | set _ v | assign _ v _ | updateSystem _ v | updatePredefined _ v => some v
  | clearLocal | clearUser => none

def apply (p : Parameters) : Change → Parameters
  | set r v => (p.set? r v).getD p
  | assign ref v line => (p.assign ref v line).parameters
  | updateSystem n v => p.updateSystem n v
  | updatePredefined name v => p.updatePredefined name v
  | clearLocal => p.clearLocal
  | clearUser => p.clearUser

/-- The parameter that a program's write sets, if it is carried out. -/
def sets? (p : Parameters) : Change → Option Reference
  | set r v => if (p.set? r v).isSome then some r else none
  | assign ref v line => if (p.assign ref v line).done then Reference.ofText? ref else none
  | updateSystem _ _ | updatePredefined _ _ | clearLocal | clearUser => none

def clears (r : Reference) : Change → Prop
  | clearLocal => ∃ name, r = .named name ∧ isGlobalName name = false
  | clearUser => True
  | set _ _ | assign _ _ _ | updateSystem _ _ | updatePredefined _ _ => False

end Change

def run (cs : List Change) : Parameters := cs.foldl Change.apply initial

theorem run_concat (cs : List Change) (c : Change) : run (cs ++ [c]) = c.apply (run cs) := by
  rw [run, List.foldl_append]
  rfl

/-- A program has set a parameter, and nothing has cleared it since. -/
def WasSet (cs : List Change) (r : Reference) : Prop :=
  ∃ before c after, cs = before ++ c :: after ∧ c.sets? (run before) = some r ∧
    ∀ d ∈ after, ¬ d.clears r

theorem not_wasSet_nil (r : Reference) : ¬ WasSet [] r := by
  rintro ⟨before, c, after, hcs, -⟩
  simp at hcs

theorem wasSet_concat {cs : List Change} {c : Change} {r : Reference} :
    WasSet (cs ++ [c]) r ↔ c.sets? (run cs) = some r ∨ WasSet cs r ∧ ¬ c.clears r := by
  constructor
  · rintro ⟨before, d, after, hcs, hset, hafter⟩
    rcases List.eq_nil_or_concat after with rfl | ⟨after, e, rfl⟩
    · obtain ⟨rfl, hlast⟩ := List.append_inj' hcs rfl
      cases hlast
      exact .inl hset
    · rw [List.concat_eq_append, ← List.cons_append, ← List.append_assoc] at hcs
      obtain ⟨rfl, hlast⟩ := List.append_inj' hcs rfl
      cases hlast
      rw [List.concat_eq_append, List.forall_mem_append] at hafter
      exact .inr ⟨⟨before, d, after, rfl, hset, hafter.1⟩, hafter.2 c List.mem_cons_self⟩
  · rintro (hset | ⟨⟨before, d, after, rfl, hset, hafter⟩, hclear⟩)
    · exact ⟨cs, c, [], rfl, hset, by simp⟩
    · refine ⟨before, d, after ++ [c], by simp, hset, List.forall_mem_append.mpr ⟨hafter, ?_⟩⟩
      simpa using hclear

def IsKept : Reference → Prop
  | .numbered n => n ∈ initialSystem.keys
  | .named name => name ∈ initialPredefined.keys

def Stores (p : Parameters) : Reference → Prop
  | .numbered n => n ∈ p.numbered.keys
  | .named name => name ∈ p.globals.keys ∨ name ∈ p.locals.keys

instance (r : Reference) : Decidable (IsKept r) := by
  cases r <;> exact inferInstanceAs (Decidable (_ ∈ _))

instance (p : Parameters) (r : Reference) : Decidable (p.Stores r) := by
  cases r
  · exact inferInstanceAs (Decidable (_ ∈ _))
  · exact inferInstanceAs (Decidable (_ ∨ _))

/-- What every request leaves in place, whatever it writes: the machine's tables keep their keys,
and global names are told from local ones. -/
structure Arranged (p : Parameters) : Prop where
  systemKeys : p.system.keys = initialSystem.keys
  predefinedKeys : p.predefined.keys = initialPredefined.keys
  localNames : ∀ name ∈ p.locals.keys, isGlobalName name = false
  globalNames : ∀ name ∈ p.globals.keys, isGlobalName name = true

/-- One underscore in front, and not two. -/
theorem isGlobalName_iff {name : String} :
    isGlobalName name = true ↔ startsWithUnderscore name = true ∧ ¬ ['_', '_'] <+: name.toList := by
  unfold isGlobalName startsWithUnderscore
  generalize name.toList = cs
  split
  · simp
  · rename_i cs hone
    cases cs with
    | nil => simp
    | cons d ds =>
      have hd : d ≠ '_' := fun hd => hone ds (by rw [hd])
      simp [Ne.symm hd]
  · rename_i hnone
    cases cs with
    | nil => simp
    | cons c cs =>
      have hc : c ≠ '_' := fun hc => hnone cs (by rw [hc])
      simp [hc]

theorem arranged_initial : initial.Arranged := ⟨rfl, rfl, by simp [initial], by simp [initial]⟩

/-- A write that is carried out changes one entry of one of the program's tables. -/
theorem set?_cases {p q : Parameters} {r : Reference} {v : Number} (h : p.set? r v = some q) :
    (∃ n, r = .numbered n ∧ (1 ≤ n ∧ n ≤ 5399) ∧ q = { p with numbered := p.numbered.put n v }) ∨
    (∃ name, r = .named name ∧ (isGlobalName name = true ∧ name ∉ p.predefined.keys) ∧
      q = { p with globals := p.globals.put name v }) ∨
    ∃ name, r = .named name ∧ isGlobalName name = false ∧
      q = { p with locals := p.locals.put name v } := by
  cases r with
  | numbered n =>
    simp only [set?, setNumbered?] at h
    split at h
    · rename_i hn
      exact .inl ⟨n, rfl, hn, (Option.some.inj h).symm⟩
    · cases h
  | named name =>
    simp only [set?, setNamed?] at h
    split at h
    · rename_i hglobal
      split at h
      · cases h
      · rename_i hname
        rw [Table.contains_iff_mem_keys] at hname
        exact .inr (.inl ⟨name, rfl, ⟨hglobal, hname⟩, (Option.some.inj h).symm⟩)
    · rename_i hlocal
      exact .inr (.inr ⟨name, rfl, Bool.eq_false_iff.mpr hlocal, (Option.some.inj h).symm⟩)

/-- An assignment is a write by a reference's text, or it changes nothing. -/
theorem assign_cases (p : Parameters) (ref : String) (v : Number) (line : Int) :
    (p.assign ref v line).done = false ∧ (p.assign ref v line).parameters = p ∨
    ∃ r, (p.assign ref v line).done = true ∧ Reference.ofText? ref = some r ∧
      p.set? r v = some (p.assign ref v line).parameters := by
  unfold assign
  split
  · exact .inl ⟨rfl, rfl⟩
  · rename_i r hr
    split
    · exact .inl ⟨rfl, rfl⟩
    · split
      · rename_i q hq
        exact .inr ⟨r, rfl, hr, hq⟩
      · exact .inl ⟨rfl, rfl⟩

variable {p q : Parameters} {r : Reference} {v : Number} {c : Change}

namespace Arranged

theorem isGlobalName_predefined (h : p.Arranged) {name : String}
    (hname : name ∈ p.predefined.keys) : isGlobalName name = true := by
  have hall : ∀ name ∈ initialPredefined.keys, isGlobalName name = true := by decide +kernel
  exact hall name (h.predefinedKeys ▸ hname)

theorem set? (h : p.Arranged) (hset : p.set? r v = some q) : q.Arranged := by
  rcases set?_cases hset with ⟨n, -, -, rfl⟩ | ⟨name, -, ⟨hglobal, -⟩, rfl⟩ | ⟨name, -, hlocal, rfl⟩
  · exact { h with }
  · refine { h with globalNames := fun name' hname => ?_ }
    rcases Table.mem_keys_put_iff.mp hname with hname | rfl
    · exact h.globalNames name' hname
    · exact hglobal
  · refine { h with localNames := fun name' hname => ?_ }
    rcases Table.mem_keys_put_iff.mp hname with hname | rfl
    · exact h.localNames name' hname
    · exact hlocal

theorem sync (h : p.Arranged) : p.sync.Arranged := by
  have hsynced : ∀ e ∈ synced, e.1 ∈ initialPredefined.keys := by decide +kernel
  refine { h with predefinedKeys := ?_ }
  simp only [Parameters.sync]
  refine List.foldlRecOn (motive := fun t : Table String Number => t.keys = initialPredefined.keys)
    synced _
    h.predefinedKeys ?_
  rintro t hkeys ⟨name, n⟩ he
  dsimp only
  split
  · rw [Table.keys_put_of_mem (by rw [hkeys]; exact hsynced _ he), hkeys]
  · exact hkeys

theorem updateSystem (h : p.Arranged) (n : Int) (v : Number) : (p.updateSystem n v).Arranged := by
  unfold Parameters.updateSystem
  split
  · rename_i hn
    refine Arranged.sync { h with systemKeys := ?_ }
    exact (Table.keys_put_of_mem (Table.contains_iff_mem_keys.mp hn) v).trans h.systemKeys
  · exact h

theorem updatePredefined (h : p.Arranged) (name : String) (v : Number) :
    (p.updatePredefined name v).Arranged := by
  unfold Parameters.updatePredefined
  split
  · rename_i hname
    refine { h with predefinedKeys := ?_ }
    exact (Table.keys_put_of_mem (Table.contains_iff_mem_keys.mp hname) v).trans h.predefinedKeys
  · exact h

theorem apply (h : p.Arranged) (c : Change) : (c.apply p).Arranged := by
  cases c with
  | set r v =>
    cases hset : p.set? r v with
    | none => simpa [Change.apply, hset] using h
    | some q => simpa [Change.apply, hset] using h.set? hset
  | assign ref v line =>
    rcases assign_cases p ref v line with ⟨-, hsame⟩ | ⟨r, -, -, hset⟩
    · rwa [Change.apply, hsame]
    · exact h.set? hset
  | updateSystem n v => exact h.updateSystem n v
  | updatePredefined name v => exact h.updatePredefined name v
  | clearLocal => exact { h with localNames := fun _ hname => by cases hname }
  | clearUser =>
    exact { h with
      localNames := fun _ hname => by cases hname
      globalNames := fun _ hname => by cases hname }

end Arranged

theorem run_arranged (cs : List Change) : (run cs).Arranged :=
  List.foldlRecOn cs Change.apply arranged_initial fun _ h c _ => h.apply c

structure Tidy {κ : Type} [BEq κ] (t : Table κ Number) : Prop where
  distinct : t.keys.Nodup
  exact : ∀ k v, t.get? k = some v → v.Exact

theorem Tidy.empty {κ : Type} [BEq κ] : Tidy (Table.empty : Table κ Number) :=
  ⟨.nil, fun _ _ h => by cases h⟩

theorem Tidy.put {κ : Type} [DecidableEq κ] {t : Table κ Number} {v : Number} (h : Tidy t)
    (hv : v.Exact) (k : κ) : Tidy (t.put k v) := by
  refine ⟨Table.nodup_keys_put h.distinct k v, fun k' w hw => ?_⟩
  rw [Table.get?_put] at hw
  split at hw
  · cases hw
    exact hv
  · exact h.exact k' w hw

theorem Tidy.getD {κ : Type} [BEq κ] {t : Table κ Number} {w : Number} (h : Tidy t)
    (hw : w.Exact) (k : κ) : ((t.get? k).getD w).Exact := by
  cases hk : t.get? k with
  | none => exact hw
  | some v => exact h.exact k v hk

theorem tidy_of_entries {κ : Type} [DecidableEq κ] {t : Table κ Number} (hkeys : t.keys.Nodup)
    (hvalues : ∀ e ∈ t.entries, e.2.Exact) : Tidy t := by
  refine ⟨hkeys, fun k v hv => ?_⟩
  obtain ⟨e, he, rfl⟩ := Option.map_eq_some_iff.mp hv
  exact hvalues e (List.mem_of_find?_eq_some he)

structure Sound (p : Parameters) : Prop extends p.Arranged where
  numbered : Tidy p.numbered
  locals : Tidy p.locals
  globals : Tidy p.globals
  system : Tidy p.system
  predefined : Tidy p.predefined

theorem sound_initial : initial.Sound := by
  obtain ⟨hsystem, hpredefined, hnumbers, hnames⟩ :
      initialSystem.keys.Nodup ∧ initialPredefined.keys.Nodup ∧
      (∀ e ∈ initialSystem.entries, e.2.Exact) ∧
        ∀ e ∈ initialPredefined.entries, e.2.Exact := by decide +kernel
  exact ⟨arranged_initial, .empty, .empty, .empty, tidy_of_entries hsystem hnumbers,
    tidy_of_entries hpredefined hnames⟩

namespace Sound

theorem set? (h : p.Sound) (hv : v.Exact) (hset : p.set? r v = some q) : q.Sound := by
  have harranged := h.toArranged.set? hset
  rcases set?_cases hset with ⟨n, -, -, rfl⟩ | ⟨name, -, -, rfl⟩ | ⟨name, -, -, rfl⟩
  · exact { harranged, h with numbered := h.numbered.put hv n }
  · exact { harranged, h with globals := h.globals.put hv name }
  · exact { harranged, h with locals := h.locals.put hv name }

theorem sync (h : p.Sound) : p.sync.Sound := by
  refine { h.toArranged.sync, h with predefined := ?_ }
  simp only [Parameters.sync]
  refine List.foldlRecOn (motive := Tidy) synced _ h.predefined ?_
  rintro t ht ⟨name, n⟩ -
  dsimp only
  split
  · rename_i v hv
    exact ht.put (h.system.exact n v hv) name
  · exact ht

theorem updateSystem (h : p.Sound) (hv : v.Exact) (n : Int) : (p.updateSystem n v).Sound := by
  unfold Parameters.updateSystem
  split
  · rename_i hn
    refine Sound.sync { h with system := h.system.put hv n, systemKeys := ?_ }
    exact (Table.keys_put_of_mem (Table.contains_iff_mem_keys.mp hn) v).trans h.systemKeys
  · exact h

theorem updatePredefined (h : p.Sound) (hv : v.Exact) (name : String) :
    (p.updatePredefined name v).Sound := by
  have harranged := h.toArranged.updatePredefined name v
  unfold Parameters.updatePredefined at harranged ⊢
  split
  · rename_i hname
    rw [if_pos hname] at harranged
    exact { harranged, h with predefined := h.predefined.put hv name }
  · exact h

theorem apply (h : p.Sound) (hc : ∀ v ∈ c.value?, v.Exact) : (c.apply p).Sound := by
  cases c with
  | set r v =>
    cases hset : p.set? r v with
    | none => simpa [Change.apply, hset] using h
    | some q => simpa [Change.apply, hset] using h.set? (hc v rfl) hset
  | assign ref v line =>
    rcases assign_cases p ref v line with ⟨-, hsame⟩ | ⟨r, -, -, hset⟩
    · rwa [Change.apply, hsame]
    · exact h.set? (hc v rfl) hset
  | updateSystem n v => exact h.updateSystem (hc v rfl) n
  | updatePredefined name v => exact h.updatePredefined (hc v rfl) name
  | clearLocal => exact { h.toArranged.apply .clearLocal, h with locals := .empty }
  | clearUser =>
    exact { h.toArranged.apply .clearUser, h with
      numbered := .empty, locals := .empty, globals := .empty }

end Sound

theorem stores_set? (hset : p.set? r v = some q) (r' : Reference) :
    q.Stores r' ↔ r' = r ∨ p.Stores r' := by
  rcases set?_cases hset with ⟨n, rfl, -, rfl⟩ | ⟨name, rfl, -, rfl⟩ | ⟨name, rfl, -, rfl⟩
  · cases r' with
    | numbered n' => simp [Stores, Table.mem_keys_put_iff, or_comm]
    | named name' => simp [Stores]
  · cases r' with
    | numbered n' => simp [Stores]
    | named name' =>
      simp only [Stores, Table.mem_keys_put_iff, Reference.named.injEq]
      tauto
  · cases r' with
    | numbered n' => simp [Stores]
    | named name' =>
      simp only [Stores, Table.mem_keys_put_iff, Reference.named.injEq]
      tauto

/-- A request leaves stored what it sets and what it does not clear. -/
theorem Sound.stores_apply (h : p.Sound) :
    (c.apply p).Stores r ↔ c.sets? p = some r ∨ p.Stores r ∧ ¬ c.clears r := by
  cases c with
  | set r' v =>
    cases hset : p.set? r' v with
    | none => simp [Change.apply, Change.sets?, Change.clears, hset]
    | some q =>
      simp only [Change.apply, Change.sets?, Change.clears, hset, Option.getD_some,
        Option.isSome_some, if_true, Option.some.injEq, not_false_eq_true, and_true]
      rw [stores_set? hset, eq_comm]
  | assign ref v line =>
    rcases assign_cases p ref v line with ⟨hdone, hsame⟩ | ⟨r', hdone, hread, hset⟩
    · simp [Change.apply, Change.sets?, Change.clears, hdone, hsame]
    · simp only [Change.apply, Change.sets?, Change.clears, hdone, hread, if_true,
        Option.some.injEq, not_false_eq_true, and_true]
      rw [stores_set? hset, eq_comm]
  | updateSystem n v =>
    have hsame : (p.updateSystem n v).Stores r ↔ p.Stores r := by
      unfold Parameters.updateSystem
      split <;> rfl
    simpa [Change.apply, Change.sets?, Change.clears] using hsame
  | updatePredefined name v =>
    have hsame : (p.updatePredefined name v).Stores r ↔ p.Stores r := by
      unfold Parameters.updatePredefined
      split <;> rfl
    simpa [Change.apply, Change.sets?, Change.clears] using hsame
  | clearLocal =>
    cases r with
    | numbered n => simp [Change.apply, Change.sets?, Change.clears, clearLocal, Stores]
    | named name =>
      have hlocal := h.localNames name
      have hglobal := h.globalNames name
      have hclears : Change.clearLocal.clears (.named name) ↔ isGlobalName name = false := by
        simp [Change.clears]
      simp only [Change.apply, Change.sets?, clearLocal, Stores, Table.keys_empty, hclears]
      grind
  | clearUser =>
    cases r <;> simp [Change.apply, Change.sets?, Change.clears, clearUser, Stores]

/-- The tables hold what was set and not cleared since. -/
theorem run_sound (cs : List Change) (hcs : ∀ c ∈ cs, ∀ v ∈ c.value?, v.Exact) :
    (run cs).Sound ∧ ∀ r, (run cs).Stores r ↔ WasSet cs r := by
  induction cs using List.reverseRecOn with
  | nil =>
    refine ⟨sound_initial, fun r => ?_⟩
    cases r <;> simp [not_wasSet_nil, run, initial, Stores]
  | append_singleton cs c ih =>
    rw [List.forall_mem_append] at hcs
    obtain ⟨hsound, hstores⟩ := ih hcs.1
    rw [run_concat]
    refine ⟨hsound.apply (hcs.2 c List.mem_cons_self), fun r => ?_⟩
    rw [hsound.stores_apply, hstores, wasSet_concat]

end Parameters
end Machining
