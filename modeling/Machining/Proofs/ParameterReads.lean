import Machining.Proofs.ParameterHistory

namespace Machining.Parameters
variable {p q : Parameters} {r r' : Reference} {v : Number}

def IsWritable : Reference → Prop
  | .numbered n => 1 ≤ n ∧ n ≤ 5399
  | .named name => name ∉ initialPredefined.keys

/-- The machine's numbers among those that programs may write: the modes, ten apart, and the offsets
of nine axes in nine coordinate systems, twenty apart. -/
def IsReserved (n : Int) : Prop :=
  5070 ≤ n ∧ n ≤ 5160 ∧ n % 10 = 0 ∨ 5200 ≤ n ∧ n < 5380 ∧ n % 20 < 9

def HasTwoUnderscores (name : String) : Prop := ['_', '_'] <+: name.toList

/-- Parameters whose own writes are not seen. -/
def Unseen : Reference → Prop
  | .numbered n => IsReserved n
  | .named name => HasTwoUnderscores name

theorem mem_initialSystem_keys {n : Int} :
    n ∈ initialSystem.keys ↔
      (∃ i < 9, n = 5420 + (i : Nat)) ∨ (∃ i < 12, n = 5400 + (i : Nat)) ∨
      n ∈ [5070, 5080, 5090, 5100, 5110, 5120, 5130, 5140, 5150, 5160] ∨
      ∃ i < 9, ∃ k < 9, n = 5200 + 20 * (i : Nat) + (k : Nat) := by
  simp [initialSystem, Table.keys, eq_comm (a := n), or_assoc]

theorem isKept_numbered_iff {n : Int} :
    IsKept (.numbered n) ↔ IsReserved n ∨ 5400 ≤ n ∧ n ≤ 5411 ∨ 5420 ≤ n ∧ n ≤ 5428 := by
  rw [IsKept, mem_initialSystem_keys, IsReserved]
  constructor
  · intro h
    obtain ⟨i, hi, rfl⟩ | ⟨i, hi, rfl⟩ | hmode | ⟨i, hi, k, hk, rfl⟩ := h
    · omega
    · omega
    · simp only [List.mem_cons, List.not_mem_nil, or_false] at hmode
      omega
    · omega
  · intro h
    obtain (hmode | hoffset) | htool | hposition := h
    · refine .inr (.inr (.inl ?_))
      simp only [List.mem_cons, List.not_mem_nil, or_false]
      omega
    · exact .inr (.inr (.inr ⟨((n - 5200) / 20).toNat,
        by omega, ((n - 5200) % 20).toNat, by omega, by omega⟩))
    · exact .inr (.inl ⟨(n - 5400).toNat, by omega, by omega⟩)
    · exact .inl ⟨(n - 5420).toNat, by omega, by omega⟩

theorem getNamed_eq (p : Parameters) (name : String) :
    p.getNamed name = (p.predefined.get? name).getD
      ((if startsWithUnderscore name then p.globals.get? name else p.locals.get? name).getD
        (.float 0.0)) := by
  unfold getNamed
  cases p.predefined.get? name with
  | some v => rfl
  | none => by_cases hunder : startsWithUnderscore name = true <;> simp [hunder]

/-- A write that is carried out is seen by reading the parameter itself, if at all. -/
theorem get_set?_of_ne (hset : p.set? r v = some q) (hr : r' ≠ r) : q.get r' = p.get r' := by
  rcases set?_cases hset with ⟨n, rfl, -, rfl⟩ | ⟨name, rfl, -, rfl⟩ | ⟨name, rfl, -, rfl⟩
  all_goals
    cases r' with
    | numbered n' => simp_all [get, getNumbered, Table.get?_put]
    | named name' => simp_all [get, getNamed_eq, Table.get?_put]

namespace Arranged

theorem set?_eq_none_iff (h : p.Arranged) : p.set? r v = none ↔ ¬ IsWritable r := by
  cases r with
  | numbered n => simp [Parameters.set?, setNumbered?, IsWritable]
  | named name =>
    rw [IsWritable, not_not, ← h.predefinedKeys]
    simp only [Parameters.set?, setNamed?]
    constructor
    · intro hnone
      split at hnone
      · split at hnone
        · rename_i hname
          exact Table.contains_iff_mem_keys.mp hname
        · cases hnone
      · cases hnone
    · intro hname
      rw [if_pos (h.isGlobalName_predefined hname), if_pos (Table.contains_iff_mem_keys.mpr hname)]

/-- Of the numbers that programs may write the machine keeps the reserved ones. -/
theorem mem_system_keys_iff (h : p.Arranged) {n : Int} (hn : IsWritable (.numbered n)) :
    n ∈ p.system.keys ↔ IsReserved n := by
  obtain ⟨-, hle⟩ := hn
  have hkept : n ∈ p.system.keys ↔ IsKept (.numbered n) := by
    rw [h.systemKeys]
    rfl
  rw [hkept, isKept_numbered_iff]
  exact ⟨fun h => h.resolve_right (by omega), .inl⟩

/-- A name with two underscores is not found. -/
theorem getNamed_unseen (h : p.Arranged) {name : String} (hname : HasTwoUnderscores name) :
    p.getNamed name = .float 0.0 := by
  have hlocal : isGlobalName name ≠ true := fun hglobal => (isGlobalName_iff.mp hglobal).2 hname
  have hpredefined : p.predefined.get? name = none :=
    Table.get?_eq_none_iff.mpr fun hmem => hlocal (h.isGlobalName_predefined hmem)
  have hglobals : p.globals.get? name = none :=
    Table.get?_eq_none_iff.mpr fun hmem => hlocal (h.globalNames name hmem)
  have hunder : startsWithUnderscore name = true := by
    obtain ⟨cs, hcs⟩ := hname
    simp [startsWithUnderscore, ← hcs]
  simp [getNamed, hpredefined, hglobals, hunder]

theorem get_set?_unseen (h : p.Arranged) (hset : p.set? r v = some q) (hr : Unseen r) :
    q.get r = p.get r := by
  cases r with
  | numbered n =>
    obtain ⟨n', hn, hwritable, rfl⟩ | ⟨name, hn, -⟩ | ⟨name, hn, -⟩ := set?_cases hset
    · cases hn
      -- The machine's entry is found first, before the write and after it.
      obtain ⟨w, hw⟩ := Table.mem_keys_iff.mp ((h.mem_system_keys_iff hwritable).mpr hr)
      simp [get, getNumbered, hw]
    · cases hn
    · cases hn
  | named name =>
    simp only [get]
    rw [h.getNamed_unseen hr, (h.set? hset).getNamed_unseen hr]

theorem get_set?_seen (h : p.Arranged) (hset : p.set? r v = some q) (hr : ¬ Unseen r) :
    q.get r = v := by
  rcases set?_cases hset with ⟨n, rfl, hwritable, rfl⟩ | ⟨name, rfl, ⟨hglobal, hname⟩, rfl⟩ |
    ⟨name, rfl, hlocal, rfl⟩
  · have hsystem : p.system.get? n = none :=
      Table.get?_eq_none_iff.mpr fun hn => hr ((h.mem_system_keys_iff hwritable).mp hn)
    simp [get, getNumbered, hsystem, Table.get?_put]
  · have hpredefined : p.predefined.get? name = none := Table.get?_eq_none_iff.mpr hname
    simp [get, getNamed, hpredefined, (isGlobalName_iff.mp hglobal).1, Table.get?_put]
  · have hpredefined : p.predefined.get? name = none := Table.get?_eq_none_iff.mpr fun hmem => by
      simp [h.isGlobalName_predefined hmem] at hlocal
    have hunder : startsWithUnderscore name = false := by
      refine Bool.eq_false_iff.mpr fun hunder => ?_
      exact Bool.eq_false_iff.mp hlocal (isGlobalName_iff.mpr ⟨hunder, hr⟩)
    simp [get, getNamed, hpredefined, hunder, Table.get?_put]

theorem get_set?_eq_iff (h : p.Arranged) (hset : p.set? r v = some q) :
    q.get r = v ↔ ¬ Unseen r ∨ p.get r = v := by
  by_cases hr : Unseen r
  · rw [h.get_set?_unseen hset hr]
    simp [hr]
  · simp [h.get_set?_seen hset hr, hr]

/-- As numbers compare, for which zeros of all kinds are the same and what is no number differs from
itself. -/
theorem get_set?_beq_iff (h : p.Arranged) (hset : p.set? r v = some q) :
    (q.get r == v) = true ↔ ¬ Unseen r ∧ (v == v) = true ∨ Unseen r ∧ (p.get r == v) = true := by
  by_cases hr : Unseen r
  · rw [h.get_set?_unseen hset hr]
    simp [hr]
  · simp [h.get_set?_seen hset hr, hr]

end Arranged

theorem run_set {x : Option Parameters} (cs : List Change) (hset : (run cs).set? r v = x) :
    run (cs ++ [.set r v]) = x.getD (run cs) := by
  rw [run_concat, Change.apply, hset]

theorem run_set_some (cs : List Change) (hset : (run cs).set? r v = some q) :
    run (cs ++ [.set r v]) = q ∧ (∀ r', r' ≠ r → q.get r' = (run cs).get r') ∧
      (q.get r = v ↔ ¬ Unseen r ∨ (run cs).get r = v) ∧
      ((q.get r == v) = true ↔
        ¬ Unseen r ∧ (v == v) = true ∨ Unseen r ∧ ((run cs).get r == v) = true) ∧
      (Unseen r → q.get r = (run cs).get r) :=
  ⟨run_set cs hset, fun _ hr => get_set?_of_ne hset hr, (run_arranged cs).get_set?_eq_iff hset,
    (run_arranged cs).get_set?_beq_iff hset, (run_arranged cs).get_set?_unseen hset⟩

/-- After any requests a number from 1 to 5399 can be written, and no other parameter reads
differently then. It reads as written unless the machine keeps it, up to the spelling of a zero too;
such a number reads as before. What is refused changes nothing. -/
theorem getNumbered_set_iff (cs : List Change) (n : Int) (v : Number) :
    ((run cs).setNumbered? n v = none ↔ n < 1 ∨ 5399 < n) ∧
    ((run cs).setNumbered? n v = none → run (cs ++ [.set (.numbered n) v]) = run cs) ∧
    ∀ q, (run cs).setNumbered? n v = some q →
      run (cs ++ [.set (.numbered n) v]) = q ∧
      (∀ r, r ≠ .numbered n → q.get r = (run cs).get r) ∧
      (q.getNumbered n = v ↔ ¬ IsReserved n ∨ (run cs).getNumbered n = v) ∧
      ((q.getNumbered n == v) = true ↔
        ¬ IsReserved n ∧ (v == v) = true ∨ IsReserved n ∧ ((run cs).getNumbered n == v) = true) ∧
      (IsReserved n → q.getNumbered n = (run cs).getNumbered n) := by
  refine ⟨?_, run_set (r := .numbered n) cs, fun q hset => run_set_some (r := .numbered n) cs hset⟩
  refine ((run_arranged cs).set?_eq_none_iff (r := .numbered n)).trans ?_
  rw [IsWritable]
  omega

/-- `#5070` is one of the machine's modes: a write to it is carried out and not seen. `#5071` is a
parameter like any other, and `#0` is none. -/
theorem getNumbered_set_iff_mode :
    (∃ q, (run []).setNumbered? 5070 (.float 7.0) = some q ∧ q.getNumbered 5070 = .int 1) ∧
    (∃ q, (run []).setNumbered? 5071 (.float 7.0) = some q ∧ q.getNumbered 5071 = .float 7.0) ∧
    (run []).setNumbered? 0 (.float 7.0) = none := by
  obtain ⟨-, -, hmode⟩ := getNumbered_set_iff [] 5070 (.float 7.0)
  obtain ⟨-, -, hfree⟩ := getNumbered_set_iff [] 5071 (.float 7.0)
  have hreserved : IsReserved 5070 := .inl (by decide)
  have hnot : ¬ IsReserved 5071 := by
    unfold IsReserved
    decide
  exact ⟨⟨_, rfl, (hmode _ rfl).2.2.2.2 hreserved⟩, ⟨_, rfl, (hfree _ rfl).2.2.1.mpr (.inl hnot)⟩,
    (getNumbered_set_iff [] 0 (.float 7.0)).1.mpr (by decide)⟩

/-- After any requests every name can be written except the predefined ones, and no other parameter
reads differently then. It reads as written unless it has two underscores in front, up to the
spelling of a zero too; such a name reads as zero. What is refused changes nothing. -/
theorem getNamed_set_iff (cs : List Change) (name : String) (v : Number) :
    ((run cs).setNamed? name v = none ↔ name ∈ initialPredefined.keys) ∧
    ((run cs).setNamed? name v = none → run (cs ++ [.set (.named name) v]) = run cs) ∧
    ∀ q, (run cs).setNamed? name v = some q →
      run (cs ++ [.set (.named name) v]) = q ∧
      (∀ r, r ≠ .named name → q.get r = (run cs).get r) ∧
      (q.getNamed name = v ↔ ¬ HasTwoUnderscores name ∨ v = .float 0.0) ∧
      ((q.getNamed name == v) = true ↔
        ¬ HasTwoUnderscores name ∧ (v == v) = true ∨
          HasTwoUnderscores name ∧ (.float 0.0 == v) = true) ∧
      (HasTwoUnderscores name → q.getNamed name = .float 0.0) := by
  refine ⟨?_, run_set (r := .named name) cs, fun q hset => ?_⟩
  · refine ((run_arranged cs).set?_eq_none_iff (r := .named name)).trans ?_
    rw [IsWritable, not_not]
  · obtain ⟨hrun, hothers, hseen, hsame, hunseen⟩ := run_set_some (r := .named name) cs hset
    have hbefore (hname : HasTwoUnderscores name) : (run cs).getNamed name = .float 0.0 :=
      (run_arranged cs).getNamed_unseen hname
    have hzero (hname : HasTwoUnderscores name) : q.getNamed name = .float 0.0 :=
      (hunseen hname).trans (hbefore hname)
    refine ⟨hrun, hothers, hseen.trans (or_congr_right' fun hname => ?_),
      hsame.trans (or_congr_right (and_congr_right fun hname => ?_)), hzero⟩
    · rw [get, hbefore (not_not.mp hname), eq_comm]
    · rw [get, hbefore hname]

/-- A name with two underscores is written and not seen, `_y` is predefined, and `y` is a name like
any other. -/
theorem getNamed_set_iff_underscores :
    (∃ q, (run []).setNamed? "__y" (.float 5.0) = some q ∧ q.getNamed "__y" = .float 0.0) ∧
    (∃ q, (run []).setNamed? "y" (.float 5.0) = some q ∧ q.getNamed "y" = .float 5.0) ∧
    (run []).setNamed? "_y" (.float 5.0) = none := by
  obtain ⟨-, -, htwo⟩ := getNamed_set_iff [] "__y" (.float 5.0)
  obtain ⟨-, -, hnone⟩ := getNamed_set_iff [] "y" (.float 5.0)
  have htwice : HasTwoUnderscores "__y" := ⟨['y'], rfl⟩
  have hplain : ¬ HasTwoUnderscores "y" := by
    unfold HasTwoUnderscores
    decide
  exact ⟨⟨_, rfl, (htwo _ rfl).2.2.2.2 htwice⟩, ⟨_, rfl, (hnone _ rfl).2.2.1.mpr (.inl hplain)⟩,
    (getNamed_set_iff [] "_y" (.float 5.0)).1.mpr (by decide)⟩

end Machining.Parameters
