import Machining.Proofs.JsonNumbers
import Machining.Proofs.LineIndex
import Machining.Proofs.Program
import Machining.Proofs.Quotes

namespace Machining.Json

inductive Legible : Json → Prop where
  | null : Legible .null
  | bool (b : Bool) : Legible (.bool b)
  | number {n : Number} (h : IsRead n) : Legible (.number n)
  | string {s : String} (h : Joined s.toList) : Legible (.string s)
  | array {items : List Json} (h : ∀ j ∈ items, Legible j) : Legible (.array items)
  | object {members : List (String × Json)} (distinct : (members.map (·.1)).Nodup)
    (keys : ∀ m ∈ members, Joined m.1.toList) (values : ∀ m ∈ members, Legible m.2) :
    Legible (.object members)

variable {j : Json} {cs rest : List Char} {fuel : Nat}

theorem legible_scalar? (h : scalar? cs = some (j, rest)) : Legible j := by
  unfold scalar? at h
  rcases Option.or_eq_some_iff.mp h with hnamed | ⟨-, hnumber⟩
  · obtain ⟨⟨word, k⟩, hmem, hfound⟩ := List.exists_of_findSome?_eq_some hnamed
    obtain ⟨more, -, heq⟩ := Option.map_eq_some_iff.mp hfound
    obtain ⟨rfl, -⟩ := Prod.mk.inj heq
    simp only [names, List.mem_cons, List.not_mem_nil, or_false, Prod.mk.injEq] at hmem
    rcases hmem with ⟨-, rfl⟩ | ⟨-, rfl⟩ | ⟨-, rfl⟩ | ⟨-, rfl⟩ | ⟨-, rfl⟩ | ⟨-, rfl⟩
    · exact .null
    · exact .bool true
    · exact .bool false
    · exact .number trivial
    · exact .number trivial
    · exact .number trivial
  · obtain ⟨⟨m, more⟩, hread, heq⟩ := Option.map_eq_some_iff.mp hnumber
    obtain ⟨rfl, -⟩ := Prod.mk.inj heq
    split at hread
    · exact .number (isRead_of_unsigned? hread)
    · exact .number (isRead_of_unsigned? hread)

def LegibleTable (t : Table String Json) : Prop := Legible (.object t.entries)

theorem LegibleTable.empty : LegibleTable .empty :=
  .object .nil (by simp [Table.empty]) (by simp [Table.empty])

theorem LegibleTable.put {t : Table String Json} {key : List Char} (h : LegibleTable t)
    (hkey : Joined key) (hj : Legible j) : LegibleTable (t.put (String.ofList key) j) := by
  cases h with
  | object distinct keys values =>
    refine .object (Table.nodup_keys_put distinct _ _) ?_ ?_
    · intro m hm
      rcases Table.mem_entries_put hm with hold | rfl | ⟨heq, -⟩
      · exact keys m hold
      · simpa using hkey
      · rw [beq_iff_eq.mp heq]
        simpa using hkey
    · intro m hm
      rcases Table.mem_entries_put hm with hold | rfl | ⟨-, heq⟩
      · exact values m hold
      · exact hj
      · rw [heq]
        exact hj

structure ReadsLegible (fuel : Nat) : Prop where
  value : ∀ {cs j rest}, value fuel cs = some (j, rest) → Legible j
  items : ∀ {cs js rest}, itemsFrom fuel cs = some (js, rest) → ∀ j ∈ js, Legible j
  members : ∀ {cs t t' rest}, LegibleTable t → membersFrom fuel cs t = some (t', rest) →
    LegibleTable t'

theorem legible_value_succ (h : ReadsLegible fuel) (hv : value (fuel + 1) cs = some (j, rest)) :
    Legible j := by
  unfold value at hv
  split at hv
  · obtain ⟨⟨s, more⟩, hread, heq⟩ := Option.map_eq_some_iff.mp hv
    obtain ⟨rfl, -⟩ := Prod.mk.inj heq
    exact .string (by simpa using joined_of_stringFrom hread)
  · split at hv
    · obtain ⟨rfl, -⟩ := Prod.mk.inj (Option.some.inj hv)
      exact .array (by simp)
    · obtain ⟨⟨js, more⟩, hread, heq⟩ := Option.map_eq_some_iff.mp hv
      obtain ⟨rfl, -⟩ := Prod.mk.inj heq
      exact .array (h.items hread)
  · split at hv
    · obtain ⟨rfl, -⟩ := Prod.mk.inj (Option.some.inj hv)
      exact LegibleTable.empty
    · obtain ⟨⟨t, more⟩, hread, heq⟩ := Option.map_eq_some_iff.mp hv
      obtain ⟨rfl, -⟩ := Prod.mk.inj heq
      exact h.members LegibleTable.empty hread
  · exact legible_scalar? hv

theorem legible_items_succ {js : List Json} (h : ReadsLegible fuel)
    (hi : itemsFrom (fuel + 1) cs = some (js, rest)) : ∀ j ∈ js, Legible j := by
  unfold itemsFrom at hi
  split at hi
  · cases hi
  · rename_i j more hread
    have hj := h.value hread
    split at hi
    · obtain ⟨⟨js', more'⟩, hread', heq⟩ := Option.map_eq_some_iff.mp hi
      obtain ⟨rfl, -⟩ := Prod.mk.inj heq
      exact List.forall_mem_cons.mpr ⟨hj, h.items hread'⟩
    · obtain ⟨rfl, -⟩ := Prod.mk.inj (Option.some.inj hi)
      exact List.forall_mem_singleton.mpr hj
    · cases hi

theorem legible_members_succ {t t' : Table String Json} (h : ReadsLegible fuel)
    (ht : LegibleTable t) (hm : membersFrom (fuel + 1) cs t = some (t', rest)) :
    LegibleTable t' := by
  unfold membersFrom at hm
  split at hm
  · split at hm
    · cases hm
    · rename_i key more hkey
      split at hm
      · split at hm
        · cases hm
        · rename_i j more' hread
          have hput := ht.put (joined_of_stringFrom hkey) (h.value hread)
          simp only at hm
          split at hm
          · exact h.members hput hm
          · obtain ⟨rfl, -⟩ := Prod.mk.inj (Option.some.inj hm)
            exact hput
          · cases hm
      · cases hm
  · cases hm

theorem readsLegible (fuel : Nat) : ReadsLegible fuel := by
  induction fuel with
  | zero =>
    constructor
    · intro cs j rest h
      cases h
    · intro cs js rest h
      cases h
    · intro cs t t' rest ht h
      cases h
  | succ fuel ih =>
    exact ⟨legible_value_succ ih, legible_items_succ ih, legible_members_succ ih⟩

theorem legible_of_ofText? {s : String} (h : ofText? s = some j) : Legible j := by
  unfold ofText? at h
  simp only at h
  split at h
  · rename_i k more hread
    split at h
    · obtain rfl := Option.some.inj h
      exact (readsLegible _).value hread
    · cases h
  · cases h

theorem Ends.cons {c : Char} (h : c = ',' ∨ c = ']' ∨ c = '\x7d' ∨ c = '\n') (rest : List Char) :
    Ends (c :: rest) := by
  simpa [Ends] using h

/-- The text of a value is read to its end, whatever its spacing. -/
def ReadsBack (j : Json) : Prop :=
  ∀ s fuel rest, (chars s j).length ≤ fuel → Ends rest →
    value fuel (chars s j ++ rest) = some (j, rest)

/-- A value starts with something else than a blank or a closing bracket. -/
theorem solid_of_value {r : Json × List Char} (h : value fuel cs = some r) :
    ∃ c cs', cs = c :: cs' ∧ isSpace c = false ∧ c ≠ ']' := by
  cases fuel with
  | zero => cases h
  | succ fuel =>
    cases cs with
    | nil => cases h
    | cons c cs =>
      refine ⟨c, cs, rfl, ?_, ?_⟩
      · rw [Bool.eq_false_iff]
        intro hspace
        simp only [isSpace, Bool.or_eq_true, decide_eq_true_eq] at hspace
        rcases hspace with ((rfl | rfl) | rfl) | rfl <;> cases h
      · rintro rfl
        cases h

theorem skipSpaces_cons {c : Char} (h : isSpace c = false) (cs : List Char) :
    skipSpaces (c :: cs) = c :: cs := by
  rw [skipSpaces, List.dropWhile_cons_of_neg (by simp [h])]

theorem skipSpaces_append {blanks : List Char} (h : ∀ c ∈ blanks, isSpace c = true)
    (cs : List Char) : skipSpaces (blanks ++ cs) = skipSpaces cs := by
  rw [skipSpaces, List.dropWhile_append_of_pos h, skipSpaces]

theorem isSpace_gap (s : Spacing) : ∀ c ∈ s.gap, isSpace c = true := by
  intro c hc
  cases s with
  | close => cases hc
  | lines depth =>
    rcases List.mem_cons.mp hc with rfl | hblank
    · rfl
    · rw [List.eq_of_mem_replicate hblank]
      rfl

/-- A gap ends a value, or lets something behind it do so. -/
theorem Ends.gap (s : Spacing) {rest : List Char} (h : Ends rest) : Ends (s.gap ++ rest) := by
  cases s with
  | close => exact h
  | lines depth => exact .cons (.inr (.inr (.inr rfl))) _

theorem value_of_scalar? {r : Json × List Char} (h : scalar? cs = some r) (fuel : Nat) :
    value (fuel + 1) cs = some r := by
  unfold value
  split
  · cases h
  · cases h
  · cases h
  · exact h

theorem ReadsBack.skipSpaces (h : ReadsBack j) (s : Spacing) (cs : List Char) :
    Json.skipSpaces (chars s j ++ cs) = chars s j ++ cs := by
  have hread := h s _ [] le_rfl Ends.nil
  rw [List.append_nil] at hread
  obtain ⟨c, cs', hcs, hspace, -⟩ := solid_of_value hread
  rw [hcs, List.cons_append, skipSpaces_cons hspace]

/-- An item is read, and what follows it tells whether there are more. -/
theorem itemsFrom_item (hj : ReadsBack j) (s : Spacing) (hfuel : (chars s.inner j).length ≤ fuel)
    (cs : List Char) :
    itemsFrom (fuel + 1) (skipSpaces (s.inner.gap ++ (chars s.inner j ++ ',' :: cs))) =
        (itemsFrom fuel (skipSpaces cs)).map (fun r => (j :: r.1, r.2)) ∧
      itemsFrom (fuel + 1) (skipSpaces (s.inner.gap ++ (chars s.inner j ++ (s.gap ++ ']' :: cs)))) =
        some ([j], cs) := by
  constructor
  · rw [skipSpaces_append (isSpace_gap _), hj.skipSpaces, itemsFrom]
    simp only [hj _ fuel _ hfuel (.cons (.inl rfl) cs),
      skipSpaces_cons (show isSpace ',' = false from rfl)]
  · rw [skipSpaces_append (isSpace_gap _), hj.skipSpaces, itemsFrom]
    simp only [hj _ fuel _ hfuel (.gap s (.cons (.inr (.inl rfl)) cs)),
      skipSpaces_append (isSpace_gap s), skipSpaces_cons (show isSpace ']' = false from rfl)]

theorem itemsFrom_closed (fuel : Nat) (cs : List Char) : itemsFrom fuel (']' :: cs) = none := by
  cases fuel with
  | zero => rfl
  | succ fuel =>
    rw [itemsFrom]
    cases hread : value fuel (']' :: cs) with
    | none => rfl
    | some r =>
      obtain ⟨c, cs', hcs, -, hother⟩ := solid_of_value hread
      exact absurd (List.cons.inj hcs).1.symm hother

/-- The text of several values, up to the bracket behind them. -/
theorem itemsFrom_chars {items : List Json} (h : ∀ j ∈ items, ReadsBack j) (hne : items ≠ [])
    (s : Spacing) (hfuel : (itemChars s items).length + 1 ≤ fuel) (rest : List Char) :
    itemsFrom fuel (skipSpaces (itemChars s items ++ ']' :: rest)) = some (items, rest) := by
  induction items generalizing fuel with
  | nil => exact absurd rfl hne
  | cons j js ih =>
    obtain ⟨fuel, rfl⟩ : ∃ k, fuel = k + 1 := ⟨fuel - 1, by omega⟩
    have hj := h j List.mem_cons_self
    cases js with
    | nil =>
      simp only [itemChars, List.append_assoc, List.length_append] at hfuel ⊢
      exact (itemsFrom_item hj s (by omega) rest).2
    | cons k ks =>
      simp only [itemChars, List.length_append, List.length_cons, List.append_assoc,
        List.cons_append] at hfuel ⊢
      -- the comma pays for the step, so what is left of the fuel is enough for the others
      have hothers : ∀ j ∈ k :: ks, ReadsBack j := fun j hmem => h j (List.mem_cons_of_mem _ hmem)
      have hread := ih hothers (by simp) (show (itemChars s (k :: ks)).length + 1 ≤ fuel by omega)
      rw [(itemsFrom_item hj s (by omega) _).1, hread]
      rfl

theorem put_of_not_mem {t : Table String Json} {k : String} (h : k ∉ t.keys) (j : Json) :
    t.put k j = ⟨t.entries ++ [(k, j)]⟩ := by
  obtain ⟨entries⟩ := t
  simp only [Table.put, Table.mk.injEq]
  induction entries with
  | nil => rfl
  | cons e es ih =>
    rw [Table.keys, List.map_cons, List.mem_cons, not_or] at h
    rw [Table.put.go, if_neg (by simpa using Ne.symm h.1), ih h.2, List.cons_append]

theorem quoted_append (t : String) (cs : List Char) :
    quoted t ++ cs = '"' :: (t.toList.flatMap escaped ++ '"' :: cs) := by
  simp [quoted]

theorem skipSpaces_colon (s : Spacing) (cs : List Char) :
    ∃ blanks, skipSpaces (s.colon ++ cs) = ':' :: (blanks ++ cs) ∧
      ∀ c ∈ blanks, isSpace c = true := by
  cases s with
  | close => exact ⟨[], skipSpaces_cons rfl _, by simp⟩
  | lines depth => exact ⟨[' '], skipSpaces_cons rfl _, by simp [isSpace]⟩

/-- A member is put, and what follows it tells whether there are more. -/
theorem membersFrom_member {k : String} (hkey : Joined k.toList) (hj : ReadsBack j) (s : Spacing)
    (hfuel : (chars s.inner j).length ≤ fuel) (t : Table String Json) (cs : List Char) :
    membersFrom (fuel + 1)
        (skipSpaces (s.inner.gap ++ (quoted k ++ (s.colon ++ (chars s.inner j ++ ',' :: cs))))) t =
        membersFrom fuel (skipSpaces cs) (t.put k j) ∧
      membersFrom (fuel + 1)
        (skipSpaces (s.inner.gap ++
          (quoted k ++ (s.colon ++ (chars s.inner j ++ (s.gap ++ '\x7d' :: cs)))))) t =
        some (t.put k j, cs) := by
  have hname : String.ofList k.toList = k := String.ofList_toList
  constructor
  · obtain ⟨blanks, hcolon, hblanks⟩ := skipSpaces_colon s (chars s.inner j ++ ',' :: cs)
    rw [skipSpaces_append (isSpace_gap _), quoted_append, skipSpaces_cons rfl, membersFrom]
    simp only [stringFrom_quoted hkey, hcolon, skipSpaces_append hblanks, hj.skipSpaces,
      hj _ fuel _ hfuel (.cons (.inl rfl) cs), hname]
    rfl
  · obtain ⟨blanks, hcolon, hblanks⟩ :=
      skipSpaces_colon s (chars s.inner j ++ (s.gap ++ '\x7d' :: cs))
    rw [skipSpaces_append (isSpace_gap _), quoted_append, skipSpaces_cons rfl, membersFrom]
    simp only [stringFrom_quoted hkey, hcolon, skipSpaces_append hblanks, hj.skipSpaces,
      hj _ fuel _ hfuel (.gap s (.cons (.inr (.inr (.inl rfl))) cs)), hname,
      skipSpaces_append (isSpace_gap s)]
    rfl

/-- The text of several members, up to the brace behind them. -/
theorem membersFrom_chars {members : List (String × Json)} {t : Table String Json}
    (hkeys : ∀ m ∈ members, Joined m.1.toList) (h : ∀ m ∈ members, ReadsBack m.2)
    (distinct : ((t.entries ++ members).map (·.1)).Nodup) (hne : members ≠ []) (s : Spacing)
    (hfuel : (memberChars s members).length + 1 ≤ fuel) (rest : List Char) :
    membersFrom fuel (skipSpaces (memberChars s members ++ '\x7d' :: rest)) t =
      some (⟨t.entries ++ members⟩, rest) := by
  induction members generalizing fuel t with
  | nil => exact absurd rfl hne
  | cons m ms ih =>
    obtain ⟨k, j⟩ := m
    obtain ⟨fuel, rfl⟩ : ∃ k, fuel = k + 1 := ⟨fuel - 1, by omega⟩
    have hj : ReadsBack j := h (k, j) List.mem_cons_self
    have hkey : Joined k.toList := hkeys (k, j) List.mem_cons_self
    have hput : t.put k j = ⟨t.entries ++ [(k, j)]⟩ := by
      apply put_of_not_mem
      intro hmem
      rw [List.map_append, List.nodup_append] at distinct
      exact distinct.2.2 k hmem k (by simp) rfl
    cases ms with
    | nil =>
      simp only [memberChars, List.append_assoc, List.length_append] at hfuel ⊢
      rw [(membersFrom_member hkey hj s (by omega) t rest).2, hput]
    | cons m ms =>
      simp only [memberChars, List.append_assoc, List.length_append, List.length_cons,
        List.cons_append] at hfuel ⊢
      have hread :=
        @ih fuel ⟨t.entries ++ [(k, j)]⟩ (fun m hm => hkeys m (List.mem_cons_of_mem _ hm))
        (fun m hm => h m (List.mem_cons_of_mem _ hm)) (by simpa using distinct) (by simp) (by omega)
      rw [(membersFrom_member hkey hj s (by omega) t _).1, hput, hread, List.append_assoc,
        List.singleton_append]

theorem ReadsBack.of_scalar? (h : ∀ s rest, Ends rest →
    scalar? (chars s j ++ rest) = some (j, rest)) :
    ReadsBack j := by
  intro s fuel rest hfuel hrest
  cases fuel with
  | zero =>
    have hnil : chars s j = [] := List.length_eq_zero_iff.mp (Nat.le_zero.mp hfuel)
    have hread := h s [] Ends.nil
    rw [hnil] at hread
    cases hread
  | succ fuel => exact value_of_scalar? (h s rest hrest) fuel

theorem readsBack_string {t : String} (h : Joined t.toList) : ReadsBack (.string t) := by
  intro s fuel rest hfuel _
  obtain ⟨fuel, rfl⟩ : ∃ k, fuel = k + 1 := by
    refine ⟨fuel - 1, ?_⟩
    simp only [chars, quoted, List.cons_append, List.length_cons] at hfuel
    omega
  rw [chars, quoted_append, value, stringFrom_quoted h]
  simp

theorem readsBack_array {items : List Json} (h : ∀ j ∈ items, ReadsBack j) :
    ReadsBack (.array items) := by
  intro s fuel rest hfuel _
  simp only [chars, List.length_cons, List.length_append, List.length_nil, List.cons_append,
    List.append_assoc, List.nil_append] at hfuel ⊢
  obtain ⟨fuel, rfl⟩ : ∃ k, fuel = k + 1 := ⟨fuel - 1, by omega⟩
  by_cases hne : items = []
  · subst hne
    rfl
  · have hread := @itemsFrom_chars fuel items h hne s (by omega) rest
    rw [value]
    split
    · rename_i hclosed
      rw [hclosed, itemsFrom_closed] at hread
      cases hread
    · rw [hread]
      rfl

theorem readsBack_object {members : List (String × Json)} (distinct : (members.map (·.1)).Nodup)
    (keys : ∀ m ∈ members, Joined m.1.toList) (h : ∀ m ∈ members, ReadsBack m.2) :
    ReadsBack (.object members) := by
  intro s fuel rest hfuel _
  simp only [chars, List.length_cons, List.length_append, List.length_nil, List.cons_append,
    List.append_assoc, List.nil_append] at hfuel ⊢
  obtain ⟨fuel, rfl⟩ : ∃ k, fuel = k + 1 := ⟨fuel - 1, by omega⟩
  cases members with
  | nil => rfl
  | cons m ms =>
    have hread :=
      @membersFrom_chars fuel (m :: ms) .empty keys h distinct (by simp) s (by omega) rest
    rw [value]
    split
    · rename_i hclosed
      rw [hclosed] at hread
      cases fuel <;> cases hread
    · rw [hread]
      rfl

theorem Legible.readsBack (h : Legible j) : ReadsBack j := by
  induction h with
  | null => exact .of_scalar? fun _ rest _ => scalar?_name (by simp [names]) rest
  | bool b =>
    cases b with
    | true => exact .of_scalar? fun _ rest _ => scalar?_name (by simp [names]) rest
    | false => exact .of_scalar? fun _ rest _ => scalar?_name (by simp [names]) rest
  | number h => exact .of_scalar? fun _ rest hrest => scalar?_numberText h hrest
  | string h => exact readsBack_string h
  | array h ih => exact readsBack_array ih
  | object distinct keys values ih => exact readsBack_object distinct keys ih

/-- A legible value is read back from its text, whatever its spacing. -/
theorem ofText?_text (h : Legible j) (s : Spacing) : ofText? (j.text s) = some j := by
  have hread := h.readsBack s (2 * (chars s j).length + 2) [] (by omega) Ends.nil
  have hskip := h.readsBack.skipSpaces s []
  rw [List.append_nil] at hread hskip
  unfold ofText? text
  simp only [String.toList_ofList, hskip, hread]
  rfl

example : (Json.array [.bool true, .object [("axes", .array [])]]).text (.lines 0) =
    "[\n  true,\n  \x7b\n    \"axes\": []\n  \x7d\n]" := by
  decide +kernel

end Machining.Json
