import Machining.Proofs.Extended
import Machining.Proofs.Numeral
import Machining.Proofs.ParameterHistory

namespace Machining

namespace Table
variable {κ κ' ν : Type} [DecidableEq κ] [DecidableEq κ']

theorem get?_foldl_put (l : List (κ × ν)) (t : Table κ ν) (k : κ) :
    (l.foldl (fun t e => t.put e.1 e.2) t).get? k = ((ofList l).get? k).or (t.get? k) := by
  induction l generalizing t with
  | nil => rfl
  | cons e l ih =>
    unfold ofList
    rw [List.foldl_cons, List.foldl_cons, ih, ih, get?_put, get?_put]
    by_cases hk : k = e.1 <;> simp [hk, empty, get?]

/-- Of the entries with one key the last counts. -/
theorem get?_ofList_append (l l' : List (κ × ν)) (k : κ) :
    (ofList (l ++ l')).get? k = ((ofList l').get? k).or ((ofList l).get? k) := by
  rw [← get?_foldl_put]
  simp only [ofList, List.foldl_append]

theorem get?_ofList_cons (e : κ × ν) (l : List (κ × ν)) (k : κ) :
    (ofList (e :: l)).get? k = ((ofList l).get? k).or (if k = e.1 then some e.2 else none) := by
  rw [ofList, List.foldl_cons, get?_foldl_put, get?_put]
  rfl

theorem get?_ofList_eq_none {l : List (κ × ν)} {k : κ} (h : ∀ e ∈ l, e.1 ≠ k) :
    (ofList l).get? k = none := by
  induction l with
  | nil => rfl
  | cons e l ih =>
    rw [get?_ofList_cons, ih fun e he => h e (List.mem_cons_of_mem _ he),
      if_neg (h e List.mem_cons_self).symm]
    rfl

def respell (f : κ → κ') (t : Table κ ν) : List (κ' × ν) := t.entries.map fun e => (f e.1, e.2)

theorem get?_respell {f : κ → κ'} (hf : Function.Injective f) {t : Table κ ν}
    (h : t.keys.Nodup) (k : κ) : (ofList (t.respell f)).get? (f k) = t.get? k := by
  obtain ⟨entries⟩ := t
  induction entries with
  | nil => rfl
  | cons e es ih =>
    rw [keys, List.map_cons, List.nodup_cons] at h
    have htail : (ofList (es.map fun e => (f e.1, e.2))).get? (f k) = (⟨es⟩ : Table κ ν).get? k :=
      ih h.2
    rw [respell, List.map_cons, get?_ofList_cons, htail]
    by_cases hk : k = e.1
    · have hnone : (⟨es⟩ : Table κ ν).get? k = none := get?_eq_none_iff.mpr (hk ▸ h.1)
      rw [hnone, if_pos (congrArg f hk)]
      simp [get?, hk]
    · rw [if_neg fun he => hk (hf he), Option.or_none]
      simp [get?, Ne.symm hk]

omit [DecidableEq κ] in
theorem get?_respell_eq_none {f : κ → κ'} {t : Table κ ν} {key : κ'} (h : ∀ k ∈ t.keys, f k ≠ key) :
    (ofList (t.respell f)).get? key = none := by
  refine get?_ofList_eq_none fun e he => ?_
  obtain ⟨e', he', rfl⟩ := List.mem_map.mp he
  exact h e'.1 (List.mem_map_of_mem he')

end Table

namespace Decimal
open Expression

theorem natDigits_injective : Function.Injective natDigits := by
  intro n m h
  rw [← ofDigitChars_natDigits n, h, ofDigitChars_natDigits]

theorem natDigits_ne_cons {c : Char} (hc : c.isDigit = false) (n : Nat) (cs : List Char) :
    natDigits n ≠ c :: cs := by
  intro h
  have hdigit := decimals_natDigits n c (by rw [h]; exact List.mem_cons_self)
  rw [hc] at hdigit
  cases hdigit

theorem intText_injective : Function.Injective intText := by
  intro n m h
  have htext := congrArg String.toList h
  rw [toList_intText, toList_intText] at htext
  split at htext <;> split at htext
  · have := natDigits_injective (List.cons.inj htext).2
    omega
  · exact absurd htext.symm (natDigits_ne_cons (by decide) _ _)
  · exact absurd htext (natDigits_ne_cons (by decide) _ _)
  · have := natDigits_injective htext
    omega

theorem allDigits_natDigits (n : Nat) : AllDigits (natDigits n) := by
  intro c hc
  have hrange := Text.code_of_isDigit (decimals_natDigits n c hc)
  have hlow : c.toNat < 0x80 := by omega
  simp [Text.isDigit, Text.digitValue?, hlow, hrange]

theorem digitsValue_natDigits (n : Nat) : Text.digitsValue (natDigits n) = n := by
  have hfold (ds : List Char) (hd : Decimals ds) (k : Nat) :
      ds.foldl (fun n c => 10 * n + (Text.digitValue? c).getD 0) k = Nat.ofDigitChars 10 ds k := by
    induction ds generalizing k with
    | nil => rfl
    | cons d ds ih =>
      have hrange := Text.code_of_isDigit (hd d List.mem_cons_self)
      have hlow : d.toNat < 0x80 := by omega
      have hdigit : (Text.digitValue? d).getD 0 = d.toNat - '0'.toNat := by
        rw [Text.digitValue?, if_pos hlow, if_pos hrange]
        rfl
      rw [List.foldl_cons, ih fun c hc => hd c (List.mem_cons_of_mem _ hc),
        Nat.ofDigitChars_cons, hdigit]
  rw [Text.digitsValue, hfold _ (decimals_natDigits n), ofDigitChars_natDigits]

/-- A whole number without a sign is read back from its digits. -/
theorem intOfText?_natText {n : Nat} (h : (natDigits n).length ≤ Text.digitLimit) :
    intOfText? (natText n) = some (n : Int) := by
  have hsolid : unpad (natDigits n) = natDigits n :=
    unpad_solid fun c hc => Text.solid_of_class (.inl (allDigits_natDigits n c hc))
  have hsign : sign (natDigits n) = (false, natDigits n) := by
    unfold sign
    split
    · rename_i hd
      exact absurd hd (natDigits_ne_cons (by decide) _ _)
    · rename_i hd
      exact absurd hd (natDigits_ne_cons (by decide) _ _)
    · rfl
  have hrow : digitRow (natDigits n) = (natDigits n, []) := by
    rw [← List.append_nil (natDigits n), digitRow_append (allDigits_natDigits n) (by simp [Stops]),
      List.append_nil]
  obtain ⟨d, ds, hds⟩ := List.exists_cons_of_ne_nil (natDigits_ne n)
  rw [intOfText?, natText, String.toList_ofList, hsolid, hsign]
  simp only [hrow]
  rw [hds] at h ⊢
  simp only [Bool.false_eq_true, if_false]
  rw [if_neg (by omega), ← hds, digitsValue_natDigits]

end Decimal

namespace Reference
open Decimal Expression

def text : Reference → String
  | numbered n => "#" ++ intText n
  | named name => "#<" ++ name ++ ">"

def key : Reference → String
  | numbered n => Parameters.numberKey n
  | named name => Parameters.nameKey name

/-- Numbers without a sign and not too long to be read, and names that the closing bracket ends. -/
def WellFormed : Reference → Prop
  | numbered n => 0 ≤ n ∧ (natDigits n.natAbs).length ≤ Text.digitLimit
  | named name => name ≠ "" ∧ '>' ∉ name.toList

variable {r : Reference}

theorem ofText?_text (h : r.WellFormed) : ofText? r.text = some r := by
  cases r with
  | numbered n =>
    obtain ⟨hn, hlength⟩ := h
    have htext : (intText n).toList = natDigits n.natAbs := by
      rw [toList_intText, if_neg (by omega)]
    have hread : intOfText? (String.ofList (natDigits n.natAbs)) = some n := by
      rw [← natText, intOfText?_natText hlength, Int.natAbs_of_nonneg hn]
    have htoList : (text (numbered n)).toList = '#' :: natDigits n.natAbs := by
      rw [text, String.toList_append, htext]
      rfl
    rw [ofText?, htoList]
    split
    · rename_i hcons
      exact absurd (List.cons.inj hcons).2 (natDigits_ne_cons (by decide) _ _)
    · rename_i hcons
      rw [← (List.cons.inj hcons).2, hread]
      rfl
    · rename_i hno
      exact absurd rfl (hno _)
  | named name =>
    have htoList : (text (named name)).toList = '#' :: '<' :: (name.toList ++ ['>']) := by
      simp [text]
    rw [ofText?, htoList]
    simp

/-- References as parameters have them are references as expressions read them. -/
theorem exists_reading (h : r.WellFormed) :
    ∃ e : Expression.Reference, String.ofList e.text = r.text ∧ e.key = r.key := by
  cases r with
  | numbered n =>
    have htext : natDigits n.natAbs = (intText n).toList := by
      rw [toList_intText, if_neg (by have := h.1; omega)]
    refine ⟨.number (natDigits n.natAbs) (natDigits_ne _) (allDigits_natDigits _), ?_, ?_⟩
    · simp [Expression.Reference.text, Expression.Reference.body, htext, text, String.ofList_cons]
    · simp [Expression.Reference.key, Expression.Reference.label, htext, key, Parameters.numberKey,
        String.ofList_cons]
  | named name =>
    refine ⟨.name name.toList (by simpa using h.1) h.2, ?_, ?_⟩
    all_goals refine String.toList_inj.mp ?_
    · simp [Expression.Reference.text, Expression.Reference.body, text]
    · simp [Expression.Reference.key, Expression.Reference.label, key, Parameters.nameKey]

end Reference

namespace Parameters
open Decimal
variable {p : Parameters} {r : Reference} {v : Number}

theorem nameKey_injective : Function.Injective nameKey := by
  intro name name' h
  have htoList := congrArg String.toList h
  simp only [nameKey, String.toList_append] at htoList
  exact String.toList_inj.mp (List.append_cancel_left htoList)

theorem numberKey_injective : Function.Injective numberKey :=
  fun _ _ h => intText_injective (nameKey_injective h)

/-- A number is no global name. -/
theorem isGlobalName_intText (n : Int) : isGlobalName (intText n) = false := by
  have hhead : ∀ cs, (intText n).toList ≠ '_' :: cs := by
    intro cs
    rw [Expression.toList_intText]
    split
    · simp
    · exact natDigits_ne_cons (by decide) _ _
  unfold isGlobalName
  split
  · rfl
  · rename_i hcs
    exact absurd hcs (hhead _)
  · rfl

theorem get?_bindings (p : Parameters) (key : String) :
    p.bindings.get? key =
      ((Table.ofList (p.predefined.respell nameKey)).get? key).or
        (((Table.ofList (p.globals.respell nameKey)).get? key).or
          (((Table.ofList (p.locals.respell nameKey)).get? key).or
            (((Table.ofList (p.system.respell numberKey)).get? key).or
              ((Table.ofList (p.numbered.respell numberKey)).get? key)))) := by
  have hbindings : p.bindings = Table.ofList
      (p.numbered.respell numberKey ++ p.system.respell numberKey ++
      p.locals.respell nameKey ++ p.globals.respell nameKey ++ p.predefined.respell nameKey) := rfl
  rw [hbindings, Table.get?_ofList_append, Table.get?_ofList_append, Table.get?_ofList_append,
    Table.get?_ofList_append]

/-- The local that expressions find in place of a parameter with the same key, or of a name with two
underscores. -/
def shadow? (p : Parameters) : Reference → Option Number
  | .numbered n => p.locals.get? (intText n)
  | .named name => if startsWithUnderscore name then p.locals.get? name else none

namespace Sound

theorem get?_number (h : p.Sound) (n : Int) :
    p.bindings.get? (numberKey n) = (p.locals.get? (intText n)).or
      ((p.system.get? n).or (p.numbered.get? n)) := by
  have hpredefined : p.predefined.get? (intText n) = none := Table.get?_eq_none_iff.mpr fun hn => by
    have := h.toArranged.isGlobalName_predefined hn
    simp [isGlobalName_intText] at this
  have hglobals : p.globals.get? (intText n) = none := Table.get?_eq_none_iff.mpr fun hn => by
    have := h.globalNames _ hn
    simp [isGlobalName_intText] at this
  have hkey : numberKey n = nameKey (intText n) := rfl
  rw [get?_bindings, Table.get?_respell numberKey_injective h.system.distinct,
    Table.get?_respell numberKey_injective h.numbered.distinct, hkey,
    Table.get?_respell nameKey_injective h.predefined.distinct,
    Table.get?_respell nameKey_injective h.globals.distinct,
    Table.get?_respell nameKey_injective h.locals.distinct, hpredefined, hglobals, Option.none_or,
    Option.none_or]

theorem get?_name (h : p.Sound) {name : String}
    (hv : ((p.predefined.get? name).or (p.globals.get? name)).or (p.locals.get? name) = some v) :
    p.bindings.get? (nameKey name) = some v := by
  rw [get?_bindings, Table.get?_respell nameKey_injective h.predefined.distinct,
    Table.get?_respell nameKey_injective h.globals.distinct,
    Table.get?_respell nameKey_injective h.locals.distinct, ← Option.or_assoc,
    ← Option.or_assoc, hv]
  rfl

/-- Expressions find the parameter, unless a local stands before it. -/
theorem get?_key (h : p.Sound) (hr : IsKept r ∨ p.Stores r) :
    p.bindings.get? r.key = some ((p.shadow? r).getD (p.get r)) := by
  cases r with
  | numbered n =>
    have hfound : n ∈ p.system.keys ∨ n ∈ p.numbered.keys := by
      rw [h.systemKeys]
      exact hr
    rw [Table.mem_keys_iff, Table.mem_keys_iff] at hfound
    rw [Reference.key, h.get?_number, shadow?, get, getNumbered]
    cases p.locals.get? (intText n) with
    | some v => rfl
    | none =>
      rcases hfound with ⟨v, hv⟩ | ⟨v, hv⟩
      · simp [hv]
      · cases p.system.get? n <;> simp [hv]
  | named name =>
    refine h.get?_name ?_
    have hlocals (hglobal : isGlobalName name = true) : p.locals.get? name = none :=
      Table.get?_eq_none_iff.mpr fun hn => by simp [h.localNames name hn] at hglobal
    simp only [shadow?, get, getNamed]
    cases hpredefined : p.predefined.get? name with
    | some v =>
      have hglobal := h.toArranged.isGlobalName_predefined (Table.mem_keys_iff.mpr ⟨v, hpredefined⟩)
      simp [hlocals hglobal]
    | none =>
      cases hglobals : p.globals.get? name with
      | some v =>
        have hglobal := h.globalNames name (Table.mem_keys_iff.mpr ⟨v, hglobals⟩)
        simp [hlocals hglobal, hglobals, (isGlobalName_iff.mp hglobal).1]
      | none =>
        obtain ⟨v, hv⟩ : ∃ v, p.locals.get? name = some v := by
          rw [← Table.mem_keys_iff]
          rw [Table.get?_eq_none_iff] at hpredefined hglobals
          rcases hr with hkept | hglobal | hlocal
          · exact absurd (h.predefinedKeys ▸ hkept) hpredefined
          · exact absurd hglobal hglobals
          · exact hlocal
        by_cases hunder : startsWithUnderscore name = true <;> simp [hv, hunder]

/-- Expressions find nothing under a key that nothing kept or stored has. -/
theorem get?_key_eq_none (h : p.Sound) (hr : ∀ r', r'.key = r.key → ¬ IsKept r' ∧ ¬ p.Stores r') :
    p.bindings.get? r.key = none ∧ p.get r = .float 0.0 := by
  constructor
  · rw [get?_bindings, Table.get?_respell_eq_none, Table.get?_respell_eq_none,
      Table.get?_respell_eq_none, Table.get?_respell_eq_none, Table.get?_respell_eq_none]
    · rfl
    · exact fun n hn hkey => (hr (.numbered n) hkey).2 hn
    · rw [h.systemKeys]
      exact fun n hn hkey => (hr (.numbered n) hkey).1 hn
    · exact fun name hname hkey => (hr (.named name) hkey).2 (.inr hname)
    · exact fun name hname hkey => (hr (.named name) hkey).2 (.inl hname)
    · rw [h.predefinedKeys]
      exact fun name hname hkey => (hr (.named name) hkey).1 hname
  · obtain ⟨hkept, hstores⟩ := hr r rfl
    cases r with
    | numbered n =>
      have hsystem : p.system.get? n = none := Table.get?_eq_none_iff.mpr (h.systemKeys ▸ hkept)
      have hnumbered : p.numbered.get? n = none := Table.get?_eq_none_iff.mpr hstores
      simp [get, getNumbered, hsystem, hnumbered]
    | named name =>
      have hpredefined : p.predefined.get? name = none :=
        Table.get?_eq_none_iff.mpr (h.predefinedKeys ▸ hkept)
      have hglobals : p.globals.get? name = none :=
        Table.get?_eq_none_iff.mpr fun hn => hstores (.inl hn)
      have hlocals : p.locals.get? name = none :=
        Table.get?_eq_none_iff.mpr fun hn => hstores (.inr hn)
      simp only [get, getNamed, hpredefined]
      split <;> simp [hglobals, hlocals]

theorem exact_get (h : p.Sound) (r : Reference) : (p.get r).Exact := by
  have hzero : (Number.float 0.0).Exact := ⟨0.0, Number.exact_float (by decide)⟩
  cases r with
  | numbered n => exact h.system.getD (h.numbered.getD hzero n) n
  | named name =>
    simp only [get, getNamed]
    split
    · rename_i v hv
      exact h.predefined.exact name v hv
    · split
      · exact h.globals.getD hzero name
      · exact h.locals.getD hzero name

theorem exact_found (h : p.Sound) (r : Reference) : ((p.shadow? r).getD (p.get r)).Exact := by
  cases r with
  | numbered n => exact h.locals.getD (h.exact_get _) (intText n)
  | named name =>
    simp only [shadow?]
    split
    · exact h.locals.getD (h.exact_get _) name
    · exact h.exact_get (.named name)

end Sound

/-- A parameter that the machine keeps, or that a program has set and nothing has cleared since. -/
def Known (cs : List Change) (r : Reference) : Prop := IsKept r ∨ WasSet cs r

/-- A local of another value stands before a parameter. -/
def Hidden (p : Parameters) (r : Reference) : Prop := ∃ w ∈ p.shadow? r, (w == p.get r) = false

theorem beq_iff_not_hidden {x : Float} (h : ((p.shadow? r).getD (p.get r) == .float x) = true) :
    (p.get r == .float x) = true ↔ ¬ Hidden p r := by
  unfold Hidden
  cases hshadow : p.shadow? r with
  | none =>
    rw [hshadow] at h
    simpa using h
  | some w =>
    rw [hshadow, Option.getD_some] at h
    have hsame : (p.get r == .float x) = true ↔ (w == p.get r) = true :=
      ⟨fun hget => BEq.trans h (BEq.symm hget), fun hw => BEq.trans (BEq.symm hw) h⟩
    simp [hsame]

/-- After any requests with values that binary64 holds, a parameter that is known evaluates without
a report, and to the value that its table has exactly if no local of another value stands before it.
Where nothing known has its key, the value is zero both ways, and an expression reports it. -/
theorem evaluate_run (cs : List Change) (hcs : ∀ c ∈ cs, ∀ v ∈ c.value?, v.Exact) (r : Reference)
    (hr : r.WellFormed) (line : Int) :
    Reference.ofText? r.text = some r ∧
    (Known cs r → ∃ x, Expression.evaluate r.text (run cs).bindings line = ⟨[], .ok x⟩ ∧
      (((run cs).get r == .float x) = true ↔ ¬ Hidden (run cs) r)) ∧
    ((∀ r', r'.key = r.key → ¬ Known cs r') → (run cs).get r = .float 0.0 ∧
      Expression.evaluate r.text (run cs).bindings line =
        ⟨[.onLine line .runtime ("Undefined variable: " ++ r.text)], .ok 0.0⟩) := by
  obtain ⟨hsound, hstores⟩ := run_sound cs hcs
  obtain ⟨e, htext, hkey⟩ := r.exists_reading hr
  refine ⟨Reference.ofText?_text hr, fun hknown => ?_, fun hunknown => ?_⟩
  · have hfound := hsound.get?_key (hknown.imp_right (hstores r).mpr)
    obtain ⟨x, hx⟩ := hsound.exact_found r
    refine ⟨x, ?_, beq_iff_not_hidden hx.same⟩
    rw [← htext]
    exact Expression.evaluate_reference (hkey ▸ hfound) hx
  · have hnone := hsound.get?_key_eq_none (r := r) fun r' hr' =>
      ⟨fun hkept => hunknown r' hr' (.inl hkept),
        fun hset => hunknown r' hr' (.inr ((hstores r').mp hset))⟩
    refine ⟨hnone.2, ?_⟩
    rw [← htext]
    exact Expression.evaluate_undefined (hkey ▸ hnone.1)

def clashes : List Change :=
  [.set (.numbered 5) (.float 2.5), .assign "#<5>" (.float 7.0) 1, .set (.named "__a") (.float 5.0),
    .set (.numbered 6) (.float 3.0)]

/-- Of `#5` and `#<__a>` expressions see another value than the tables have, of `#6` the same, and
`#8` they report. -/
theorem evaluate_run_clashes :
    (∃ x, Expression.evaluate (Reference.numbered 5).text (run clashes).bindings 1 = ⟨[], .ok x⟩ ∧
      ((run clashes).get (.numbered 5) == .float x) = false) ∧
    (∃ x, Expression.evaluate (Reference.named "__a").text (run clashes).bindings 1 = ⟨[], .ok x⟩ ∧
      ((run clashes).get (.named "__a") == .float x) = false) ∧
    (∃ x, Expression.evaluate (Reference.numbered 6).text (run clashes).bindings 1 = ⟨[], .ok x⟩ ∧
      ((run clashes).get (.numbered 6) == .float x) = true) ∧
    Expression.evaluate (Reference.numbered 8).text (run clashes).bindings 1 =
      ⟨[.onLine 1 .runtime ("Undefined variable: " ++ (Reference.numbered 8).text)], .ok 0.0⟩ := by
  have hcs : ∀ c ∈ clashes, ∀ v ∈ c.value?, v.Exact := by decide +kernel
  have hstores := (run_sound clashes hcs).2
  obtain ⟨hfive, ha, hsix, height, hgetFive, hgetA⟩ :
      (run clashes).Stores (.numbered 5) ∧ (run clashes).Stores (.named "__a") ∧
      (run clashes).Stores (.numbered 6) ∧
      (∀ r ∈ [Reference.numbered 8, .named "8"], ¬ IsKept r ∧ ¬ (run clashes).Stores r) ∧
      (.float 7.0 == (run clashes).get (.numbered 5)) = false ∧
      (.float 5.0 == (run clashes).get (.named "__a")) = false := by decide +kernel
  have hreads (r : Reference) (hr : r.WellFormed) := evaluate_run clashes hcs r hr 1
  refine ⟨?_, ?_, ?_, ?_⟩
  · obtain ⟨x, hx, hsame⟩ :=
      (hreads (.numbered 5) ⟨by decide, by decide⟩).2.1 (.inr ((hstores _).mp hfive))
    exact ⟨x, hx, Bool.eq_false_iff.mpr fun heq => hsame.mp heq ⟨.float 7.0, rfl, hgetFive⟩⟩
  · obtain ⟨x, hx, hsame⟩ :=
      (hreads (.named "__a") ⟨by decide, by decide⟩).2.1 (.inr ((hstores _).mp ha))
    exact ⟨x, hx, Bool.eq_false_iff.mpr fun heq => hsame.mp heq ⟨.float 5.0, rfl, hgetA⟩⟩
  · obtain ⟨x, hx, hsame⟩ :=
      (hreads (.numbered 6) ⟨by decide, by decide⟩).2.1 (.inr ((hstores _).mp hsix))
    have hnone : (run clashes).shadow? (.numbered 6) = none := rfl
    exact ⟨x, hx, hsame.mpr (by simp [Hidden, hnone])⟩
  · refine ((hreads (.numbered 8) ⟨by decide, by decide⟩).2.2 fun r' hr' hknown => ?_).2
    have hr'' : r' ∈ [Reference.numbered 8, .named "8"] := by
      cases r' with
      | numbered n => simp [numberKey_injective hr']
      | named name =>
        have hname : name = "8" := nameKey_injective hr'
        simp [hname]
    exact hknown.elim (height r' hr'').1 fun hset => (height r' hr'').2 ((hstores r').mpr hset)

end Parameters
end Machining
