import Machining.Proofs.Numeral
import Machining.Proofs.ParameterReads

namespace Machining

namespace Decimal
open Text

/-- What may follow a digit in a row of digits, and the digits in it: a single underscore may stand
before each. -/
inductive Continues : List Char → List Char → Prop where
  | stop : Continues [] []
  | digit {d : Char} {cs ds : List Char} (digit : isDigit d = true) (rest : Continues cs ds) :
      Continues (d :: cs) (d :: ds)
  | underscore {d : Char} {cs ds : List Char} (digit : isDigit d = true) (rest : Continues cs ds) :
      Continues ('_' :: d :: cs) (d :: ds)

/-- A whole number as it is written: padding, a sign or none, a row of digits that is not too long,
padding. -/
inductive Whole : List Char → Int → Prop where
  | intro {before s cs ds after : List Char} {d : Char} (padded : ∀ c ∈ before, isPadding c = true)
      (sign : Sign s)
      (digit : isDigit d = true) (rest : Continues cs ds) (short : (d :: ds).length ≤ digitLimit)
      (padded' : ∀ c ∈ after, isPadding c = true) :
      Whole (before ++ (s ++ d :: cs) ++ after)
        (if s = ['-'] then -(digitsValue (d :: ds) : Int) else digitsValue (d :: ds))

/-- The signs that stand beside digits are none themselves. -/
theorem digit_ne_mark {d : Char} (h : isDigit d = true) :
    d ≠ '_' ∧ d ≠ '+' ∧ d ≠ '-' ∧ d ≠ '<' := by
  have hne (c : Char) (hc : isDigit c = false) : d ≠ c := by
    intro hd
    rw [hd, hc] at h
    cases h
  exact ⟨hne '_' rfl, hne '+' rfl, hne '-' rfl, hne '<' rfl⟩

theorem moreDigits_eq_iff {cs ds : List Char} : moreDigits cs = (ds, []) ↔ Continues cs ds := by
  constructor
  · intro h
    fun_induction moreDigits cs generalizing ds with
    | case1 =>
      cases h
      exact .stop
    | case2 d cs digit es rest hrest ih =>
      cases h
      exact .underscore digit (ih hrest)
    | case4 d cs _ digit es rest hrest ih =>
      cases h
      exact .digit digit (ih hrest)
    | case3 | case5 => cases h
  · intro h
    induction h with
    | stop => rfl
    | @digit d cs ds digit rest ih => simp [moreDigits, digit, (digit_ne_mark digit).1, ih]
    | @underscore d cs ds digit rest ih => simp [moreDigits, digit, ih]

/-- A row of digits ends with a digit. -/
theorem Continues.last {cs ds : List Char} (h : Continues cs ds) {d : Char}
    (hd : isDigit d = true) : ∃ init e, d :: cs = init ++ [e] ∧ isDigit e = true := by
  induction h generalizing d with
  | stop => exact ⟨[], d, rfl, hd⟩
  | @digit e cs ds digit rest ih =>
    obtain ⟨init, last, hcs, hlast⟩ := ih digit
    exact ⟨d :: init, last, by rw [hcs]; rfl, hlast⟩
  | @underscore e cs ds digit rest ih =>
    obtain ⟨init, last, hcs, hlast⟩ := ih digit
    exact ⟨d :: '_' :: init, last, by rw [hcs]; rfl, hlast⟩

theorem digitRow_eq_iff {cs ds : List Char} {e : Char} :
    digitRow cs = (e :: ds, []) ↔ ∃ cs', cs = e :: cs' ∧ isDigit e = true ∧ Continues cs' ds := by
  cases cs with
  | nil => simp [digitRow]
  | cons d cs =>
    by_cases hd : isDigit d = true
    · simp only [digitRow, hd, if_true, Prod.mk.injEq, List.cons.injEq]
      constructor
      · intro h
        obtain ⟨⟨rfl, hds⟩, hrest⟩ := h
        exact ⟨cs, ⟨rfl, rfl⟩, hd, moreDigits_eq_iff.mp (Prod.ext hds hrest)⟩
      · intro h
        obtain ⟨cs', ⟨rfl, rfl⟩, -, hcs⟩ := h
        rw [moreDigits_eq_iff.mpr hcs]
        exact ⟨⟨rfl, rfl⟩, rfl⟩
    · simp only [digitRow, hd]
      constructor
      · intro h
        cases h
      · intro h
        obtain ⟨cs', hcs, he, -⟩ := h
        cases hcs
        exact absurd he hd

theorem isPadding_digit {c : Char} (h : isDigit c = true) : isPadding c = false := by
  simp [isPadding, solid_of_class (.inl h)]

theorem unpad_split (cs : List Char) :
    ∃ before after, cs = before ++ unpad cs ++ after ∧ (∀ c ∈ before, isPadding c = true) ∧
      ∀ c ∈ after, isPadding c = true := by
  refine ⟨cs.takeWhile isPadding, ((cs.dropWhile isPadding).reverse.takeWhile isPadding).reverse,
    ?_, fun _ h => List.mem_takeWhile_imp h, fun _ h => List.mem_takeWhile_imp
      (List.mem_reverse.mp h)⟩
  rw [unpad, List.append_assoc, ← List.reverse_append, List.takeWhile_append_dropWhile,
    List.reverse_reverse, List.takeWhile_append_dropWhile]

theorem unpad_append {before core after : List Char} (hbefore : ∀ c ∈ before, isPadding c = true)
    (hafter : ∀ c ∈ after, isPadding c = true)
    (hhead : ∃ c tail, core = c :: tail ∧ isPadding c = false)
    (hlast : ∃ init c, core = init ++ [c] ∧ isPadding c = false) :
    unpad (before ++ core ++ after) = core := by
  have hstart : (before ++ core ++ after).dropWhile isPadding = core ++ after := by
    obtain ⟨c, tail, rfl, hc⟩ := hhead
    rw [List.append_assoc, List.dropWhile_append_of_pos hbefore, List.cons_append,
      List.dropWhile_cons_of_neg (by simp [hc])]
  have hend : (core ++ after).reverse.dropWhile isPadding = core.reverse := by
    obtain ⟨init, c, rfl, hc⟩ := hlast
    rw [List.reverse_append, List.dropWhile_append_of_pos fun d hd =>
      hafter d (List.mem_reverse.mp hd), List.reverse_append, List.reverse_singleton,
        List.singleton_append, List.dropWhile_cons_of_neg (by simp [hc])]
  rw [unpad, hstart, hend, List.reverse_reverse]

theorem sign_append {s : List Char} (hs : Sign s) {d : Char} (hd : isDigit d = true)
    (cs : List Char) : sign (s ++ d :: cs) = (decide (s = ['-']), d :: cs) := by
  cases hs with
  | absent =>
    obtain ⟨-, hplus, hminus, -⟩ := digit_ne_mark hd
    simp [sign, hplus, hminus]
  | plus => rfl
  | minus => rfl

theorem sign_split (cs : List Char) :
    ∃ s, Sign s ∧ cs = s ++ (sign cs).2 ∧ (sign cs).1 = decide (s = ['-']) := by
  unfold sign
  split
  · exact ⟨['+'], .plus, rfl, rfl⟩
  · exact ⟨['-'], .minus, rfl, rfl⟩
  · exact ⟨[], .absent, rfl, rfl⟩

/-- A text is read as a whole number exactly if it is written as one. -/
theorem intOfText?_eq_some_iff {s : String} {n : Int} :
    intOfText? s = some n ↔ Whole s.toList n := by
  constructor
  · intro h
    obtain ⟨before, after, hsplit, hbefore, hafter⟩ := unpad_split s.toList
    obtain ⟨g, hsign, hg, hminus⟩ := sign_split (unpad s.toList)
    unfold intOfText? at h
    simp only at h
    split at h
    · rename_i d ds hrow
      obtain ⟨cs, hcs, hd, hrest⟩ := digitRow_eq_iff.mp hrow
      split at h
      · cases h
      · rename_i hshort
        rw [hcs] at hg
        rw [hsplit, hg]
        rw [hminus] at h
        simp only [decide_eq_true_eq] at h
        rw [← Option.some.inj h]
        exact .intro hbefore hsign hd hrest (by omega) hafter
    · cases h
  · intro h
    generalize hcs : s.toList = cs at h
    obtain @⟨before, g, cs, ds, after, d, hbefore, hsign, hd, hrest, hshort, hafter⟩ := h
    have hlast : ∃ init c, g ++ d :: cs = init ++ [c] ∧ isPadding c = false := by
      obtain ⟨init, e, he, hdigit⟩ := hrest.last hd
      exact ⟨g ++ init, e, by rw [he, List.append_assoc], isPadding_digit hdigit⟩
    have hhead : ∃ c tail, g ++ d :: cs = c :: tail ∧ isPadding c = false := by
      cases hsign with
      | absent => exact ⟨d, cs, rfl, isPadding_digit hd⟩
      | plus => exact ⟨'+', d :: cs, rfl, by decide⟩
      | minus => exact ⟨'-', d :: cs, rfl, by decide⟩
    have hrow : digitRow (d :: cs) = (d :: ds, []) := digitRow_eq_iff.mpr ⟨cs, rfl, hd, hrest⟩
    simp only [intOfText?, hcs, unpad_append hbefore hafter hhead hlast, sign_append hsign hd, hrow,
      decide_eq_true_eq]
    rw [if_neg (by omega)]

/-- No whole number starts with a bracket. -/
theorem not_whole_bracket {cs : List Char} {n : Int} : ¬ Whole ('<' :: cs) n := by
  intro h
  generalize hcs : '<' :: cs = ds at h
  obtain @⟨before, g, tail, ds, after, d, hbefore, hsign, hd, -⟩ := h
  cases before with
  | cons c before =>
    cases hcs
    exact absurd (hbefore '<' List.mem_cons_self) (by decide)
  | nil =>
    cases hsign with
    | absent =>
      cases hcs
      exact absurd rfl (digit_ne_mark hd).2.2.2
    | plus | minus => cases hcs

end Decimal

inductive Reference.Spelled : List Char → Reference → Prop where
  | named (name : List Char) : Spelled ('#' :: '<' :: (name ++ ['>'])) (.named (String.ofList name))
  | numbered {cs : List Char} {n : Int} (whole : Decimal.Whole cs n) :
      Spelled ('#' :: cs) (.numbered n)

namespace Reference
variable {s : String} {r : Reference}

theorem spelled_of_ofText? (h : ofText? s = some r) : Spelled s.toList r := by
  unfold ofText? at h
  generalize s.toList = text at h ⊢
  split at h
  · rename_i cs
    split at h
    · rename_i hlast
      obtain ⟨name, rfl⟩ := List.getLast?_eq_some_iff.mp hlast
      rw [List.dropLast_concat, Option.some.injEq] at h
      rw [← h]
      exact .named name
    · obtain ⟨n, hn, -⟩ := Option.map_eq_some_iff.mp h
      rw [Decimal.intOfText?_eq_some_iff, String.toList_ofList] at hn
      exact absurd hn Decimal.not_whole_bracket
  · obtain ⟨n, hn, rfl⟩ := Option.map_eq_some_iff.mp h
    rw [Decimal.intOfText?_eq_some_iff, String.toList_ofList] at hn
    exact .numbered hn
  · cases h

theorem ofText?_of_spelled (h : Spelled s.toList r) : ofText? s = some r := by
  unfold ofText?
  generalize s.toList = text at h ⊢
  cases h with
  | named name => simp
  | @numbered cs n whole =>
    split
    · rename_i hcs
      cases hcs
      exact absurd whole Decimal.not_whole_bracket
    · rename_i hcs
      cases hcs
      rw [Decimal.intOfText?_eq_some_iff.mpr (by rwa [String.toList_ofList])]
      rfl
    · rename_i hsign
      exact absurd rfl (hsign cs)

theorem Spelled.unique {r' : Reference} (h : Spelled s.toList r)
    (h' : Spelled s.toList r') : r = r' :=
  Option.some.inj ((ofText?_of_spelled h).symm.trans (ofText?_of_spelled h'))

end Reference

namespace Parameters

def IsReadOnly : Reference → Prop
  | .numbered n => 5400 ≤ n
  | .named name => name ∈ initialPredefined.keys

/-- Numbers that are not read-only and cannot be written. -/
def IsNowhere : Reference → Prop
  | .numbered n => n ≤ 0
  | .named _ => False

variable {p : Parameters} {ref : String} {v : Number} {line : Int} {a : Assigned}

theorem isWritable_iff {r : Reference} : IsWritable r ↔ ¬ IsReadOnly r ∧ ¬ IsNowhere r := by
  cases r with
  | numbered n =>
    simp only [IsWritable, IsReadOnly, IsNowhere]
    omega
  | named name => simp [IsWritable, IsReadOnly, IsNowhere]

theorem Arranged.isReadOnly_scope_iff (h : p.Arranged) (r : Reference) :
    isReadOnly (p.scope r) = true ↔ IsReadOnly r := by
  cases r with
  | numbered n => by_cases hn : 5400 ≤ n <;> simp [scope, isReadOnly, IsReadOnly, hn]
  | named name =>
    rw [IsReadOnly, ← h.predefinedKeys, ← Table.contains_iff_mem_keys]
    by_cases hname : p.predefined.contains name = true
    · simp [scope, isReadOnly, hname]
    · by_cases hunder : startsWithUnderscore name = true <;> simp [scope, isReadOnly, hname, hunder]

inductive Outcome (p : Parameters) (ref : String) (v : Number) (line : Int) : Assigned → Prop where
  | unreadable (none : ∀ r, ¬ Reference.Spelled ref.toList r) :
      Outcome p ref v line ⟨p, false,
        [.onLine line .syntactic ("Invalid variable reference: " ++ ref)]⟩
  | readOnly {r : Reference} (spelled : Reference.Spelled ref.toList r) (kept : IsReadOnly r) :
      Outcome p ref v line ⟨p, false,
        [.onLine line .semantic ("Cannot assign to read-only variable: " ++ ref)]⟩
  | nowhere {r : Reference} (spelled : Reference.Spelled ref.toList r) (low : IsNowhere r) :
      Outcome p ref v line ⟨p, false, []⟩
  | written {r : Reference} {q : Parameters} (spelled : Reference.Spelled ref.toList r)
      (writable : IsWritable r) (set : p.set? r v = some q) : Outcome p ref v line ⟨q, true, []⟩

theorem Arranged.assign_outcome (h : p.Arranged) (ref : String) (v : Number) (line : Int) :
    Outcome p ref v line (p.assign ref v line) := by
  unfold assign
  split
  · rename_i hnone
    refine .unreadable fun r hr => ?_
    rw [Reference.ofText?_of_spelled hr] at hnone
    cases hnone
  · rename_i r hread
    have hspelled := Reference.spelled_of_ofText? hread
    split
    · rename_i hkept
      exact .readOnly hspelled ((h.isReadOnly_scope_iff r).mp hkept)
    · rename_i hkept
      rw [h.isReadOnly_scope_iff] at hkept
      split
      · rename_i q hset
        refine .written hspelled (not_not.mp fun hno => ?_) hset
        rw [h.set?_eq_none_iff.mpr hno] at hset
        cases hset
      · rename_i hset
        refine .nowhere hspelled (not_not.mp fun hlow => ?_)
        exact h.set?_eq_none_iff.mp hset (isWritable_iff.mpr ⟨hkept, hlow⟩)

/-- A refusal comes with exactly one report, on the line, and nothing else comes with any. -/
def Assigned.Reported (a : Assigned) (line : Int) : Prop :=
  (a.done = false ↔ ∃ d, a.reports = [d] ∧ d.line = line) ∧ (a.done = true ↔ a.reports = [])

namespace Outcome

theorem done_iff (h : Outcome p ref v line a) :
    a.done = true ↔ ∃ r, Reference.Spelled ref.toList r ∧ IsWritable r := by
  cases h with
  | unreadable none => simp [none]
  | readOnly spelled kept =>
    simp only [Bool.false_eq_true, false_iff]
    intro h
    obtain ⟨r, hr, hwritable⟩ := h
    exact (isWritable_iff.mp hwritable).1 (hr.unique spelled ▸ kept)
  | nowhere spelled low =>
    simp only [Bool.false_eq_true, false_iff]
    intro h
    obtain ⟨r, hr, hwritable⟩ := h
    exact (isWritable_iff.mp hwritable).2 (hr.unique spelled ▸ low)
  | written spelled writable set => exact iff_of_true rfl ⟨_, spelled, writable⟩

theorem parameters_of_done (h : Outcome p ref v line a) (hdone : a.done = true) {r : Reference}
    (hr : Reference.Spelled ref.toList r) : p.set? r v = some a.parameters := by
  cases h with
  | unreadable | readOnly | nowhere => cases hdone
  | written spelled writable set => rwa [hr.unique spelled]

theorem parameters_of_not_done (h : Outcome p ref v line a) (hdone : a.done = false) :
    a.parameters = p := by
  cases h with
  | unreadable | readOnly | nowhere => rfl
  | written => cases hdone

/-- Only a number below 1 is passed over in silence. -/
theorem silent_iff (h : Outcome p ref v line a) :
    a.done = false ∧ a.reports = [] ↔ ∃ n ≤ 0, Reference.Spelled ref.toList (.numbered n) := by
  cases h with
  | unreadable none => simp [none]
  | @readOnly r spelled kept =>
    simp only [List.cons_ne_nil, and_false, false_iff]
    intro h
    obtain ⟨n, hn, hspelled⟩ := h
    cases hspelled.unique spelled
    have hlarge : 5400 ≤ n := kept
    omega
  | @nowhere r spelled low =>
    cases r with
    | numbered n => exact iff_of_true ⟨rfl, rfl⟩ ⟨n, low, spelled⟩
    | named name => cases low
  | @written r q spelled writable set =>
    simp only [Bool.true_eq_false, false_and, false_iff]
    intro h
    obtain ⟨n, hn, hspelled⟩ := h
    cases hspelled.unique spelled
    have hbounds : 1 ≤ n ∧ n ≤ 5399 := writable
    omega

theorem reported_iff (h : Outcome p ref v line a) :
    a.Reported line ↔ ¬ (a.done = false ∧ a.reports = []) := by
  cases h with
  | unreadable none => simp [Assigned.Reported, Diagnostic.onLine, Diagnostic.error]
  | readOnly spelled kept => simp [Assigned.Reported, Diagnostic.onLine, Diagnostic.error]
  | nowhere spelled low => simp [Assigned.Reported]
  | written spelled writable set => simp [Assigned.Reported]

end Outcome

/-- After any requests: an assignment is made exactly if its text is that of a parameter that
programs may write, and then it writes that parameter; otherwise nothing changes. A refusal is
reported, once and on its line, unless the text is a whole number below 1, about which nothing is
said. -/
theorem assign_reported_iff (cs : List Change) (ref : String) (v : Number) (line : Int)
    (a : Assigned) (ha : (run cs).assign ref v line = a) :
    (a.done = true ↔ ∃ r, Reference.Spelled ref.toList r ∧ IsWritable r) ∧
    (a.done = true → ∀ r, Reference.Spelled ref.toList r → (run cs).set? r v = some a.parameters) ∧
    (a.done = false → a.parameters = run cs) ∧
    (a.done = false ∧ a.reports = [] ↔ ∃ n ≤ 0, Reference.Spelled ref.toList (.numbered n)) ∧
    (a.Reported line ↔ ¬ ∃ n ≤ 0, Reference.Spelled ref.toList (.numbered n)) := by
  have houtcome := (run_arranged cs).assign_outcome ref v line
  rw [ha] at houtcome
  refine ⟨houtcome.done_iff, fun hdone r hr => houtcome.parameters_of_done hdone hr,
    houtcome.parameters_of_not_done, houtcome.silent_iff, ?_⟩
  rw [houtcome.reported_iff, houtcome.silent_iff]

/-- `#0` is refused without a report, `#5400` with one, and `#+1_0` is written. -/
theorem assign_reported_iff_zero :
    (((run []).assign "#0" (.float 1.0) 3).done = false ∧
      ((run []).assign "#0" (.float 1.0) 3).reports = []) ∧
    ¬ ((run []).assign "#0" (.float 1.0) 3).Reported 3 ∧
    ((run []).assign "#5400" (.float 1.0) 3).Reported 3 ∧
    ((run []).assign "#+1_0" (.float 1.0) 3).done = true := by
  obtain ⟨hzero, hlarge, hten⟩ : Reference.ofText? "#0" = some (.numbered 0) ∧
      Reference.ofText? "#5400" = some (.numbered 5400) ∧
      Reference.ofText? "#+1_0" = some (.numbered 10) := by
    decide +kernel
  have hlow : ∃ n ≤ 0, Reference.Spelled "#0".toList (.numbered n) :=
    ⟨0, le_rfl, Reference.spelled_of_ofText? hzero⟩
  obtain ⟨-, -, -, hsilent, hreported⟩ := assign_reported_iff [] "#0" (.float 1.0) 3 _ rfl
  refine ⟨hsilent.mpr hlow, fun h => hreported.mp h hlow, ?_, ?_⟩
  · apply (assign_reported_iff [] "#5400" (.float 1.0) 3 _ rfl).2.2.2.2.mpr
    intro h
    obtain ⟨n, hn, hspelled⟩ := h
    cases hspelled.unique (Reference.spelled_of_ofText? hlarge)
    omega
  · exact (assign_reported_iff [] "#+1_0" (.float 1.0) 3 _ rfl).1.mpr
      ⟨.numbered 10, Reference.spelled_of_ofText? hten, by decide, by decide⟩

end Parameters
end Machining
