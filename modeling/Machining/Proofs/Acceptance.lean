import Machining.Proofs.Extended
import Machining.Proofs.Recorded

namespace Machining

namespace Table
variable {κ ν : Type} [BEq κ] {t : Table κ ν} {k : κ} {v : ν}

/-- A key is put behind the others unless it is there already. -/
theorem keys_put (t : Table κ ν) (k : κ) (v : ν) :
    (t.put k v).keys = if t.contains k then t.keys else t.keys ++ [k] := by
  obtain ⟨entries⟩ := t
  simp only [keys, put, contains]
  induction entries with
  | nil => rfl
  | cons e es ih =>
    unfold put.go
    by_cases he : (e.1 == k) = true
    · simp [he]
    · by_cases hes : (es.any fun e => e.1 == k) = true <;> simp only [hes] at ih <;>
        simp [he, hes, ih]

end Table

structure Table.Collects (table : Table Number Number) (l : Letter) (ts : List Token) : Prop extends
    table.Lists l ts where
  distinct : table.keys.Pairwise fun a c => (a == c) = false
  spelled : ∀ e ∈ table.entries, e.1 = e.2 ∨ (e.1 == e.2) = true

namespace Table.Collects
variable {table : Table Number Number} {l : Letter} {ts : List Token} {t : Token}

theorem nil (l : Letter) : Table.empty.Collects l [] := ⟨.nil l, .nil, by simp [Table.empty]⟩

theorem skip (h : table.Collects l ts) (ht : t.kind ≠ .word l) : table.Collects l (ts ++ [t]) :=
  ⟨h.toLists.skip fun hk => absurd hk ht, h.distinct, h.spelled⟩

theorem withWord (h : table.Collects l ts) (t : Token) :
    (table.withWord l t).Collects l (ts ++ [t]) := by
  refine ⟨h.toLists.withWord t, ?_, ?_⟩ <;> unfold Table.withWord <;> split
  · cases t.number? with
    | none => exact h.distinct
    | some v =>
      simp only [Option.elim_some, keys_put]
      split
      · exact h.distinct
      · rename_i hnew
        refine List.pairwise_append.mpr ⟨h.distinct, List.pairwise_singleton _ _,
          fun a ha c hc => ?_⟩
        rw [List.mem_singleton.mp hc]
        by_contra heq
        exact hnew (contains_iff.mpr ⟨a, ha, Bool.eq_true_of_not_eq_false heq⟩)
  · exact h.distinct
  · cases t.number? with
    | none => exact h.spelled
    | some v =>
      intro e he
      rcases mem_entries_put he with he | rfl | ⟨heq, rfl⟩
      · exact h.spelled e he
      · exact .inl rfl
      · exact .inr heq
  · exact h.spelled

end Table.Collects

namespace Token
variable {ts run rest : List Token} {next : Token}

def codes (l : Letter) (ts : List Token) : List Number :=
  (ts.filter (·.kind = .word l)).filterMap number?

theorem mem_codes_iff {l : Letter} {a : Number} :
    a ∈ codes l ts ↔ ∃ t ∈ ts, t.kind = .word l ∧ t.number? = some a := by
  simp [codes, and_assoc]

end Token

namespace Table.Lists
variable {table : Table Number Number} {l : Letter} {ts : List Token} {k a : Number}

theorem mem_codes (h : table.Lists l ts) (hk : k ∈ table.keys) : k ∈ Token.codes l ts :=
  Token.mem_codes_iff.mpr (h.named k hk)

theorem exists_key (h : table.Lists l ts) (ha : a ∈ Token.codes l ts) (hself : (a == a) = true) :
    ∃ k ∈ table.keys, (k == a) = true := by
  obtain ⟨t, ht, hk, hnumber⟩ := Token.mem_codes_iff.mp ha
  exact contains_iff.mp (h.held t ht hk a hnumber hself)

end Table.Lists

namespace Token
variable {ts run rest : List Token} {next : Token}

def last? (l : Letter) (ts : List Token) : Option Token := (ts.filter (·.kind = .word l)).getLast?

/-- Tokens whose codes go together in one block: at most one of each group, in whatever
spellings, and no axis word for a non-modal code and a motion code to claim at once. G53 by
itself claims none. -/
structure Compatible (ts : List Token) : Prop where
  single : ∀ group ∈ Block.exclusiveGroups, ∀ a ∈ codes .g ts, ∀ c ∈ codes .g ts,
    group.2.contains a = true → group.2.contains c = true → (a == c) = true
  uncontested : (∃ a ∈ codes .g ts, nonModalCodes.contains a = true) →
    (∃ a ∈ codes .g ts, ModalGroup.motion.codes.contains a = true) →
    (∃ i, ((last? (.axis i) ts).bind number?).isSome = true) →
    ∀ a ∈ codes .g ts, nonModalCodes.contains a = true → (a == .int 53) = true

theorem compatible_iff : Compatible ts ↔
    (∀ group ∈ Block.exclusiveGroups, ∀ a ∈ codes .g ts, ∀ c ∈ codes .g ts,
      group.2.contains a = true → group.2.contains c = true → (a == c) = true) ∧
    ((∃ a ∈ codes .g ts, nonModalCodes.contains a = true) →
      (∃ a ∈ codes .g ts, ModalGroup.motion.codes.contains a = true) →
      (∃ i ∈ Axis.all, ((last? (.axis i) ts).bind number?).isSome = true) →
      ∀ a ∈ codes .g ts, nonModalCodes.contains a = true → (a == .int 53) = true) := by
  have hall (i : Axis) : i ∈ Axis.all := by cases i <;> decide
  simp only [hall, true_and]
  exact ⟨fun h => ⟨h.single, h.uncontested⟩, fun h => ⟨h.1, h.2⟩⟩

instance (ts : List Token) : Decidable (Compatible ts) := decidable_of_iff' _ compatible_iff

def runs (ts : List Token) : List (List Token) := (ts.splitOnP endsLine).filter (!·.isEmpty)

/-- Tokens are one line, or a line, its end and more of them. -/
theorem lines_induction {P : List Token → Prop}
    (line : ∀ run, (∀ t ∈ run, t.endsLine = false) → P run)
    (more : ∀ run next rest, (∀ t ∈ run, t.endsLine = false) → next.endsLine = true → P rest →
      P (run ++ next :: rest)) (ts : List Token) : P ts := by
  induction hn : ts.length using Nat.strong_induction_on generalizing ts with
  | h n ih =>
    cases hfind : ts.find? endsLine with
    | none => exact line ts fun t ht => by simpa using List.find?_eq_none.mp hfind t ht
    | some next =>
      obtain ⟨hnext, run, rest, rfl, hrun⟩ := List.find?_eq_some_iff_append.mp hfind
      have hshort : rest.length < n := by
        rw [← hn]
        simp
        omega
      exact more run next rest (fun t ht => by simpa using hrun t ht) hnext (ih _ hshort rest rfl)

theorem runs_line (h : ∀ t ∈ run, t.endsLine = false) :
    runs run = if run = [] then [] else [run] := by
  rw [runs, List.splitOnP_eq_singleton fun t ht => by simp [h t ht]]
  cases run <;> rfl

theorem runs_append (h : ∀ t ∈ run, t.endsLine = false) (hnext : next.endsLine = true)
    (rest : List Token) :
    runs (run ++ next :: rest) = (if run = [] then [] else [run]) ++ runs rest := by
  rw [runs, List.splitOnP_append_cons_of_forall_mem (fun t ht => by simp [h t ht]) _ hnext]
  cases run <;> rfl

theorem runs_inner (h : run ∈ runs ts) : run ≠ [] ∧ ∀ t ∈ run, t.endsLine = false := by
  induction ts using lines_induction with
  | line only honly =>
    rw [runs_line honly] at h
    split at h
    · cases h
    · rw [List.mem_singleton.mp h]
      exact ⟨‹_›, honly⟩
  | more first next rest hfirst hnext ih =>
    rw [runs_append hfirst hnext] at h
    rcases List.mem_append.mp h with h | h
    · split at h
      · cases h
      · rw [List.mem_singleton.mp h]
        exact ⟨‹_›, hfirst⟩
    · exact ih h

end Token

namespace Block
variable {b : Block Number} {t last next : Token} {ts run : List Token}
    {current : Option (Block Number)}

theorem add_error_kind {e : Fault} (h : b.add t = .error e) :
    t.kind = .word .t ∨ t.kind = .word .n := by
  unfold add at h
  split at h
  · rename_i l hk
    cases l with
    | g | m =>
      simp only [addWord] at h
      split at h <;> cases h
    | o | axis i | param d => cases h
    | t => exact .inl hk
    | n => exact .inr hk
  all_goals cases h

/-- A block that holds the codes of its tokens and, for every axis, what the last of its words
gives. -/
structure Faithful (b : Block Number) : Prop where
  g : b.g.Collects .g b.tokens
  m : b.m.Collects .m b.tokens
  axes : ∀ i, b.axis i = (Token.last? (.axis i) b.tokens).bind Token.number?

theorem faithful_empty (line : Int) : Faithful (empty line) :=
  ⟨.nil .g, .nil .m, fun i => (recorded_empty line).fields (.axis i)⟩

theorem Faithful.add {b' : Block Number} (h : b.Faithful) (hadd : b.add t = .ok b') :
    b'.Faithful := by
  obtain ⟨htokens, -, hg, hm, hfields⟩ := added_of_add hadd
  refine ⟨?_, ?_, fun i => ?_⟩
  · rw [hg, htokens]
    exact h.g.withWord t
  · rw [hm, htokens]
    exact h.m.withWord t
  · have haxis : b'.axis i = if t.kind = .word (.axis i) then t.number? else b.axis i :=
      hfields (.axis i)
    have hlast : Token.last? (.axis i) b'.tokens = (b.record t).lastWord? (.axis i) := by
      rw [htokens]; rfl
    rw [haxis, hlast, lastWord?_record]
    split
    · rfl
    · exact h.axes i

/-- A token that cannot be recorded names neither a code nor an axis. -/
theorem Faithful.record {e : Fault} (h : b.Faithful) (hadd : b.add t = .error e) :
    (b.record t).Faithful := by
  have hother (l : Letter) (ht : l ≠ .t) (hn : l ≠ .n) : t.kind ≠ .word l := by
    intro hk
    rcases add_error_kind hadd with h | h <;> rw [hk, TokenKind.word.injEq] at h
    · exact ht h
    · exact hn h
  refine ⟨h.g.skip (hother .g nofun nofun), h.m.skip (hother .m nofun nofun), fun i => ?_⟩
  have hlast : Token.last? (.axis i) (b.record t).tokens = (b.record t).lastWord? (.axis i) := rfl
  rw [hlast, lastWord?_record, if_neg (hother (.axis i) nofun nofun)]
  exact h.axes i

theorem Filled.faithful {closed : Option (Block Number)} {ds : List Diagnostic}
    (h : Filled b ts closed ds) (hb : b.Faithful) : ∀ c ∈ closed, c.Faithful := by
  induction h with
  | done b =>
    rintro _ ⟨⟩
    exact hb
  | adds added behind ih => exact ih (hb.add added)
  | skips failed behind ih => exact ih (hb.record failed)
  | stops failed => simp

/-- A code of a group is the same as one of the keys that are in it. -/
theorem Faithful.active_of_code (h : b.Faithful) {a : Number} {group : List Number}
    (ha : a ∈ Token.codes .g b.tokens) (hgroup : group.contains a = true) :
    ∃ k ∈ b.activeCodes group, (k == a) = true := by
  obtain ⟨c, -, hac⟩ := List.contains_iff_exists_mem_beq.mp hgroup
  obtain ⟨k, hk, hka⟩ := h.g.exists_key ha (BEq.trans hac (BEq.symm hac))
  exact ⟨k, List.mem_filter.mpr ⟨hk, (List.contains_congr hka).trans hgroup⟩, hka⟩

theorem activeCodes_ne_nil_iff (h : b.Faithful) (group : List Number) :
    b.activeCodes group ≠ [] ↔ ∃ a ∈ Token.codes .g b.tokens, group.contains a = true := by
  constructor
  · intro hne
    obtain ⟨k, hk⟩ := List.exists_mem_of_ne_nil _ hne
    obtain ⟨hkey, hgroup⟩ := List.mem_filter.mp hk
    exact ⟨k, h.g.mem_codes hkey, hgroup⟩
  · rintro ⟨a, ha, hgroup⟩
    obtain ⟨k, hk, -⟩ := h.active_of_code ha hgroup
    exact List.ne_nil_of_mem hk

theorem hasAxes_iff (h : b.Faithful) :
    b.hasAxes = true ↔
    ∃ i, ((Token.last? (.axis i) b.tokens).bind Token.number?).isSome = true := by
  have hall (i : Axis) : i ∈ Axis.all := by cases i <;> decide
  simp only [hasAxes, List.any_eq_true, h.axes, hall, true_and]

/-- The codes of a group are all one if no two of the keys are in it. -/
theorem activeCodes_length_iff (h : b.Faithful) (group : List Number) :
    (b.activeCodes group).length ≤ 1 ↔ ∀ a ∈ Token.codes .g b.tokens, ∀ c ∈ Token.codes .g b.tokens,
      group.contains a = true → group.contains c = true → (a == c) = true := by
  constructor
  · intro hshort a ha c hc hga hgc
    obtain ⟨k, hk, hka⟩ := h.active_of_code ha hga
    obtain ⟨k', hk', hkc⟩ := h.active_of_code hc hgc
    obtain ⟨only, honly⟩ :=
      List.length_eq_one_iff.mp (le_antisymm hshort (List.length_pos_of_mem hk))
    rw [honly, List.mem_singleton] at hk hk'
    rw [hk] at hka
    rw [hk'] at hkc
    exact BEq.trans (BEq.symm hka) hkc
  · intro hsame
    have hdistinct : (b.activeCodes group).Pairwise fun a c => (a == c) = false :=
      h.g.distinct.filter _
    have hmem : ∀ k ∈ b.activeCodes group, k ∈ Token.codes .g b.tokens ∧
        group.contains k = true := by
      intro k hk
      obtain ⟨hkey, hgroup⟩ := List.mem_filter.mp hk
      exact ⟨h.g.mem_codes hkey, hgroup⟩
    generalize b.activeCodes group = active at hdistinct hmem
    cases hdistinct with
    | nil => simp
    | @cons k ks hfirst _ =>
      cases ks with
      | nil => simp
      | cons k' ks =>
        have hk := hmem k (by simp)
        have hk' := hmem k' (by simp)
        have heq := hsame k hk.1 k' hk'.1 hk.2 hk'.2
        rw [hfirst k' (by simp)] at heq
        cases heq

theorem groupsAgree_iff (h : b.Faithful) :
    b.groupsAgree = true ↔ ∀ group ∈ exclusiveGroups, ∀ a ∈ Token.codes .g b.tokens,
      ∀ c ∈ Token.codes .g b.tokens, group.2.contains a = true → group.2.contains c = true →
        (a == c) = true := by
  rw [groupsAgree, List.all_eq_true]
  refine forall₂_congr fun group _ => ?_
  rw [← activeCodes_length_iff h, decide_eq_true_iff]

/-- With one non-modal code at most, the axes are contested unless that code is 53. -/
theorem axesContested_iff (h : b.Faithful) (hshort : (b.activeCodes nonModalCodes).length ≤ 1) :
    b.axesContested = false ↔ ((∃ a ∈ Token.codes .g b.tokens, nonModalCodes.contains a = true) →
      (∃ a ∈ Token.codes .g b.tokens, ModalGroup.motion.codes.contains a = true) →
      (∃ i, ((Token.last? (.axis i) b.tokens).bind Token.number?).isSome = true) →
      ∀ a ∈ Token.codes .g b.tokens, nonModalCodes.contains a = true → (a == .int 53) = true) := by
  rw [← activeCodes_ne_nil_iff h, ← activeCodes_ne_nil_iff h, ← hasAxes_iff h]
  cases hsingle : b.activeCodes nonModalCodes with
  | nil => simp [axesContested, hsingle]
  | cons k ks =>
    have hks : ks = [] := by
      rw [hsingle, List.length_cons] at hshort
      exact List.length_eq_zero_iff.mp (by omega)
    subst hks
    have hk : k ∈ b.activeCodes nonModalCodes := by simp [hsingle]
    have hcode : (k == .int 53) = true ↔
        ∀ a ∈ Token.codes .g b.tokens, nonModalCodes.contains a = true → (a == .int 53) = true := by
      obtain ⟨hkey, hgroup⟩ := List.mem_filter.mp hk
      refine ⟨fun heq a ha hga => ?_, fun hall => hall k (h.g.mem_codes hkey) hgroup⟩
      obtain ⟨k', hk', hka⟩ := h.active_of_code ha hga
      rw [hsingle, List.mem_singleton] at hk'
      rw [hk'] at hka
      exact BEq.trans (BEq.symm hka) heq
    rw [← hcode, ← List.length_pos_iff]
    cases hmotion : b.activeCodes ModalGroup.motion.codes <;>
      cases haxes : b.hasAxes <;> simp [axesContested, hsingle, hmotion, haxes, BEq.comm]

/-- Whether a block is accepted can be told from its words. -/
theorem isValid_iff (h : b.Faithful) : b.isValid = true ↔ Token.Compatible b.tokens := by
  have hgroups := groupsAgree_iff h
  have hmem : ("non_modal", nonModalCodes) ∈ exclusiveGroups := List.mem_append_right _ (by simp)
  rw [isValid, Bool.and_eq_true, Bool.not_eq_true']
  constructor
  · rintro ⟨hagree, hfree⟩
    have hshort := (activeCodes_length_iff h _).mpr (hgroups.mp hagree _ hmem)
    exact ⟨hgroups.mp hagree, (axesContested_iff h hshort).mp hfree⟩
  · rintro ⟨hsingle, hfree⟩
    have hshort := (activeCodes_length_iff h _).mpr (hsingle _ hmem)
    exact ⟨hgroups.mpr hsingle, (axesContested_iff h hshort).mpr hfree⟩

/-- Where a line ends, it does not matter whether the text ends with it. -/
theorem readFrom_ends (inner : ∀ t ∈ run, t.endsLine = false) (hnext : next.endsLine = true)
    (hlast : last.endsLine = true) (current : Option (Block Number)) :
    readFrom current (run ++ [next]) = readFrom current (run ++ [last]) := by
  induction run generalizing current with
  | nil => exact (readFrom_end hnext current).trans (readFrom_end hlast current).symm
  | cons t run ih =>
    have htail := ih fun u hu => inner u (List.mem_cons_of_mem t hu)
    simp only [List.cons_append, readFrom, htail]

/-- Lines are read by themselves. -/
theorem ofTokens_runs (hts : ∀ t ∈ ts, t.kind ≠ .endOfText) (hlast : last.kind = .endOfText) :
    ofTokens (ts ++ [last]) = ((Token.runs ts).map fun run => ofTokens (run ++ [last])).foldr
      .andThen .nothing := by
  have hends : last.endsLine = true := by simp [Token.endsLine, hlast]
  have hempty : ofTokens ([] ++ [last]) = .nothing := readFrom_end hends none
  induction ts using Token.lines_induction with
  | line run hrun =>
    rw [Token.runs_line hrun]
    split
    · rename_i hnil
      rw [hnil, hempty]
      rfl
    · exact (Reading.andThen_nothing _).symm
  | more run next rest hrun hnext ih =>
    have hnewline : next.kind = .newline := by
      have hkind := hts next (by simp)
      simpa [Token.endsLine, hkind] using hnext
    have hopen : ∀ t ∈ run, t.kind ≠ .endOfText := fun t ht => hts t (by simp [ht])
    have hbehind := ih fun t ht => hts t (by simp [ht])
    rw [Token.runs_append hrun hnext, List.append_assoc, List.cons_append, ofTokens,
      readFrom_append hopen hnewline, readFrom_ends hrun hnext hends none]
    change (ofTokens _).andThen (ofTokens _) = _
    rw [hbehind]
    split
    · rename_i hnil
      rw [hnil, hempty]
      exact Reading.nothing_andThen _
    · rfl

theorem Reading.foldr_andThen_blocks {rs : List Reading} {bs : List (Block Number)}
    (h : (rs.foldr andThen nothing).blocks? = some bs) :
    (∀ r ∈ rs, ∃ kept, r.blocks? = some kept) ∧ bs = rs.flatMap (·.blocks?.getD []) ∧
      (rs.foldr andThen nothing).reports = rs.flatMap (·.reports) := by
  induction rs generalizing bs with
  | nil =>
    cases h
    exact ⟨by simp, rfl, rfl⟩
  | cons r rs ih =>
    obtain ⟨first, rest, hfirst, hrest, rfl⟩ := andThen_blocks h
    obtain ⟨hall, hblocks, hreports⟩ := ih hrest
    refine ⟨?_, ?_, ?_⟩
    · intro r' hr'
      rcases List.mem_cons.mp hr' with rfl | hr'
      · exact ⟨first, hfirst⟩
      · exact hall r' hr'
    · rw [List.flatMap_cons, ← hblocks, hfirst]
      rfl
    · rw [List.foldr_cons, andThen_reports hfirst, hreports, List.flatMap_cons]

structure Judged (run : List Token) (r : Reading) : Prop where
  kept : Token.Compatible run → ∃ b, r.blocks? = some [b] ∧ b.tokens = run ∧
    run.head?.map Token.line = some b.line ∧ ∀ d ∈ r.reports, d.category ≠ .semantic
  refused : ¬ Token.Compatible run → r.blocks? = some [] ∧
    ∃ d ∈ r.reports, d.category = .semantic ∧ d.isError = true ∧
      run.head?.map Token.line = some d.line

theorem judged_run (hne : run ≠ []) (inner : ∀ t ∈ run, t.endsLine = false)
    (hlast : last.endsLine = true) {kept : List (Block Number)}
    (h : (ofTokens (run ++ [last])).blocks? = some kept) :
    Judged run (ofTokens (run ++ [last])) := by
  obtain ⟨t, ts, rfl⟩ := List.exists_cons_of_ne_nil hne
  obtain ⟨closed, ds, hfilled, hread⟩ := readFrom_run inner hlast
  have hread : ofTokens (t :: ts ++ [last]) = .ofRow closed ds := hread
  rw [hread] at h ⊢
  cases closed with
  | none => cases h
  | some b =>
    obtain ⟨htokens, hline⟩ := hfilled.tokens b rfl
    have htokens : b.tokens = t :: ts := htokens
    have hline : b.line = t.line := hline
    have hfaithful := hfilled.faithful (faithful_empty t.line) b rfl
    have hvalid := isValid_iff hfaithful
    have hsilent := reports_eq_nil_iff hfaithful.g.toLists
    rw [htokens] at hvalid
    constructor
    · intro hcompatible
      have hok := hvalid.mpr hcompatible
      refine ⟨b, by rw [Reading.ofRow_blocks, if_pos hok], htokens, by rw [hline]; rfl, ?_⟩
      rw [Reading.ofRow_reports, Option.elim_some, hsilent.mpr hok, List.append_nil]
      intro d hd
      obtain ⟨u, -, message, rfl⟩ := hfilled.reports d hd
      exact nofun
    · intro hcompatible
      have hbad : ¬ b.isValid = true := fun hok => hcompatible (hvalid.mp hok)
      refine ⟨by rw [Reading.ofRow_blocks, if_neg hbad], ?_⟩
      obtain ⟨d, hd⟩ := List.exists_mem_of_ne_nil _ fun hnil => hbad (hsilent.mp hnil)
      have hreport : d.category = .semantic ∧ d.isError = true ∧ d.line = b.line :=
        reports_of (P := fun d => d.category = .semantic ∧ d.isError = true ∧ d.line = b.line)
          (fun _ _ _ _ => ⟨rfl, rfl, rfl⟩) (fun _ _ => ⟨rfl, rfl, rfl⟩) hd
      rw [Reading.ofRow_reports]
      exact ⟨d, List.mem_append_right _ hd, hreport.1, hreport.2.1, by rw [hreport.2.2, hline]; rfl⟩

/-- The blocks and reports of tokens are those of their lines. A line is kept if and only if its
codes go together; one that is not kept is reported on the line of its first token, and one that is
kept has no such report. -/
theorem ofTokens_judged {bs : List (Block Number)} (hts : ∀ t ∈ ts, t.kind ≠ .endOfText)
    (hlast : last.kind = .endOfText) (h : (ofTokens (ts ++ [last])).blocks? = some bs) :
    bs = (Token.runs ts).flatMap (fun run => (ofTokens (run ++ [last])).blocks?.getD []) ∧
    (ofTokens (ts ++ [last])).reports = (Token.runs ts).flatMap
      (fun run => (ofTokens (run ++ [last])).reports) ∧
    ∀ run ∈ Token.runs ts, Judged run (ofTokens (run ++ [last])) := by
  have hends : last.endsLine = true := by simp [Token.endsLine, hlast]
  have hruns := ofTokens_runs hts hlast
  rw [hruns] at h ⊢
  obtain ⟨hall, hblocks, hreports⟩ := Reading.foldr_andThen_blocks h
  rw [List.flatMap_map] at hblocks hreports
  refine ⟨hblocks, hreports, fun run hrun => ?_⟩
  obtain ⟨hne, hinner⟩ := Token.runs_inner hrun
  obtain ⟨kept, hkept⟩ := hall _ (List.mem_map.mpr ⟨run, hrun, rfl⟩)
  exact judged_run hne hinner hends hkept

def zeroLine : List Token :=
  [⟨.word .g, "0", 1, 0, 2⟩, ⟨.word .g, "-0", 1, 3, 6⟩, ⟨.word .t, "nan", 1, 7, 11⟩]

def returnLine : List Token :=
  [⟨.word .g, "28", 3, 0, 3⟩, ⟨.word .g, "1", 3, 4, 6⟩, ⟨.word (.axis .x), "5", 3, 7, 9⟩]

def directLine : List Token :=
  [⟨.word .g, "53", 4, 0, 3⟩, ⟨.word .g, "0", 4, 4, 6⟩, ⟨.word (.axis .x), "5", 4, 7, 9⟩]

def severalLines : List Token :=
  zeroLine ++ [⟨.newline, "", 1, 11, 12⟩, ⟨.newline, "", 2, 0, 1⟩] ++ returnLine ++
    [⟨.newline, "", 3, 9, 10⟩] ++
    directLine

/-- Of three lines with tokens the second is refused, and reported with its own number. -/
theorem ofTokens_judged_lines :
    ∃ bs, (ofTokens (severalLines ++ [⟨.endOfText, "", 4, 9, 9⟩])).blocks? = some bs ∧
      bs.map (·.tokens) = [zeroLine, directLine] ∧
      ∃ d ∈ (ofTokens (severalLines ++ [⟨.endOfText, "", 4, 9, 9⟩])).reports,
        d.category = .semantic ∧ d.line = 3 := by
  have hread : (ofTokens (severalLines ++ [⟨.endOfText, "", 4, 9, 9⟩])).blocks?.isSome = true ∧
      Token.Compatible zeroLine ∧ ¬ Token.Compatible returnLine ∧ Token.Compatible directLine := by
    decide +kernel
  have hruns : Token.runs severalLines = [zeroLine, returnLine, directLine] := by decide
  obtain ⟨bs, hbs⟩ := Option.isSome_iff_exists.mp hread.1
  obtain ⟨hblocks, hreports, hjudged⟩ := ofTokens_judged (by decide) rfl hbs
  rw [hruns] at hblocks hreports hjudged
  obtain ⟨b, hb, htokens, -⟩ := (hjudged zeroLine (by simp)).kept hread.2.1
  obtain ⟨hnone, d, hd, hcategory, -, hline⟩ := (hjudged returnLine (by simp)).refused hread.2.2.1
  obtain ⟨b', hb', htokens', -⟩ := (hjudged directLine (by simp)).kept hread.2.2.2
  refine ⟨bs, hbs, ?_, d, ?_, hcategory, (Option.some.inj hline).symm⟩
  · simp [hblocks, hb, hnone, hb', htokens, htokens']
  · simp only [hreports, List.flatMap_cons]
    exact List.mem_append_right _ (List.mem_append_left _ hd)

end Block
end Machining
