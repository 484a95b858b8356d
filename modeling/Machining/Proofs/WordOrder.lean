import Machining.Proofs.Acceptance
import Machining.Proofs.Twins

namespace Machining

structure Table.Agrees (table table' : Table Number Number) : Prop where
  size : table'.size = table.size
  found : ∀ e ∈ table.entries, ∃ v, table'.get? e.1 = some v ∧ (v == e.2) = true

namespace Token
variable {ts us : List Token} {l : Letter} {t : Token}

/-- A line of words on which every letter other than G and M occurs once at most, all codes are
numbers, and no tool or label is infinite. -/
structure WordLine (ts : List Token) : Prop where
  nonempty : ts ≠ []
  words : ∀ t ∈ ts, ∃ l, t.kind = .word l
  oneLine : ∀ t ∈ ts, ∀ u ∈ ts, t.line = u.line
  once : ∀ l, l ≠ .g → l ≠ .m → (ts.filter (·.kind = .word l)).length ≤ 1
  numbers : ∀ l, l = .g ∨ l = .m → ∀ v ∈ codes l ts, (v == v) = true
  bounded : ∀ t ∈ ts, ¬ t.Unbounded

theorem codes_perm (h : us.Perm ts) (l : Letter) : (codes l us).Perm (codes l ts) :=
  (h.filter _).filterMap _

theorem WordLine.perm (h : WordLine ts) (hperm : us.Perm ts) : WordLine us where
  nonempty hnil := h.nonempty (by simpa [hnil] using hperm)
  words t ht := h.words t (hperm.subset ht)
  oneLine t ht u hu := h.oneLine t (hperm.subset ht) u (hperm.subset hu)
  once l hg hm := (hperm.filter _).length_eq.trans_le (h.once l hg hm)
  numbers l hl v hv := h.numbers l hl v ((codes_perm hperm l).subset hv)
  bounded t ht := h.bounded t (hperm.subset ht)

/-- A letter that occurs once has the same last word wherever that stands. -/
theorem WordLine.last?_perm (h : WordLine ts) (hperm : us.Perm ts) (hg : l ≠ .g) (hm : l ≠ .m) :
    last? l us = last? l ts := by
  have hfilter := hperm.filter (fun t => decide (t.kind = .word l))
  have hshort := h.once l hg hm
  have hsame : us.filter (fun t => decide (t.kind = .word l)) =
      ts.filter (fun t => decide (t.kind = .word l)) := by
    generalize ts.filter (fun t => decide (t.kind = .word l)) = vs at hfilter hshort
    cases vs with
    | nil => exact hfilter.eq_nil
    | cons v vs =>
      have hvs : vs = [] := List.length_eq_zero_iff.mp (by simpa using hshort)
      rw [hvs] at hfilter ⊢
      exact hfilter.eq_singleton
  rw [last?, last?, hsame]

/-- Whether codes go together does not depend on the order of the words. -/
theorem WordLine.compatible_perm (h : WordLine ts) (hperm : us.Perm ts) :
    Compatible us ↔ Compatible ts := by
  have hcodes (a : Number) : a ∈ codes .g us ↔ a ∈ codes .g ts := (codes_perm hperm .g).mem_iff
  have hlast (i : Axis) : last? (.axis i) us = last? (.axis i) ts := h.last?_perm hperm nofun nofun
  simp only [compatible_iff, hcodes, hlast]

end Token

namespace Block
variable {b c : Block Number} {t last : Token} {ts us : List Token} {l : Letter}
    {ds : List Diagnostic}

/-- Record a token, or set it down unread if its number cannot be held. -/
def take (b : Block Number) (t : Token) : Block Number := (b.add t).toOption.getD (b.record t)

def ofRun (run : List Token) : Block Number := run.foldl take (.empty (run.head?.elim 0 Token.line))

theorem Filled.eq_foldl (h : Filled b ts (some c) ds) : c = ts.foldl take b := by
  generalize hlast : some c = closed at h
  induction h with
  | done b =>
    cases hlast
    rfl
  | adds added behind ih => simpa [take, added, Except.toOption] using ih hlast
  | skips failed behind ih => simpa [take, failed, Except.toOption] using ih hlast
  | stops failed => cases hlast

theorem Filled.stopped (h : Filled b ts none ds) : ∃ t ∈ ts, t.Unbounded := by
  generalize hlast : (none : Option (Block Number)) = closed at h
  induction h with
  | done b => cases hlast
  | adds added behind ih =>
    obtain ⟨t, ht, hu⟩ := ih hlast
    exact ⟨t, List.mem_cons_of_mem _ ht, hu⟩
  | skips failed behind ih =>
    obtain ⟨t, ht, hu⟩ := ih hlast
    exact ⟨t, List.mem_cons_of_mem _ ht, hu⟩
  | stops failed =>
    rcases add_error failed with h | ⟨-, hu⟩
    · cases h
    · exact ⟨_, List.mem_cons_self, hu⟩

/-- Read by itself, a line makes its block, which is kept if it is accepted. -/
theorem ofTokens_ofRun (h : Token.WordLine ts) (hlast : last.endsLine = true) :
    (ofTokens (ts ++ [last])).blocks? = some (if (ofRun ts).isValid then [ofRun ts] else []) ∧
      (ofRun ts).Faithful ∧ (ofRun ts).tokens = ts ∧ ∀ t ∈ ts, (ofRun ts).line = t.line := by
  have hinner : ∀ t ∈ ts, t.endsLine = false := by
    intro t ht
    obtain ⟨l, hl⟩ := h.words t ht
    simp [Token.endsLine, hl]
  obtain ⟨t, rest, rfl⟩ := List.exists_cons_of_ne_nil h.nonempty
  obtain ⟨closed, ds, hfilled, hread⟩ := readFrom_run hinner hlast
  cases closed with
  | none =>
    obtain ⟨u, hu, hunbounded⟩ := hfilled.stopped
    exact absurd hunbounded (h.bounded u hu)
  | some b =>
    have hb : b = ofRun (t :: rest) := hfilled.eq_foldl
    obtain ⟨htokens, hline⟩ := hfilled.tokens b rfl
    have hfaithful := hfilled.faithful (faithful_empty t.line) b rfl
    rw [hb] at hread htokens hline hfaithful
    refine ⟨?_, hfaithful, htokens, fun u hu => hline.trans (h.oneLine t List.mem_cons_self u hu)⟩
    rw [ofTokens, hread, Reading.ofRow_blocks]

structure Worded (b : Block Number) : Prop where
  fields : ∀ l, b.field l = (b.lastWord? l).bind (Token.fieldValue? l)
  oWord : b.oWord = (b.lastWord? .o).map Token.value
  quiet : b.comment = none ∧ b.message = none ∧ b.debug = none ∧ b.script = none

theorem worded_empty (line : Int) : Worded (empty line) :=
  ⟨(recorded_empty line).fields, rfl, rfl, rfl, rfl, rfl⟩

theorem add_word {b' : Block Number} (hk : t.kind = .word l) (h : b.add t = .ok b') :
    b'.oWord = (if l = .o then some t.value else b.oWord) ∧
      b'.comment = b.comment ∧ b'.message = b.message ∧ b'.debug = b.debug ∧
      b'.script = b.script := by
  simp only [add, hk] at h
  cases l with
  | g | m =>
    simp only [addWord] at h
    split at h <;> cases h <;> exact ⟨rfl, rfl, rfl, rfl, rfl⟩
  | t | n =>
    simp only [addWord] at h
    cases hw : wholeWord t.value with
    | error e =>
      rw [hw] at h
      cases h
    | ok n =>
      rw [hw] at h
      cases h
      exact ⟨rfl, rfl, rfl, rfl, rfl⟩
  | o | axis i | param d =>
    cases h
    exact ⟨rfl, rfl, rfl, rfl, rfl⟩

theorem Worded.add {b' : Block Number} (h : b.Worded) (hk : t.kind = .word l)
    (hadd : b.add t = .ok b') : b'.Worded := by
  obtain ⟨htokens, -, -, -, hfields⟩ := added_of_add hadd
  obtain ⟨hoWord, hcomment, hmessage, hdebug, hscript⟩ := add_word hk hadd
  have hlast (l : Letter) : b'.lastWord? l = if t.kind = .word l then some t
      else b.lastWord? l := by
    rw [← lastWord?_record, lastWord?, htokens]
    rfl
  refine ⟨fun l => ?_, ?_, ?_⟩
  · rw [hfields, hlast]
    split
    · rfl
    · exact h.fields l
  · rw [hoWord, hlast, hk]
    by_cases ho : l = .o
    · simp [ho]
    · simp [ho, h.oWord]
  · rw [hcomment, hmessage, hdebug, hscript]
    exact h.quiet

theorem fieldValue?_of_error {e : Fault} (hk : t.kind = .word l) (h : b.add t = .error e) :
    t.fieldValue? l = none := by
  simp only [add, hk] at h
  cases l with
  | t | n =>
    simp only [addWord] at h
    cases hw : wholeWord t.value with
    | ok n =>
      rw [hw] at h
      cases h
    | error e => simp [Token.fieldValue?, hw, Except.toOption]
  | axis i | param d => cases h
  | g | m | o => rfl

/-- A word that cannot be held leaves its field empty if it is the first of its letter. -/
theorem Worded.record {e : Fault} (h : b.Worded) (hk : t.kind = .word l) (hadd : b.add t = .error e)
    (hfirst : b.lastWord? l = none) : (b.record t).Worded := by
  have hletter : l = .t ∨ l = .n := by
    rcases add_error_kind hadd with hkind | hkind <;> rw [hk, TokenKind.word.injEq] at hkind
    · exact .inl hkind
    · exact .inr hkind
  refine ⟨fun l' => ?_, ?_, h.quiet⟩
  · rw [lastWord?_record, hk]
    by_cases hl : l' = l
    · subst hl
      have hnone : b.field l' = none := by rw [h.fields, hfirst, Option.bind_none]
      rw [if_pos rfl, Option.bind_some, fieldValue?_of_error hk hadd]
      cases l' <;> exact hnone
    · rw [if_neg (by simpa using Ne.symm hl), ← h.fields]
      cases l' <;> rfl
  · rw [lastWord?_record, hk, if_neg (by rcases hletter with rfl | rfl <;> simp)]
    exact h.oWord

theorem Worded.take (h : b.Worded) (hk : t.kind = .word l)
    (hfirst : l ≠ .g → l ≠ .m → b.lastWord? l = none) : (b.take t).Worded := by
  cases hadd : b.add t with
  | ok b' =>
    simp only [Block.take, hadd, Except.toOption, Option.getD_some]
    exact h.add hk hadd
  | error e =>
    simp only [Block.take, hadd, Except.toOption, Option.getD_none]
    refine h.record hk hadd (hfirst ?_ ?_) <;> rintro rfl <;>
      rcases add_error_kind hadd with hkind | hkind <;>
      rw [hk] at hkind <;> cases hkind

theorem take_tokens (b : Block Number) (t : Token) :
    (b.take t).tokens = b.tokens ++ [t] ∧ (b.take t).line = b.line := by
  cases hadd : b.add t with
  | ok b' =>
    simp only [take, hadd, Except.toOption, Option.getD_some]
    exact add_tokens hadd
  | error e =>
    simp only [take, hadd, Except.toOption, Option.getD_none]
    exact ⟨rfl, rfl⟩

theorem foldl_take_tokens (b : Block Number) (ts : List Token) :
    (ts.foldl take b).tokens = b.tokens ++ ts := by
  induction ts generalizing b with
  | nil => simp
  | cons t ts ih =>
    rw [List.foldl_cons, ih, (take_tokens b t).1, List.append_assoc, List.singleton_append]

/-- Words whose letters occur once, G and M aside, are each held in the field of their letter. -/
theorem worded_foldl (line : Int) (hwords : ∀ t ∈ ts, ∃ l, t.kind = .word l)
    (honce : ∀ l, l ≠ .g → l ≠ .m → (ts.filter (·.kind = .word l)).length ≤ 1) :
    (ts.foldl take (.empty line)).Worded := by
  induction ts using List.reverseRecOn with
  | nil => exact worded_empty line
  | append_singleton ts t ih =>
    obtain ⟨l, hl⟩ := hwords t (by simp)
    have hshort : ∀ l, l ≠ .g → l ≠ .m → (ts.filter (·.kind = .word l)).length ≤ 1 := by
      intro l hg hm
      refine le_trans ?_ (honce l hg hm)
      simp [List.filter_append]
    rw [List.foldl_append]
    refine (ih (fun u hu => hwords u (by simp [hu])) hshort).take hl fun hg hm => ?_
    have hnew := honce l hg hm
    simp only [List.filter_append, List.length_append, hl, decide_true, List.filter_cons_of_pos,
      List.length_singleton, List.filter_nil] at hnew
    rw [lastWord?, foldl_take_tokens]
    change (ts.filter _).getLast? = none
    rw [List.length_eq_zero_iff.mp (by omega : (ts.filter (·.kind = .word l)).length = 0)]
    rfl

end Block

/-- The same number in one spelling, or two zeros. -/
def Number.Respelled (a c : Number) : Prop := a = c ∨ (a == .int 0) = true ∧ (c == .int 0) = true

namespace Table.Collects
variable {table table' : Table Number Number} {l : Letter} {ts us : List Token}

theorem key_float (h : table.Collects l ts) {k : Number} (hk : k ∈ table.keys) :
    ∃ x, k = .float x := by
  obtain ⟨t, -, -, hnumber⟩ := h.named k hk
  obtain ⟨x, -, rfl⟩ := Option.map_eq_some_iff.mp hnumber
  exact ⟨x, rfl⟩

theorem different (h : table.Collects l ts) (hself : ∀ v ∈ Token.codes l ts, (v == v) = true) :
    Number.Different table.keys := by
  refine ⟨fun k hk => ?_, h.distinct⟩
  obtain ⟨x, rfl⟩ := h.key_float hk
  exact Number.place?_of_beq_self (hself _ (h.mem_codes hk))

theorem matched (h : table.Collects l ts) (h' : table'.Collects l us) (hperm : us.Perm ts)
    (hself : ∀ v ∈ Token.codes l ts, (v == v) = true) : Number.Matched table.keys table'.keys := by
  have hcodes (v : Number) : v ∈ Token.codes l us ↔ v ∈ Token.codes l ts :=
    (Token.codes_perm hperm l).mem_iff
  have hself' : ∀ v ∈ Token.codes l us, (v == v) = true := fun v hv => hself v ((hcodes v).mp hv)
  refine ⟨h.different hself, h'.different hself', fun k hk => ?_, fun k hk => ?_⟩
  · have hmem := h.mem_codes hk
    exact h'.exists_key ((hcodes k).mpr hmem) (hself k hmem)
  · have hmem := h'.mem_codes hk
    exact h.exists_key ((hcodes k).mp hmem) (hself' k hmem)

theorem agrees (h : table.Collects l ts) (h' : table'.Collects l us)
    (hm : Number.Matched table.keys table'.keys) :
    table.Agrees table' := by
  have hlength := hm.length_eq
  rw [keys, keys, List.length_map, List.length_map] at hlength
  refine ⟨hlength, fun e he => ?_⟩
  have hkey : e.1 ∈ table.keys := List.mem_map.mpr ⟨e, he, rfl⟩
  obtain ⟨k, hk, heq⟩ := hm.leads e.1 hkey
  obtain ⟨e', he', rfl⟩ := List.mem_map.mp hk
  have hsome : (table'.entries.find? fun e' => e'.1 == e.1).isSome = true :=
    List.find?_isSome.mpr ⟨e', he', heq⟩
  obtain ⟨found, hfound⟩ := Option.isSome_iff_exists.mp hsome
  have hmem := List.mem_of_find?_eq_some hfound
  have hsame : (found.1 == e.1) = true := by simpa using List.find?_some hfound
  have hleft : (e.1 == e.2) = true :=
    (h.spelled e he).elim (fun hs => hs ▸ BEq.trans (BEq.symm hsame) hsame) id
  have hright : (found.1 == found.2) = true :=
    (h'.spelled found hmem).elim (fun hs => hs ▸ BEq.trans hsame (BEq.symm hsame)) id
  refine ⟨found.2, by rw [get?, hfound, Option.map_some], ?_⟩
  exact BEq.trans (BEq.symm hright) (BEq.trans hsame hleft)

theorem contains_eq (hm : Number.Matched table.keys table'.keys) (k : Number) :
    table'.contains k = table.contains k := by
  rw [Bool.eq_iff_iff, contains_iff, contains_iff]
  constructor
  · rintro ⟨k', hk', heq⟩
    obtain ⟨found, hfound, hsame⟩ := hm.back k' hk'
    exact ⟨found, hfound, BEq.trans hsame heq⟩
  · rintro ⟨k', hk', heq⟩
    obtain ⟨found, hfound, hsame⟩ := hm.leads k' hk'
    exact ⟨found, hfound, BEq.trans hsame heq⟩

/-- In order, the codes are the same one by one, but for the spelling of a zero. -/
theorem sort_respelled (h : table.Collects l ts) (h' : table'.Collects l us)
    (hm : Number.Matched table.keys table'.keys) :
    ∃ codes codes', Number.sort table.keys = .ok codes ∧ Number.sort table'.keys = .ok codes' ∧
      List.Forall₂ Number.Respelled codes codes' := by
  obtain ⟨codes, codes', hsort, hsort', hequal⟩ := hm.sort
  refine ⟨codes, codes', hsort, hsort', hequal.imp fun a c hac => ?_⟩
  obtain ⟨ha, hc, heq⟩ := hac
  obtain ⟨x, rfl⟩ := h.key_float ha
  obtain ⟨y, rfl⟩ := h'.key_float hc
  exact (Number.float_beq_cases heq).imp_left (congrArg Number.float)

end Table.Collects

def Block.SameRest (b c : Block Number) : Prop :=
  c = { b with g := c.g, m := c.m, tokens := c.tokens }

theorem Block.SameRest.line {b c : Block Number} (h : b.SameRest c) : c.line = b.line := by rw [h]

namespace Motion
variable {b c : Block Number} {a a' : Number} {as as' : List Number} {d : Controller Number}

theorem ofNumber?_zero (h : (a == .int 0) = true) : GCode.ofNumber? a = some .rapid := by
  simp [GCode.ofNumber?, GCode.all, GCode.number, BEq.symm h]

/-- Which codes a block has is not asked while one of them is carried out. -/
theorem perform_rest (h : b.SameRest c) (g : GCode) : perform g c d = perform g b d := by
  rw [h]
  cases g <;> rfl

theorem execute_respelled (h : b.SameRest c) (ha : a.Respelled a') :
    ∃ ds, execute a' c d = ((execute a b d).1, { (execute a b d).2 with reports := ds }) := by
  rcases ha with rfl | ⟨ha, ha'⟩
  · refine ⟨(execute a b d).2.reports, ?_⟩
    simp only [execute, perform_rest h, h.line]
  · simp only [execute, perform_rest h, h.line, ofNumber?_zero ha, ofNumber?_zero ha']
    cases (perform .rapid b d).outcome with
    | ok ok => exact ⟨_, rfl⟩
    | error f => exact ⟨_, rfl⟩

/-- What a code does does not depend on what was reported before. -/
theorem execute_setReports (code : Number) (b : Block Number) (d : Controller Number)
    (ds : List Diagnostic) :
    ∃ more, execute code b { d with reports := ds } =
      ((execute code b d).1, { (execute code b d).2 with reports := more }) := by
  have hd : d = Controller.after d.reports { d with reports := [] } := by simp [Controller.after]
  have hds : { d with reports := ds } = Controller.after ds { d with reports := [] } := by
    simp [Controller.after]
  refine ⟨ds ++ (execute code b { d with reports := [] }).2.reports, ?_⟩
  rw [hds, execute_after, hd, execute_after]
  rfl

theorem executeAll_respelled (h : b.SameRest c) (has : List.Forall₂ Number.Respelled as as')
    (d : Controller Number) (ds : List Diagnostic) :
    ∃ more, executeAll c as' { d with reports := ds } =
      ((executeAll b as d).1, { (executeAll b as d).2 with reports := more }) := by
  induction has generalizing d ds with
  | nil => exact ⟨ds, rfl⟩
  | @cons a a' as as' ha has ih =>
    obtain ⟨more, hmore⟩ := execute_setReports a b d ds
    obtain ⟨more', hmore'⟩ := execute_respelled (d := { d with reports := ds }) h ha
    rw [hmore] at hmore'
    unfold executeAll
    rw [hmore']
    cases execute a b d with
    | mk ok d' =>
      cases ok with
      | true => exact ih d' more'
      | false => exact ⟨more', rfl⟩

end Motion

namespace Auxiliary
variable {b c : Block Number} {a a' : Number} {as as' : List Number} {s : Station}

theorem ofNumber?_zero (h : (a == .int 0) = true) : MCode.ofNumber? a = some .pause := by
  simp [MCode.ofNumber?, MCode.all, MCode.number, BEq.symm h]

theorem perform_rest (h : b.SameRest c) (m : MCode) : perform m c s = perform m b s := by
  rw [h]
  cases m <;> rfl

theorem execute_respelled (bare : s.Bare) (h : b.SameRest c) (ha : a.Respelled a') :
    execute a' c s = execute a b s := by
  rcases ha with rfl | ⟨ha, ha'⟩
  · have hnone : s.actions.get? a = none := by rw [bare]; rfl
    simp only [execute, executeBuiltin, executeCustom, refuse, perform_rest h, h.line, hnone]
  · simp only [execute, executeBuiltin, perform_rest h, h.line, ofNumber?_zero ha,
      ofNumber?_zero ha']
    rfl

theorem executeAll_respelled (bare : s.Bare) (h : b.SameRest c)
    (has : List.Forall₂ Number.Respelled as as') : executeAll c as' s = executeAll b as s := by
  induction has generalizing s with
  | nil => rfl
  | @cons a a' as as' ha has ih =>
    have hfirst := execute_respelled bare h ha
    by_cases hok : (execute a b s).outcome = .ok true
    · rw [executeAll_of_ok (hfirst ▸ hok), executeAll_of_ok hok, hfirst]
      exact ih (bare_execute bare a b)
    · rw [executeAll_of_not_ok (hfirst ▸ hok), executeAll_of_not_ok hok, hfirst]

end Auxiliary

/-- Blocks with the same fields and the same codes, and tokens in another order. -/
structure Block.Alike (b c : Block Number) : Prop where
  rest : b.SameRest c
  g : b.g.Agrees c.g
  m : b.m.Agrees c.m
  tokens : c.tokens.Perm b.tokens
  valid : c.isValid = b.isValid

namespace Interpreter
variable {b c : Block Number} {s : Station}

def SortedAlike (table table' : Table Number Number) : Prop :=
  ∃ codes codes', Number.sort table.keys = .ok codes ∧ Number.sort table'.keys = .ok codes' ∧
    List.Forall₂ Number.Respelled codes codes'

/-- The same work on the path and on the machine, with reports in words of their own. -/
def SameWork (r r' : Auxiliary.Result) : Prop :=
  ∃ ds, r' = ⟨{ r.station with control := { r.station.control with reports := ds } }, r.outcome⟩

theorem runGCodes_alike (h : b.SameRest c) (hg : SortedAlike b.g c.g) (s : Station) :
    SameWork (runGCodes b s) (runGCodes c s) := by
  obtain ⟨codes, codes', hsort, hsort', hcodes⟩ := hg
  obtain ⟨more, hmore⟩ := Motion.executeAll_respelled h hcodes s.control s.control.reports
  refine ⟨more, ?_⟩
  simp only [runGCodes, hsort, hsort']
  rw [hmore]

theorem runCodes_alike (h : b.SameRest c) (hm : SortedAlike b.m c.m) (hg : SortedAlike b.g c.g)
    (bare : s.Bare) : SameWork (runCodes b s) (runCodes c s) := by
  have hsame : runMCodes c s = runMCodes b s := by
    obtain ⟨codes, codes', hsort, hsort', hcodes⟩ := hm
    simp only [runMCodes, hsort, hsort']
    exact Auxiliary.executeAll_respelled bare h hcodes
  by_cases hok : (runMCodes b s).outcome = .ok true
  · rw [runCodes_of_ok hok, runCodes_of_ok (hsame ▸ hok), hsame]
    exact runGCodes_alike h hg _
  · rw [runCodes_of_not_ok hok, runCodes_of_not_ok (hsame ▸ hok), hsame]
    exact ⟨_, rfl⟩

/-- Comments and settings of a block are taken before its codes. -/
theorem executeBlock_alike (h : b.SameRest c) (hfeed : feedMode? c = feedMode? b)
    (hm : SortedAlike b.m c.m) (hg : SortedAlike b.g c.g) (t : Interpreter)
    (bare : t.station.Bare) :
    ∃ ds, executeBlock c t = ((executeBlock b t).1.setReports ds, (executeBlock b t).2) := by
  have hann : announcements c = announcements b := by rw [h]; rfl
  have hnote : note c = note b := by
    funext m
    unfold note
    rw [hfeed, h]
    rfl
  have hbare : ({ t with station := (announcements b).foldl Station.print t.station }.modifyMachine
      (note b)).station.Bare := by
    rw [foldl_print]
    unfold modifyMachine
    split <;> exact bare
  obtain ⟨ds, hds⟩ := runCodes_alike h hm hg hbare
  refine ⟨ds, ?_⟩
  unfold executeBlock
  simp only [hann, hnote]
  rw [hds]
  rfl

end Interpreter

namespace Block
variable {last : Token} {ts us : List Token}

/-- Blocks of one line with the same last words agree in all but codes and tokens. -/
theorem Worded.sameRest {b c : Block Number} (hb : b.Worded) (hc : c.Worded)
    (hline : c.line = b.line) (hlast : ∀ l, l ≠ .g → l ≠ .m → c.lastWord? l = b.lastWord? l) :
    b.SameRest c := by
  have hfield : ∀ l, l ≠ .g → l ≠ .m → c.field l = b.field l := fun l hg hm => by
    rw [hb.fields, hc.fields, hlast l hg hm]
  have haxes : c.axes = b.axes := Axes.ext_get fun i => hfield (.axis i) nofun nofun
  have hparams : c.params = b.params := by
    have hget : c.params.get = b.params.get := funext fun d => hfield (.param d) nofun nofun
    exact congrArg Params.ofFn hget
  have htool : c.tool = b.tool := hfield .t nofun nofun
  have hlabel : c.label = b.label := hfield .n nofun nofun
  have hoWord : c.oWord = b.oWord := by rw [hb.oWord, hc.oWord, hlast .o nofun nofun]
  obtain ⟨hcomment, hmessage, hdebug, hscript⟩ := hb.quiet
  obtain ⟨hcomment', hmessage', hdebug', hscript'⟩ := hc.quiet
  obtain ⟨⟩ := b
  obtain ⟨⟩ := c
  simp_all only [SameRest]

theorem sameRest_ofRun (h : Token.WordLine ts) (hperm : us.Perm ts)
    (hline : (ofRun us).line = (ofRun ts).line) (htokens : (ofRun ts).tokens = ts)
    (htokens' : (ofRun us).tokens = us) : (ofRun ts).SameRest (ofRun us) := by
  have h' := h.perm hperm
  refine (worded_foldl _ h.words h.once).sameRest (worded_foldl _ h'.words h'.once) hline
    fun l hg hm => ?_
  change Token.last? l (ofRun us).tokens = Token.last? l (ofRun ts).tokens
  rw [htokens, htokens']
  exact h.last?_perm hperm hg hm

/-- The order of the words on a line does not matter, if letters other than G and M occur once. Read
in any order they make blocks with the same fields and codes, which are both accepted or both not;
and without custom codes either block does the same to every interpreter, in other words at most
when it reports. -/
theorem ofRun_perm (h : Token.WordLine ts) (hperm : us.Perm ts) (hlast : last.kind = .endOfText) :
    (ofTokens (ts ++ [last])).blocks? = some (if (ofRun ts).isValid then [ofRun ts] else []) ∧
    (ofTokens (us ++ [last])).blocks? = some (if (ofRun us).isValid then [ofRun us] else []) ∧
    (ofRun ts).Alike (ofRun us) ∧
    ∀ t : Interpreter, t.station.Bare → ∃ ds, Interpreter.executeBlock (ofRun us) t =
      ((Interpreter.executeBlock (ofRun ts) t).1.setReports ds,
        (Interpreter.executeBlock (ofRun ts) t).2) := by
  have hends : last.endsLine = true := by simp [Token.endsLine, hlast]
  have h' := h.perm hperm
  obtain ⟨hread, hfaithful, htokens, hline⟩ := ofTokens_ofRun h hends
  obtain ⟨hread', hfaithful', htokens', hline'⟩ := ofTokens_ofRun h' hends
  have hg : (ofRun ts).g.Collects .g ts := by simpa only [htokens] using hfaithful.g
  have hg' : (ofRun us).g.Collects .g us := by simpa only [htokens'] using hfaithful'.g
  have hm : (ofRun ts).m.Collects .m ts := by simpa only [htokens] using hfaithful.m
  have hm' : (ofRun us).m.Collects .m us := by simpa only [htokens'] using hfaithful'.m
  have hgs := hg.matched hg' hperm (h.numbers .g (.inl rfl))
  have hms := hm.matched hm' hperm (h.numbers .m (.inr rfl))
  obtain ⟨t, ht⟩ := List.exists_mem_of_ne_nil _ h.nonempty
  have hrest :=
    sameRest_ofRun h hperm ((hline' t (hperm.mem_iff.mpr ht)).trans (hline t ht).symm)
      htokens htokens'
  have hvalid : (ofRun us).isValid = (ofRun ts).isValid := by
    rw [Bool.eq_iff_iff, isValid_iff hfaithful, isValid_iff hfaithful', htokens, htokens']
    exact h.compatible_perm hperm
  have hfeed : Interpreter.feedMode? (ofRun us) = Interpreter.feedMode? (ofRun ts) := by
    unfold Interpreter.feedMode?
    congr 1
    funext code
    exact Table.Collects.contains_eq hgs code
  refine ⟨hread, hread', ⟨hrest, hg.agrees hg' hgs, hm.agrees hm' hms, ?_, hvalid⟩,
    fun t bare => ?_⟩
  · rw [htokens, htokens']
    exact hperm
  · exact Interpreter.executeBlock_alike hrest hfeed (hm.sort_respelled hm' hms)
      (hg.sort_respelled hg' hgs) t bare

def scattered : List Token :=
  [⟨.word .g, "0", 1, 0, 2⟩, ⟨.word .m, "-0", 1, 3, 6⟩, ⟨.word (.axis .x), "5", 1, 7, 9⟩,
    ⟨.word .t, "nan", 1, 10, 14⟩, ⟨.word .m, "8", 1, 15, 17⟩, ⟨.word .g, "-0", 1, 18, 21⟩,
    ⟨.word .g, "91", 1, 22, 25⟩]

theorem scattered_wordLine : Token.WordLine scattered where
  nonempty := by decide
  words t ht := by
    simp only [scattered, List.mem_cons, List.not_mem_nil, or_false] at ht
    rcases ht with rfl | rfl | rfl | rfl | rfl | rfl | rfl <;> exact ⟨_, rfl⟩
  oneLine := by decide
  once l hg hm := by
    cases l with
    | g => exact absurd rfl hg
    | m => exact absurd rfl hm
    | axis i => cases i <;> decide
    | param d => cases d <;> decide
    | o | t | n => decide
  numbers l hl := by rcases hl with rfl | rfl <;> decide +kernel
  bounded t ht hu := by
    have hfinite : (scattered.all fun t => (Decimal.ofText? t.value).all fun x => !x.isInf) =
        true := by decide +kernel
    obtain ⟨-, x, hx, hinf⟩ := hu
    simpa [hx, hinf] using List.all_eq_true.mp hfinite t ht

/-- Backwards, the words make the same block, and it does the same. -/
theorem ofRun_perm_backwards :
    (ofTokens (scattered.reverse ++ [⟨.endOfText, "", 1, 25, 25⟩])).blocks? =
      some [ofRun scattered.reverse] ∧
    (ofRun scattered.reverse).axes = (ofRun scattered).axes ∧
    (Interpreter.executeBlock (ofRun scattered.reverse) .initial).1.path =
      (Interpreter.executeBlock (ofRun scattered) .initial).1.path ∧
    (Interpreter.executeBlock (ofRun scattered.reverse) .initial).1.station.modes =
      (Interpreter.executeBlock (ofRun scattered) .initial).1.station.modes := by
  have hlast : (⟨.endOfText, "", 1, 25, 25⟩ : Token).kind = .endOfText := rfl
  obtain ⟨-, hread, halike, hwork⟩ :=
    ofRun_perm scattered_wordLine (List.reverse_perm scattered) hlast
  have hvalid : (ofRun scattered).isValid = true := by decide +kernel
  obtain ⟨ds, hds⟩ := hwork .initial rfl
  refine ⟨?_, by rw [halike.rest], ?_⟩
  · rw [hread, halike.valid, hvalid]
    rfl
  · rw [hds]
    generalize Interpreter.executeBlock (ofRun scattered) .initial = r
    exact ⟨rfl, rfl⟩

end Block
end Machining
