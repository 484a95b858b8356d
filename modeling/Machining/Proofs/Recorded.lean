import Machining.Proofs.Numeral
import Machining.Proofs.Rounds
import Machining.Proofs.Unreadable

namespace Machining

namespace Table
variable {κ ν : Type} [BEq κ] {t : Table κ ν} {k k' : κ} {v : ν}

theorem contains_iff : t.contains k = true ↔ ∃ k' ∈ t.keys, (k' == k) = true := by
  simp [contains, keys]

theorem mem_keys_put_of_mem (h : k' ∈ t.keys) : k' ∈ (t.put k v).keys := by
  obtain ⟨entries⟩ := t
  simp only [keys, put] at h ⊢
  induction entries with
  | nil => cases h
  | cons e es ih =>
    unfold put.go
    rcases List.mem_cons.mp h with rfl | h
    · split <;> simp
    · split
      · exact List.mem_cons_of_mem _ h
      · exact List.mem_cons_of_mem _ (ih h)

/-- A key that equals itself is found once it is put. -/
theorem contains_put_self (h : (k == k) = true) : (t.put k v).contains k = true := by
  rw [contains_iff]
  obtain ⟨entries⟩ := t
  simp only [keys, put]
  induction entries with
  | nil => exact ⟨k, by simp [put.go], h⟩
  | cons e es ih =>
    unfold put.go
    split
    · rename_i he
      exact ⟨e.1, by simp, he⟩
    · obtain ⟨k', hk', heq⟩ := ih
      exact ⟨k', List.mem_cons_of_mem _ hk', heq⟩

theorem contains_put_of_contains (h : t.contains k' = true) : (t.put k v).contains k' = true := by
  obtain ⟨found, hmem, heq⟩ := contains_iff.mp h
  exact contains_iff.mpr ⟨found, mem_keys_put_of_mem hmem, heq⟩

end Table

namespace Token

def IsReference (t : Token) : Prop := t.value.toList.head? = some '#'

instance (t : Token) : Decidable t.IsReference := inferInstanceAs (Decidable (_ = _))

def number? (t : Token) : Option Number := (Decimal.ofText? t.value).map .float

/-- What a word puts in the field of its letter. Tools and labels are whole, and zero without a
number. -/
def fieldValue? (l : Letter) (t : Token) : Option Number :=
  match l with
  | .axis _ | .param _ => t.number?
  | .t | .n => (Block.wholeWord t.value).toOption.map .int
  | .g | .m | .o => none

/-- The words of a text are numbers or references, and not both. -/
theorem scan_word {text : String} {t : Token} {l : Letter} (h : t ∈ (scan text).1)
    (hk : t.kind = .word l) :
    (¬ t.IsReference ∧ ∃ x, Decimal.ofText? t.value = some x ∧ x.isNaN = false) ∨
      t.IsReference ∧ Decimal.ofText? t.value = none := by
  obtain ⟨hne, cs, hcs⟩ := scan_valued h hk
  have hvalue : wordValue cs ≠ [] := by
    rw [← hcs]
    simpa using hne
  unfold IsReference Decimal.ofText?
  rw [hcs]
  exact wordValue_cases hvalue

end Token

structure Table.Lists (table : Table Number Number) (l : Letter) (ts : List Token) : Prop where
  held : ∀ t ∈ ts, t.kind = .word l → ∀ v, t.number? = some v → (v == v) = true →
    table.contains v = true
  named : ∀ k ∈ table.keys, ∃ t ∈ ts, t.kind = .word l ∧ t.number? = some k

def Table.withWord (table : Table Number Number) (l : Letter) (t : Token) : Table Number Number :=
  if t.kind = .word l then t.number?.elim table fun v => table.put v v else table

namespace Table.Lists
variable {table : Table Number Number} {l : Letter} {ts : List Token} {t : Token} {v : Number}

theorem nil (l : Letter) : Table.empty.Lists l [] := ⟨by simp, by simp [Table.empty, Table.keys]⟩

/-- A token without a number for the table leaves it as it is. -/
theorem skip (h : table.Lists l ts) (ht : t.kind = .word l → t.number? = none) :
    table.Lists l (ts ++ [t]) := by
  constructor
  · intro u hu hk v hv hself
    rcases List.mem_append.mp hu with hu | hu
    · exact h.held u hu hk v hv hself
    · rw [List.mem_singleton.mp hu] at hk hv
      rw [ht hk] at hv
      cases hv
  · intro k hk
    obtain ⟨u, hu, hword⟩ := h.named k hk
    exact ⟨u, List.mem_append_left _ hu, hword⟩

theorem put (h : table.Lists l ts) (hk : t.kind = .word l) (hv : t.number? = some v) :
    (table.put v v).Lists l (ts ++ [t]) := by
  constructor
  · intro u hu hku w hw hself
    rcases List.mem_append.mp hu with hu | hu
    · exact Table.contains_put_of_contains (h.held u hu hku w hw hself)
    · rw [List.mem_singleton.mp hu, hv] at hw
      cases hw
      exact Table.contains_put_self hself
  · intro k hkey
    rcases Table.mem_keys_put hkey with hkey | rfl
    · obtain ⟨u, hu, hword⟩ := h.named k hkey
      exact ⟨u, List.mem_append_left _ hu, hword⟩
    · exact ⟨t, by simp, hk, hv⟩

theorem withWord (h : table.Lists l ts) (t : Token) : (table.withWord l t).Lists l (ts ++ [t]) := by
  unfold Table.withWord
  split
  · rename_i hk
    cases hv : t.number? with
    | none => exact h.skip fun _ => hv
    | some v => exact h.put hk hv
  · rename_i hk
    exact h.skip fun hword => absurd hword hk

end Table.Lists

namespace Block
variable {b b' : Block Number} {t : Token} {l : Letter}

def lastWord? (b : Block Number) (l : Letter) : Option Token :=
  (b.tokens.filter (·.kind = .word l)).getLast?

def field (b : Block Number) : Letter → Option Number
  | .axis i => b.axis i
  | .param d => b.param d
  | .t => b.tool
  | .n => b.label
  | .g | .m | .o => none

structure Recorded (b : Block Number) : Prop where
  g : b.g.Lists .g b.tokens
  m : b.m.Lists .m b.tokens
  fields : ∀ l, b.field l = (b.lastWord? l).bind (Token.fieldValue? l)

theorem recorded_empty (line : Int) : Recorded (empty line) where
  g := .nil .g
  m := .nil .m
  fields l := by
    cases l with
    | axis i => simp [field, lastWord?, empty, axis, Axes.fill]
    | param d => simp [field, lastWord?, empty, param, Params.fill]
    | g | m | o | t | n => rfl

theorem lastWord?_record (b : Block Number) (t : Token) (l : Letter) :
    (b.record t).lastWord? l = if t.kind = .word l then some t else b.lastWord? l := by
  unfold lastWord? record
  by_cases hk : t.kind = .word l
  · simp [List.filter_append, hk]
  · simp [List.filter_append, hk]

structure Added (b : Block Number) (t : Token) (b' : Block Number) : Prop where
  tokens : b'.tokens = b.tokens ++ [t]
  line : b'.line = b.line
  g : b'.g = b.g.withWord .g t
  m : b'.m = b.m.withWord .m t
  fields : ∀ l, b'.field l = if t.kind = .word l then t.fieldValue? l else b.field l

theorem added_of_word (hk : t.kind = .word l) (h : b.add t = .ok b') : b.Added t b' := by
  obtain ⟨htokens, hline⟩ := add_tokens h
  simp only [add, hk] at h
  cases l with
  | g =>
    simp only [addWord] at h
    refine ⟨htokens, hline, ?_, ?_, fun l => ?_⟩
    · simp only [Table.withWord, hk, if_true, Token.number?]
      split at h <;> cases h <;> simp [*]
    · split at h <;> cases h <;> simp [Table.withWord, hk]
    · split at h <;> cases h <;> cases l <;> simp [field, hk, axis, param, Token.fieldValue?]
  | m =>
    simp only [addWord] at h
    refine ⟨htokens, hline, ?_, ?_, fun l => ?_⟩
    · split at h <;> cases h <;> simp [Table.withWord, hk]
    · simp only [Table.withWord, hk, if_true, Token.number?]
      split at h <;> cases h <;> simp [*]
    · split at h <;> cases h <;> cases l <;> simp [field, hk, axis, param, Token.fieldValue?]
  | t | n =>
    simp only [addWord] at h
    cases hw : wholeWord t.value with
    | error e => rw [hw] at h; cases h
    | ok n =>
      rw [hw] at h
      cases h
      refine ⟨htokens, hline,
        by simp [Table.withWord, hk], by simp [Table.withWord, hk], fun l => ?_⟩
      cases l <;> simp [field, hk, axis, param, Token.fieldValue?, hw, Except.toOption]
  | o | axis i | param d =>
    cases h
    refine ⟨htokens, hline, by simp [Table.withWord, hk], by simp [Table.withWord, hk], fun l => ?_⟩
    cases l <;> simp [field, hk, axis, param, Token.fieldValue?, Token.number?, eq_comm]

theorem added_of_add (h : b.add t = .ok b') : b.Added t b' := by
  by_cases hword : ∃ l, t.kind = .word l
  · obtain ⟨l, hk⟩ := hword
    exact added_of_word hk h
  · have hk : ∀ l, t.kind ≠ .word l := fun l hl => hword ⟨l, hl⟩
    obtain ⟨htokens, hline⟩ := add_tokens h
    have hsame : b'.g = b.g ∧ b'.m = b.m ∧ ∀ l, b'.field l = b.field l := by
      unfold add at h
      split at h
      · exact absurd ‹_› (hk _)
      all_goals
        cases h
        exact ⟨rfl, rfl, fun l => by cases l <;> rfl⟩
    exact ⟨htokens, hline,
      by simp [Table.withWord, hk, hsame.1], by simp [Table.withWord, hk, hsame.2.1], fun l => by
        simp [hk, hsame.2.2]⟩

theorem Recorded.add (h : b.Recorded) (hadd : b.add t = .ok b') : b'.Recorded := by
  obtain ⟨htokens, -, hg, hm, hfields⟩ := added_of_add hadd
  refine ⟨?_, ?_, fun l => ?_⟩
  · rw [hg, htokens]
    exact h.g.withWord t
  · rw [hm, htokens]
    exact h.m.withWord t
  · have hlast : b'.lastWord? l = (b.record t).lastWord? l := by rw [lastWord?, htokens]; rfl
    rw [hfields, hlast, lastWord?_record]
    split
    · rfl
    · exact h.fields l

/-- A row without a report on a token is recorded token by token. -/
theorem Filled.recorded {ts : List Token} {last : Option (Block Number)} {ds : List Diagnostic}
    (h : Filled b ts last ds) (hds : ds = []) (hb : b.Recorded) : ∀ c ∈ last, c.Recorded := by
  induction h with
  | done b =>
    rintro _ ⟨⟩
    exact hb
  | adds added behind ih => exact ih hds (hb.add added)
  | skips failed behind ih => cases hds
  | stops failed => simp

/-- A code that is one of a group is found in the tokens, so a group with two of them is
reported. -/
theorem groupReport_ne_nil (h : b.g.Lists .g b.tokens) {name : String} {codes : List Number}
    (hactive : b.activeCodes codes ≠ []) : b.groupReport name (b.activeCodes codes) ≠ [] := by
  obtain ⟨k, hk⟩ := List.exists_mem_of_ne_nil _ hactive
  obtain ⟨hkey, hcode⟩ := List.mem_filter.mp hk
  obtain ⟨t, ht, hword, hn⟩ := h.named k hkey
  obtain ⟨x, hx, rfl⟩ := Option.map_eq_some_iff.mp hn
  have hself : (Number.float x == .float x) = true := by
    rw [List.contains_eq_any_beq, List.any_eq_true] at hcode
    obtain ⟨c, -, hc⟩ := hcode
    exact Number.float_beq_self (Number.isNaN_of_beq hc)
  have hnames : namesCode (b.activeCodes codes) t = true := by
    have hcontains : (b.activeCodes codes).contains (.float x) = true := by
      rw [List.contains_eq_any_beq, List.any_eq_true]
      exact ⟨_, hk, hself⟩
    simp only [namesCode, hword, hx, hcontains, decide_true, Bool.and_self]
  have hwords : b.tokens.filter (namesCode (b.activeCodes codes)) ≠ [] :=
    List.ne_nil_of_mem (List.mem_filter.mpr ⟨ht, hnames⟩)
  obtain ⟨first, hfirst⟩ := Option.ne_none_iff_exists'.mp (mt List.head?_eq_none_iff.mp hwords)
  obtain ⟨last, hlast⟩ := Option.ne_none_iff_exists'.mp (mt List.getLast?_eq_none_iff.mp hwords)
  simp [groupReport, hfirst, hlast]

/-- A block is refused with a report on it, and not otherwise. -/
theorem reports_eq_nil_iff (h : b.g.Lists .g b.tokens) : b.reports = [] ↔ b.isValid = true := by
  have hgroups : b.groupReports = [] ↔ b.groupsAgree = true := by
    rw [groupReports, List.flatMap_eq_nil_iff, groupsAgree, List.all_eq_true]
    refine forall₂_congr fun e _ => ?_
    obtain ⟨name, codes⟩ := e
    simp only [decide_eq_true_iff]
    split
    · rename_i hlong
      have hactive : b.activeCodes codes ≠ [] := List.ne_nil_of_length_pos (by omega)
      exact ⟨fun hnil => absurd hnil (groupReport_ne_nil h hactive),
        fun hle => absurd hle (by omega)⟩
    · exact ⟨fun _ => by omega, fun _ => rfl⟩
  have hcontest : b.contestReports = [] ↔ b.axesContested = false := by
    unfold contestReports
    split <;> simp [*]
  rw [reports, List.append_eq_nil_iff, hgroups, hcontest, isValid, Bool.and_eq_true,
    Bool.not_eq_true']

/-- A row with nothing to report makes a block that is kept. -/
theorem readFrom_row_recorded {n : Nat} {ts : List Token} {next : Token} {bs : List (Block Number)}
    (inner : ∀ t ∈ ts, t.line = n ∧ t.Inner) (ends : next.kind = .newline)
    (hbs : (readFrom none (ts ++ [next])).blocks? = some bs)
    (hr : (readFrom none (ts ++ [next])).reports = [])
    (ht : t ∈ ts) : ∃ b ∈ bs, t ∈ b.tokens ∧ b.line = n ∧ b.Recorded := by
  rcases readFrom_row_filled inner ends with ⟨rfl, -⟩ | ⟨-, last, ds, hfilled, hread⟩
  · cases ht
  · rw [hread, Reading.ofRow_reports] at hr
    rw [hread] at hbs
    obtain ⟨hds, hblock⟩ := List.append_eq_nil_iff.mp hr
    cases last with
    | none => cases hbs
    | some b =>
      have hrecorded := hfilled.recorded hds (recorded_empty n) b rfl
      obtain ⟨htokens, hline⟩ := hfilled.tokens b rfl
      rw [Reading.ofRow_blocks, (reports_eq_nil_iff hrecorded.g).mp hblock] at hbs
      cases hbs
      exact ⟨b, by simp, by simpa [htokens, empty] using ht, hline, hrecorded⟩

theorem Reading.andThen_reports {r s : Reading} {first : List (Block Number)}
    (h : r.blocks? = some first) : (r.andThen s).reports = r.reports ++ s.reports := by
  simp [andThen, h]

theorem readFrom_rows_recorded {n : Nat} {ls : List (List Char)} {bs : List (Block Number)}
    (hbs : (readFrom none (Token.rowsFrom n ls)).blocks? = some bs)
    (hr : (readFrom none (Token.rowsFrom n ls)).reports = []) (ht : t ∈ Token.rowsFrom n ls)
    (hk : t.kind = .word l) : ∃ b ∈ bs, t ∈ b.tokens ∧ b.line = t.line ∧ b.Recorded := by
  induction ls generalizing n bs with
  | nil => cases ht
  | cons cs ls ih =>
    have hends : (Token.lineEnd n cs).kind = .newline := rfl
    rw [Token.rowsFrom_cons, readFrom_append Token.row_open hends] at hbs hr
    obtain ⟨first, rest, hfirst, hrest, rfl⟩ := Reading.andThen_blocks hbs
    rw [Reading.andThen_reports hfirst] at hr
    obtain ⟨hr₁, hr₂⟩ := List.append_eq_nil_iff.mp hr
    rw [Token.rowsFrom_cons] at ht
    rcases List.mem_append.mp ht with ht | ht
    · obtain ⟨b, hb, hmem, hline, hrecorded⟩ :=
        readFrom_row_recorded (fun t => Token.row_inner) hends hfirst hr₁ ht
      exact ⟨b, List.mem_append_left _ hb, hmem, by rw [hline, (Token.row_inner ht).1], hrecorded⟩
    · rcases List.mem_cons.mp ht with rfl | ht
      · cases hk
      · obtain ⟨b, hb, hword⟩ := ih hrest hr₂ ht
        exact ⟨b, List.mem_append_right _ hb, hword⟩

/-- The words a block should hold the value of: every code, and the last word of any other
letter. -/
def Counts (b : Block Number) (l : Letter) (t : Token) : Prop :=
  l = .g ∨ l = .m ∨ b.lastWord? l = some t

/-- A number held for a letter. Tools and labels are held without their fraction. -/
def Holds (b : Block Number) (l : Letter) (x : Float) : Prop :=
  match l with
  | .g => b.g.contains (.float x) = true
  | .m => b.m.contains (.float x) = true
  | .axis _ | .param _ => b.field l = some (.float x)
  | .t | .n => ∃ n, (Number.float x).truncate = .ok n ∧ b.field l = some (.int n)
  | .o => False

def blankField : Letter → Option Number
  | .t | .n => some (.int 0)
  | _ => none

theorem wholeWord_of_number {x : Float} (hx : Decimal.ofText? t.value = some x)
    (hnan : x.isNaN = false) (hinf : ¬ x.isInf = true) :
    ∃ n, (Number.float x).truncate = .ok n ∧ wholeWord t.value = .ok n := by
  refine ⟨Binary64.truncate x, ?_, ?_⟩
  · simp only [Number.truncate, hnan, hinf, Bool.false_eq_true, if_false]
  · simp only [wholeWord, hx, Number.truncate, hnan, hinf, Bool.false_eq_true, if_false]

theorem Recorded.holds (h : b.Recorded) (ht : t ∈ b.tokens) (hk : t.kind = .word l) (ho : l ≠ .o)
    (hcounts : b.Counts l t) {x : Float} (hx : Decimal.ofText? t.value = some x)
    (hnan : x.isNaN = false) (hbounded : ¬ t.Unbounded) : b.Holds l x := by
  have hnumber : t.number? = some (.float x) := by rw [Token.number?, hx]; rfl
  have hself := Number.float_beq_self hnan
  have hfield : l ≠ .g → l ≠ .m → b.field l = t.fieldValue? l := by
    intro hg hm
    have hlast : b.lastWord? l = some t := (hcounts.resolve_left hg).resolve_left hm
    rw [h.fields, hlast]
    rfl
  cases l with
  | g => exact h.g.held t ht hk _ hnumber hself
  | m => exact h.m.held t ht hk _ hnumber hself
  | o => exact absurd rfl ho
  | axis i | param d => exact (hfield nofun nofun).trans hnumber
  | t | n =>
    have hinf : ¬ x.isInf = true := fun hinf => hbounded ⟨by simp [hk], x, hx, hinf⟩
    obtain ⟨n, htruncate, hwhole⟩ := wholeWord_of_number hx hnan hinf
    refine ⟨n, htruncate, ?_⟩
    rw [hfield nofun nofun, Token.fieldValue?, hwhole]
    rfl

theorem Recorded.field_reference (h : b.Recorded) (hlast : b.lastWord? l = some t)
    (hv : Decimal.ofText? t.value = none) : b.field l = blankField l := by
  rw [h.fields, hlast]
  cases l <;> simp [Token.fieldValue?, Token.number?, blankField, wholeWord, hv, Except.toOption]

/-- If reading a text leaves nothing to report, every word is in the block of its line. Its value is
held there if and only if it is a number: a reference to a variable is passed over without a report,
its axis or parameter is missing from the block, and as a tool or a label it stands for zero. -/
theorem word_recorded_iff {text : String} {bs : List (Block Number)}
    (hbs : (ofTokens (Token.scan text).1).blocks? = some bs)
    (hr : (ofTokens (Token.scan text).1).reports = [])
    (ht : t ∈ (Token.scan text).1) (hk : t.kind = .word l) (ho : l ≠ .o) :
    ∃ b ∈ bs, t ∈ b.tokens ∧ b.line = t.line ∧ b.Recorded ∧
      (b.Counts l t → ((∃ x, Decimal.ofText? t.value = some x ∧ b.Holds l x) ↔ ¬ t.IsReference)) ∧
      (t.IsReference → b.lastWord? l = some t → b.field l = blankField l) := by
  have hbounded : ¬ t.Unbounded := by
    intro hu
    rw [(ofText_none_iff text).mpr ⟨t, ht, hu⟩] at hbs
    cases hbs
  have hrow : t ∈ Token.rowsFrom 1 (Token.lines text) := by
    rw [Token.scan_tokens] at ht
    rcases List.mem_append.mp ht with ht | ht
    · exact ht
    · rw [List.mem_singleton.mp ht] at hk
      cases hk
  have hvalue := Token.scan_word ht hk
  rw [ofText_rows] at hbs hr
  obtain ⟨b, hb, hmem, hline, hrecorded⟩ := readFrom_rows_recorded hbs hr hrow hk
  refine ⟨b, hb, hmem, hline, hrecorded, ?_, ?_⟩
  · intro hcounts
    rcases hvalue with ⟨hnumber, x, hx, hnan⟩ | ⟨href, hnone⟩
    · exact ⟨fun _ => hnumber,
        fun _ => ⟨x, hx, hrecorded.holds hmem hk ho hcounts hx hnan hbounded⟩⟩
    · constructor
      · rintro ⟨x, hx, -⟩
        rw [hnone] at hx
        cases hx
      · exact fun hn => absurd href hn
  · intro href hlast
    rcases hvalue with ⟨hn, -⟩ | ⟨-, hnone⟩
    · exact absurd href hn
    · exact hrecorded.field_reference hlast hnone

/-- In a cut to a variable place the axis is lost, and the other axis is held. -/
theorem word_recorded_iff_cut :
    ∃ bs, (ofTokens (Token.scan "G1 X#1 Y2 F100").1).blocks? = some bs ∧
      (ofTokens (Token.scan "G1 X#1 Y2 F100").1).reports = [] ∧
      (∃ b ∈ bs, b.line = 1 ∧ b.axis .x = none) ∧ ∃ b ∈ bs, b.line = 1 ∧
      ∃ y, b.axis .y = some (.float y) := by
  have hread : (ofTokens (Token.scan "G1 X#1 Y2 F100").1).blocks?.isSome = true ∧
      (ofTokens (Token.scan "G1 X#1 Y2 F100").1).reports = [] := by decide +kernel
  have hwords : ((Token.scan "G1 X#1 Y2 F100").1.filter (·.isOn 1)).filter
      (·.kind = .word (.axis .x)) =
        [⟨.word (.axis .x), "#1", 1, 3, 6⟩] ∧
      ((Token.scan "G1 X#1 Y2 F100").1.filter (·.isOn 1)).filter (·.kind = .word (.axis .y)) =
        [⟨.word (.axis .y), "2", 1, 7, 9⟩] := by decide +kernel
  have hmem : (⟨.word (.axis .x), "#1", 1, 3, 6⟩ : Token) ∈ (Token.scan "G1 X#1 Y2 F100").1 ∧
      (⟨.word (.axis .y), "2", 1, 7, 9⟩ : Token) ∈ (Token.scan "G1 X#1 Y2 F100").1 := by
    decide +kernel
  obtain ⟨bs, hbs⟩ := Option.isSome_iff_exists.mp hread.1
  have htokens := (ofText_lined hbs).tokens
  refine ⟨bs, hbs, hread.2, ?_, ?_⟩
  · obtain ⟨b, hb, -, hline, -, -, hlost⟩ := word_recorded_iff hbs hread.2 hmem.1 rfl nofun
    have hlast : b.lastWord? (.axis .x) = some ⟨.word (.axis .x), "#1", 1, 3, 6⟩ := by
      rw [lastWord?, (htokens b hb).2, hline, hwords.1]
      rfl
    exact ⟨b, hb, hline, hlost (by decide) hlast⟩
  · obtain ⟨b, hb, -, hline, -, hheld, -⟩ := word_recorded_iff hbs hread.2 hmem.2 rfl nofun
    have hlast : b.lastWord? (.axis .y) = some ⟨.word (.axis .y), "2", 1, 7, 9⟩ := by
      rw [lastWord?, (htokens b hb).2, hline, hwords.2]
      rfl
    obtain ⟨y, -, hy⟩ := (hheld (.inr (.inr hlast))).mpr (by decide)
    exact ⟨b, hb, hline, y, hy⟩

end Block
end Machining
