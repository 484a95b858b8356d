import Machining.Proofs.Spans
import Machining.Proofs.Unreadable

namespace Machining
open Text
open Expression (Evaluator)

namespace Token
variable {line width pos : Nat} {cs : List Char} {items : List Item} {t : Token} {l : Letter}

theorem Piece.valued {taken : List Char} (h : Piece line pos taken (.token t))
    (hk : t.kind = .word l) : t.value ≠ "" ∧ ∃ cs, t.value.toList = wordValue cs := by
  generalize hi : Item.token t = item at h
  cases h with
  | word l capital present unblanked read =>
    cases hi
    obtain ⟨cs, rfl⟩ := read
    exact ⟨by simpa using present, cs, by simp⟩
  | expression closed =>
    cases hi
    cases hk
  | unknown letter => cases hi
  | stray c => cases hi

theorem Laid.valued (h : Laid line width pos cs items) (ht : .token t ∈ items)
    (hk : t.kind = .word l) : t.value ≠ "" ∧ ∃ cs, t.value.toList = wordValue cs := by
  induction h with
  | done pos => cases ht
  | blank gap behind ih => exact ih ht
  | piece fits behind ih =>
    rcases List.mem_cons.mp ht with rfl | ht
    · exact fits.valued hk
    · exact ih ht
  | remark ends =>
    cases ends <;> simp [tokenAt, reportAt] at ht <;> subst ht <;> cases hk

/-- The words of a text have values, each read off the text behind its letter. -/
theorem scan_valued {text : String} (h : t ∈ (scan text).1) (hk : t.kind = .word l) :
    t.value ≠ "" ∧ ∃ cs, t.value.toList = wordValue cs := by
  rw [scan_tokens] at h
  rcases List.mem_append.mp h with h | h
  · rcases mem_rowsFrom h with hn | ⟨k, cs, hrow⟩
    · rw [hk] at hn
      cases hn
    · exact (scanFrom_laid k cs.length _ (trim cs)).valued (mem_tokens.mp hrow) hk
  · rw [List.mem_singleton.mp h] at hk
    cases hk

/-- Every report that scanning makes opens with the same letter. -/
theorem scan_opening {text : String} {d : Diagnostic} (h : d ∈ (scan text).2) :
    d.opening = some 'U' := by
  refine scan_reports_of (P := fun d => d.opening = some 'U') ?_ ?_ ?_ h
  · intro line start stop letter
    exact Diagnostic.opening_append (by decide)
  · intro line start stop c
    exact Diagnostic.opening_append (Diagnostic.opening_append (by decide))
  · intro line start stop
    have hop : "Unclosed parenthesis in comment".toList.head? = some 'U' := by decide
    exact hop

end Token

def Diagnostic.isControl (d : Diagnostic) : Bool :=
  "Invalid O-word format: ".toList.isPrefixOf d.message.toList

theorem Diagnostic.not_isControl {d : Diagnostic} (h : d.opening ≠ some 'I') :
    d.isControl = false := by
  cases hc : d.isControl with
  | false => rfl
  | true =>
    obtain ⟨rest, hrest⟩ := List.isPrefixOf_iff_prefix.mp hc
    exact absurd (by rw [opening, ← hrest]; rfl) h

namespace Block
variable {b b' : Block Number} {t : Token} {ts : List Token} {current : Option (Block Number)}

theorem reports_opening {d : Diagnostic} (h : d ∈ b.reports) : d.opening ≠ some 'I' := by
  refine reports_of (P := fun d => d.opening ≠ some 'I') ?_ ?_ h
  · intro start stop name active
    have hop : (Diagnostic.error b.line start stop .semantic
        s!"Multiple codes from {name} modal group: {Number.listText active}").opening = some 'M' :=
      Diagnostic.opening_append (Diagnostic.opening_append (Diagnostic.opening_append (by decide)))
    rw [hop]
    decide
  · intro single motion
    have hop : Diagnostic.opening (.onLine b.line .semantic
        s!"Group 0 code {single} conflicts with motion code {motion} when axis words present") =
        some 'G' :=
      Diagnostic.opening_append (Diagnostic.opening_append (Diagnostic.opening_append
        (Diagnostic.opening_append (by decide))))
    rw [hop]
    decide

/-- No report that reading makes is about a control word. -/
theorem readFrom_opening {d : Diagnostic} (h : d ∈ (readFrom current ts).reports) :
    d.opening ≠ some 'I' := by
  refine readFrom_reports_of (P := fun d => d.opening ≠ some 'I') (fun b => reports_opening) ?_ h
  intro b t e hadd hne
  rcases add_error hadd with rfl | ⟨rfl, -⟩
  · have hop : Fault.nanToInteger.message.toList.head? ≠ some 'I' := by decide
    exact hop
  · exact absurd rfl hne

theorem close_keeps {P : Block Number → Prop} {r : Reading} {bs : List (Block Number)}
    (hr : ∀ bs, r.blocks? = some bs → ∀ b ∈ bs, P b) (hc : ∀ b ∈ current, P b)
    (h : (Reading.close current r).blocks? = some bs) : ∀ b ∈ bs, P b := by
  cases current with
  | none => exact hr bs h
  | some b₀ =>
    simp only [Reading.close, Reading.report] at h
    split at h
    · obtain ⟨rest, hrest, rfl⟩ := Option.map_eq_some_iff.mp h
      intro b hb
      rcases List.mem_cons.mp hb with rfl | hb
      · exact hc b rfl
      · exact hr rest hrest b hb
    · exact hr bs h

/-- What every token keeps, the blocks that are read keep. -/
theorem readFrom_keeps {P : Block Number → Prop} {bs : List (Block Number)}
    (hempty : ∀ line, P (.empty line)) (hadd : ∀ b t b', P b → b.add t = .ok b' → P b')
    (hrecord : ∀ b t, P b → P (b.record t))
    (hc : ∀ b ∈ current, P b) (h : (readFrom current ts).blocks? = some bs) : ∀ b ∈ bs, P b := by
  induction ts generalizing current bs with
  | nil =>
    cases h
    simp
  | cons t ts ih =>
    have hopen : P (current.getD (.empty t.line)) := by
      cases current with
      | none => exact hempty t.line
      | some b => exact hc b rfl
    simp only [readFrom] at h
    split at h
    · exact close_keeps (fun bs hbs => ih (by simp) hbs) hc h
    · refine close_keeps (fun bs hbs => ?_) hc h
      cases hbs
      simp
    · split at h
      · rename_i b' hb'
        exact ih (by rintro _ ⟨⟩; exact hadd _ t b' hopen hb') h
      · cases h
      · exact ih (by rintro _ ⟨⟩; exact hrecord _ t hopen) h

def Spoken (b : Block Number) : Prop :=
  ∀ w, b.oWord = some w → ∃ t ∈ b.tokens, t.kind = .word .o ∧ t.value = w

theorem Spoken.congr (h : b.Spoken) (ho : b'.oWord = b.oWord) (ht : b.tokens ⊆ b'.tokens) :
    b'.Spoken := by
  intro w hw
  obtain ⟨t, hmem, hk, hv⟩ := h w (ho ▸ hw)
  exact ⟨t, ht hmem, hk, hv⟩

theorem Spoken.add (h : b.Spoken) (hadd : b.add t = .ok b') : b'.Spoken := by
  obtain ⟨htokens, -⟩ := add_tokens hadd
  have hsub : b.tokens ⊆ b'.tokens := by
    rw [htokens]
    exact List.subset_append_left _ _
  unfold Block.add at hadd
  split at hadd
  · rename_i l hk
    cases l with
    | o =>
      cases hadd
      intro w hw
      cases hw
      exact ⟨t, by simp, hk, rfl⟩
    | g | m =>
      simp only [addWord] at hadd
      split at hadd <;> cases hadd <;> exact h.congr rfl hsub
    | t | n =>
      simp only [addWord] at hadd
      cases hw : wholeWord t.value with
      | error e => rw [hw] at hadd; cases hadd
      | ok n => rw [hw] at hadd; cases hadd; exact h.congr rfl hsub
    | axis i | param d =>
      cases hadd
      exact h.congr rfl hsub
  all_goals
    cases hadd
    exact h.congr rfl hsub

/-- A control word of a text has a value. -/
theorem ofText_oWord {text : String} {bs : List (Block Number)}
    (h : (ofTokens (Token.scan text).1).blocks? = some bs) (hb : b ∈ bs) : b.oWord ≠ some "" := by
  have hspoken : b.Spoken :=
    readFrom_keeps (by intro line w hw; cases hw) (fun b t b' hs => hs.add)
      (fun b t hs => hs.congr rfl (List.subset_append_left _ _)) (by simp) h b hb
  intro hw
  obtain ⟨t, ht, hk, hv⟩ := hspoken "" hw
  rw [((ofText_lined h).tokens b hb).2] at ht
  exact (Token.scan_valued (List.mem_filter.mp ht).1 hk).1 hv

def controlReport? (b : Block Number) : Option Diagnostic :=
  b.oWord.map fun w => .onLine b.line .syntactic s!"Invalid O-word format: {w}"

theorem controlReports_eq (h : b.oWord ≠ some "") : b.controlReports = b.controlReport?.toList := by
  unfold controlReports controlReport?
  cases hw : b.oWord with
  | none => rfl
  | some w =>
    have hne : w.isEmpty = false := by
      rw [hw] at h
      simpa using h
    simp [hne]

theorem isControl_controlReport {d : Diagnostic} (h : d ∈ b.controlReport?) :
    d.isControl = true := by
  obtain ⟨w, -, rfl⟩ := Option.map_eq_some_iff.mp h
  exact Token.isPrefixOf_append "Invalid O-word format: " w

end Block

/-- A round of the loop over the blocks: a block is carried out, or a control command leads
elsewhere. -/
inductive Round where
  | carries (position : Int) (b : Block Number)
  | jumps (position next : Int)

namespace Interpreter
variable {b : Block Number} {bs : List (Block Number)} {s : Station} {t : Interpreter}
    {text : String} {k n : Nat}

theorem filter_control {ds more : List Diagnostic} (h : ∀ d ∈ more, d.opening ≠ some 'I') :
    (ds ++ more).filter Diagnostic.isControl = ds.filter Diagnostic.isControl := by
  have hmore : more.filter Diagnostic.isControl = [] := by
    rw [List.filter_eq_nil_iff]
    intro d hd
    simp [Diagnostic.not_isControl (h d hd)]
  rw [List.filter_append, hmore, List.append_nil]

/-- No code reports on a control word. -/
theorem runCodes_control (b : Block Number) (h : s.Bare) :
    (runCodes b s).station.control.reports.filter Diagnostic.isControl =
      s.control.reports.filter Diagnostic.isControl := by
  suffices hkeep : (runCodes b s).station.control.reports.filter Diagnostic.isControl =
      s.control.reports.filter Diagnostic.isControl ∧ (runCodes b s).station.Bare from hkeep.1
  apply runCodes_keeps (P := fun u =>
    u.control.reports.filter Diagnostic.isControl = s.control.reports.filter Diagnostic.isControl ∧
      u.Bare)
  · rintro code u ⟨hu, hb⟩
    have he := Auxiliary.execute_bare hb code b
    obtain ⟨more, hmore, hremark⟩ := he.newReports
    exact ⟨by rw [hmore, filter_control fun d hd => (hremark d hd).control,
      hu], he.rests.actions.trans hb⟩
  · rintro code u ⟨hu, hb⟩
    obtain ⟨more, hmore, hrefusal⟩ := (Motion.execute_effect code b u.control).newReports
    exact ⟨by rw [hmore, filter_control fun d hd => (hrefusal d hd).control, hu], hb⟩
  · exact ⟨rfl, h⟩

theorem foldl_carry_control (bs : List (Block Number)) (h : s.Bare) :
    (bs.foldl carry s).control.reports.filter Diagnostic.isControl =
      s.control.reports.filter Diagnostic.isControl := by
  induction bs generalizing s with
  | nil => rfl
  | cons b bs ih =>
    rw [List.foldl_cons, ih (carry_grows b h).2]
    exact runCodes_control b (s := { s with printed := s.printed ++ announcements b }) h

def readingReports (text : String) : List Diagnostic :=
  (Token.scan text).2 ++ (Block.ofTokens (Token.scan text).1).reports

theorem openingReports_eq (hbs : (Block.ofTokens (Token.scan text).1).blocks? = some bs) :
    openingReports text bs = readingReports text ++ bs.filterMap Block.controlReport? := by
  rw [openingReports, readingReports, List.filterMap_eq_flatMap_toList]
  congr 1
  exact List.flatMap_congr fun b hb => Block.controlReports_eq (Block.ofText_oWord hbs hb)

/-- Of the reports before the first block, those on control words are one for each. -/
theorem openingReports_control (hbs : (Block.ofTokens (Token.scan text).1).blocks? = some bs) :
    (openingReports text bs).filter Diagnostic.isControl = bs.filterMap Block.controlReport? := by
  have hscan : ∀ d ∈ (Token.scan text).2, d.opening ≠ some 'I' := by
    intro d hd
    rw [Token.scan_opening hd]
    decide
  have hread : ∀ d ∈ (Block.ofTokens (Token.scan text).1).reports, d.opening ≠ some 'I' :=
    fun d hd => Block.readFrom_opening hd
  -- the first letter tells reports on control words from all the others
  have hearly : (readingReports text).filter Diagnostic.isControl = [] := by
    rw [readingReports, filter_control hread, ← List.nil_append (Token.scan text).2,
      filter_control hscan]
    rfl
  rw [openingReports_eq hbs, List.filter_append, hearly, List.nil_append, List.filter_eq_self]
  intro d hd
  obtain ⟨b, -, hb⟩ := List.mem_filterMap.mp hd
  exact Block.isControl_controlReport hb

/-- The round that comes next, unless the loop is at its end, fails to find a block or waits for a
command. -/
def round? [Evaluator] (t : Interpreter) : Option Round :=
  if t.position < t.blocks.size then
    (t.flow.blockAt? t.position).bind fun b =>
      match (follow b t).2 with
      | .ok (some next) => some (.jumps t.position next)
      | .ok none => some (.carries t.position b)
      | .error _ => none
  else none

def rounds [Evaluator] : Nat → Interpreter → List Round
  | 0, _ => []
  | n + 1, t =>
    t.round?.toList ++ match t.step with
      | (_, some _) => []
      | (t, none) => rounds n t

/-- From any block on, the rounds carry out one block each, in order, and then there are no more. -/
theorem Laden.rounds_from (h : Laden bs t) (hpos : t.position = k) (n : Nat) :
    rounds n t = ((bs.zipIdx.drop k).take n).map fun e => .carries e.2 e.1 := by
  -- on the bound: a round leaves the interpreter laden, one block further on
  induction n generalizing t k with
  | zero => simp [rounds]
  | succ n ih =>
    cases hb : bs[k]? with
    | some b =>
      obtain ⟨hlt, hat⟩ := h.blockAt hpos hb
      have hround : t.round? = some (.carries k b) := by
        rw [round?, if_pos hlt, hat]
        simp only [Option.bind_some, follow_none b h.commands, hpos]
      have hdrop : bs.zipIdx.drop k = (b, k) :: bs.zipIdx.drop (k + 1) := by
        rw [List.drop_eq_getElem?_toList_append]
        simp [hb]
      rw [rounds, hround, h.step_next hpos hb, hdrop]
      simp only [List.take_succ_cons, List.map_cons]
      rw [ih (h.carryOut b _) rfl]
      rfl
    | none =>
      have hk : bs.length ≤ k := List.getElem?_eq_none_iff.mp hb
      have hround : t.round? = none := if_neg (h.at_end hpos hk)
      have hstep : t.step = (t, some (.ok true)) := if_neg (h.at_end hpos hk)
      rw [rounds, hround, hstep, List.drop_eq_nil_of_le (by simpa using hk)]
      rfl

/-- The loop over the blocks of a text, from the interpreter that has taken them in. Every round
carries out the next block, so there are as many rounds as blocks and no jump; a run that may take
more rounds than that ends well, a shorter one is cut off; nothing that is reported on the way stops
the run. -/
structure SinglePass (bs : List (Block Number)) (t : Interpreter) : Prop where
  rounds : ∀ n, rounds n { t with position := 0 } = (bs.zipIdx.take n).map fun e => .carries e.2 e.1
  run : ∀ n, t.executeBlocks n =
    ({ (bs.take n).foldl carryOut t with position := (min n bs.length : Nat) },
      if n ≤ bs.length then .error .endless else .ok true)
  goes : ∀ n, ∀ d ∈ (t.executeBlocks n).1.reports, d.severity ≠ .fatal

theorem Laden.singlePass (h : Laden bs { t with position := 0 }) : SinglePass bs t := by
  refine ⟨fun n => ?_, h.executeBlocks, fun n d hd => ?_⟩
  · rw [h.rounds_from (k := 0) rfl n, List.drop_zero]
  · rw [h.executeBlocks] at hd
    exact foldl_carryOut_goes (bs.take n) (t := t) h.bare h.goes d hd

/-- Whatever calls and loops it has left open, an interpreter without custom actions carries out
each block of a text once, in order, and accepts the text. There are no control commands: each
control word is reported once, and no report stops the run. -/
theorem process_single_pass (hbs : (Block.ofTokens (Token.scan text).1).blocks? = some bs)
    (bare : t.station.Bare) :
    (∃ u, (begin text t).load bs.toArray = (u, .ok true) ∧ SinglePass bs u ∧
      u.executeBlocks (bs.length + 1) = t.process text) ∧
    (t.process text).2 = .ok true ∧
    (t.process text).1.flow = { t.flow with
      blocks := bs.toArray, commands := .empty, subroutines := .empty } ∧
    (t.process text).1.reports.filter Diagnostic.isControl = bs.filterMap Block.controlReport? ∧
    ∀ d ∈ (t.process text).1.reports, d.severity ≠ .fatal := by
  have hladen := opened_laden hbs bare (t := t)
  obtain ⟨u, hload, hu⟩ := load_written text (Block.ofText_listed hbs).written t
  have hpass : SinglePass bs u := Laden.singlePass (hu ▸ hladen)
  have hwhole : u.executeBlocks (bs.length + 1) = t.process text := by
    rw [hpass.run, process_pass hbs bare, ← hu, foldl_carryOut_at u bs 0,
      List.take_of_length_le (Nat.le_succ _), if_neg (Nat.not_succ_le_self _),
      Nat.min_eq_right (Nat.le_succ _)]
  refine ⟨⟨u, hload, hpass, hwhole⟩, ?_, ?_, ?_, ?_⟩
  · rw [process_pass hbs bare]
  · rw [process_eq hbs bare]
    rfl
  · rw [process_eq hbs bare]
    exact (foldl_carry_control bs (s := openedStation text bs t.station) bare).trans
      (openingReports_control hbs)
  · rw [← hwhole]
    exact hpass.goes _

def midLoop : Interpreter :=
  { initial with
    flow := { Flow.initial with
      calls := [⟨.number 200, 7, []⟩]
      loops := [⟨.repeatLoop, .number 100, 0, 2, none, some 2, 0⟩] } }

/-- The words of a loop in a text do not repeat what is between them, even if that loop is still
open. -/
theorem process_single_pass_loop :
    ∃ bs, (Block.ofTokens (Token.scan "O100 repeat [2]\nG0 X1\nO100 endrepeat").1).blocks? =
      some bs ∧
      bs.length = 3 ∧ midLoop.station.Bare ∧
      (∃ u, (begin "O100 repeat [2]\nG0 X1\nO100 endrepeat" midLoop).load bs.toArray =
        (u, .ok true) ∧
        rounds 9 { u with position := 0 } = bs.zipIdx.map fun e => .carries e.2 e.1) ∧
      (midLoop.process "O100 repeat [2]\nG0 X1\nO100 endrepeat").2 = .ok true ∧
      (midLoop.process "O100 repeat [2]\nG0 X1\nO100 endrepeat").1.flow.loops = midLoop.flow.loops ∧
      ((midLoop.process "O100 repeat [2]\nG0 X1\nO100 endrepeat").1.reports.filter
        Diagnostic.isControl).map (·.line) = [1, 3] := by
  have hblocks :
      (Block.ofTokens (Token.scan "O100 repeat [2]\nG0 X1\nO100 endrepeat").1).blocks?.map
      (fun bs => (bs.length, (bs.filterMap Block.controlReport?).map (·.line))) =
        some (3, [1, 3]) := by
    decide +kernel
  obtain ⟨bs, hbs, hshape⟩ := Option.map_eq_some_iff.mp hblocks
  obtain ⟨hlen, hlines⟩ := Prod.mk.inj hshape
  obtain ⟨⟨u, hu, hpass, -⟩, hok, hflow, hcontrol, -⟩ := process_single_pass (t := midLoop) hbs rfl
  refine ⟨bs, hbs, hlen, rfl, ⟨u, hu, ?_⟩, hok, by rw [hflow], by rw [hcontrol, hlines]⟩
  rw [hpass.rounds, List.take_of_length_le (by simp [hlen])]

end Interpreter
end Machining
