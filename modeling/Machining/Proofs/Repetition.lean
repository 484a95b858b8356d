import Machining.Proofs.Exact
import Machining.Proofs.LoopCommands

namespace Machining

namespace Binary64
variable {x : Float}

/-- The integer part of a magnitude, as its mantissa and exponent give it. -/
theorem floor_magnitude (x : Float) :
    ⌊magnitude x⌋ = ((if (parts x).exponent < 0
      then (parts x).mantissa / twoTo (-(parts x).exponent).toNat
      else (parts x).mantissa * twoTo (parts x).exponent.toNat : Nat) : Int) := by
  unfold magnitude
  split
  · obtain ⟨k, hk⟩ := Int.eq_ofNat_of_zero_le (show 0 ≤ -(parts x).exponent by omega)
    have hneg : (parts x).exponent = -(k : Int) := by omega
    have hcast : ((parts x).mantissa : ℚ) / 2 ^ k =
        (((parts x).mantissa : Int) : ℚ) / ((twoTo k : Nat) : ℚ) := by
      simp [twoTo]
    rw [hneg, zpow_neg, zpow_natCast, ← div_eq_mul_inv, neg_neg, Int.toNat_natCast, hcast,
      Rat.floor_intCast_div_natCast]
    rfl
  · obtain ⟨k, hk⟩ := Int.eq_ofNat_of_zero_le (show 0 ≤ (parts x).exponent by omega)
    have hcast : ((parts x).mantissa : ℚ) * 2 ^ k = (((parts x).mantissa * twoTo k : Nat) : ℚ) := by
      simp [twoTo]
    rw [hk, Int.toNat_natCast, zpow_natCast, hcast, Int.floor_natCast]

/-- Without its fraction, a value that is not negative is rounded down. -/
theorem truncate_of_nonneg (h : 0 ≤ value x) : truncate x = ⌊value x⌋ := by
  have htruncate : truncate x = if signBit x then -⌊magnitude x⌋ else ⌊magnitude x⌋ := by
    rw [floor_magnitude, ← parts_negative]
    rfl
  rw [htruncate]
  unfold value at h ⊢
  split
  · rename_i hsign
    rw [if_pos hsign] at h
    have hmagnitude : magnitude x = 0 := by
      have hle : 0 ≤ magnitude x := by unfold magnitude; positivity
      linarith
    simp [hmagnitude]
  · rfl

theorem not_le_zero_iff (h : x.isFinite = true) : ¬ x ≤ 0.0 ↔ 0 < value x := by
  have hzero : value 0.0 = 0 := by decide +kernel
  have hcompare := compare_value h (by decide : (0.0 : Float).isFinite = true)
  have hle : x ≤ 0.0 ↔ x.toModel.unpack.le (0.0 : Float).toModel.unpack = true := decide_eq_true_iff
  rw [hle, Float.Model.UnpackedFloat.le, hcompare, hzero, ← not_le]
  rcases lt_trichotomy (value x) 0 with h | h | h
  · rw [h.cmp_eq_lt]
    simp [h.le]
  · rw [h, cmp_self_eq_eq]
    simp
  · rw [h.cmp_eq_gt]
    simp [h]

end Binary64

namespace Flow

/-- Plain blocks and counted loops, nested and one after the other. A loop is opened by a block,
whose command gets the expression of a count, and closed by another. -/
inductive Program where
  | done
  | plain (b : Block Number) (rest : Program)
  | loop (first : Block Number) (count : String) (body : Program) (last : Block Number)
      (rest : Program)

namespace Program

def code : Program → List (Block Number × Option String)
  | done => []
  | plain b rest => (b, none) :: rest.code
  | loop first count body last rest =>
    (first, some count) :: (body.code ++ (last, none) :: rest.code)

def blocks (P : Program) : Array (Block Number) := (P.code.map Prod.fst).toArray

def texts (P : Program) (i : Int) : Option String :=
  if i < 0 then none else P.code[i.toNat]?.bind Prod.snd

variable {P : Program}

theorem blocks_getElem? {k : Nat} {b : Block Number} {text : Option String}
    (h : P.code[k]? = some (b, text)) : P.blocks[k]? = some b ∧ P.texts k = text := by
  simp [blocks, texts, h]

theorem code_getElem? {front back : List (Block Number × Option String)}
    {e : Block Number × Option String} (h : P.code = front ++ e :: back) :
    P.code[front.length]? = some e := by
  simp [h]

variable [Expression.Evaluator] {r : Routine} {outer : List Label}

/-- How often the body of a loop with a count is carried out: as often as the count says, rounded
down, and at least once. -/
def times (p : Parameters) (count : String) (line : Int) : Nat :=
  match (Expression.evaluate count p.bindings line).result with
  | .ok x => (max 1 ⌊Binary64.value x⌋).toNat
  | .error _ => 0

/-- The plain blocks as the structure of the program has them carried out. -/
def reading (p : Parameters) : Program → List (Block Number)
  | done => []
  | plain b rest => b :: rest.reading p
  | loop first count body _ rest =>
    (List.replicate (times p count first.line) (body.reading p)).flatten ++ rest.reading p

/-- Programs whose plain blocks have no control word and whose loops are opened and closed by the
commands of one label, which no loop around them has. Each count is finite. -/
inductive WellFormed (r : Routine) : List Label → Program → Prop where
  | done (outer : List Label) : WellFormed r outer done
  | plain {outer : List Label} {b : Block Number} {rest : Program} (straight : b.isPlain = true)
      (coded : b.Coded) (behind : WellFormed r outer rest) : WellFormed r outer (plain b rest)
  | loop {outer : List Label} {first last : Block Number} {count : String} {body rest : Program}
      {label : Label} {x : Float} (opens : bracket? r first = some (.opens .repeatLoop label))
      (closes : bracket? r last = some (.closes .repeatLoop label))
      (codes : first.Coded ∧ last.Coded) (fresh : label ∉ outer) (present : count ≠ "")
      (counted : (Expression.evaluate count r.parameters.bindings first.line).result = .ok x)
      (finite : x.isFinite = true) (inside : WellFormed r (label :: outer) body)
      (behind : WellFormed r outer rest) : WellFormed r outer (loop first count body last rest)

theorem WellFormed.readable (h : P.WellFormed r outer) :
    ∀ e ∈ P.code, (readCommand e.1 r).2.isOk = true := by
  have hcommand {b : Block Number} {x : Bracket} (hb : bracket? r b = some x) :
      (readCommand b r).2.isOk = true := by
    obtain ⟨c, hc, -⟩ := Option.bind_eq_some_iff.mp hb
    unfold command? at hc
    cases hread : (readCommand b r).2 with
    | ok _ => rfl
    | error f => simp [hread] at hc
  induction h with
  | done => simp [code]
  | @plain _ b _ straight _ _ ih =>
    have hplain : (readCommand b r).2.isOk = true := by
      unfold readCommand
      cases ho : b.oWord with
      | none => rfl
      | some oWord =>
        have hempty : oWord.isEmpty = true := by simpa [Block.isPlain, ho] using straight
        simp only [hempty, if_true]
        rfl
    simpa [code, hplain] using ih
  | loop opens closes _ _ _ _ _ _ _ ihbody ihrest =>
    intro e he
    simp only [code, List.mem_cons, List.mem_append] at he
    rcases he with rfl | he | rfl | he
    · exact hcommand opens
    · exact ihbody e he
    · exact hcommand closes
    · exact ihrest e he

end Program

/-- The command of a block that opens or closes a loop. -/
theorem bracket?_loopWord [Expression.Evaluator] {r : Routine} {b : Block Number} {label : Label}
    {w : LoopWord} (h : bracket? r b = w.bracket? label) (hw : (w.bracket? label).isSome = true) :
    ∃ c, command? r b = some c ∧ c.label = label ∧ c.kind = w.kind ∧ ownWord b = w.word := by
  cases hc : command? r b with
  | none =>
    rw [bracket?, hc, Option.bind_none] at h
    rw [← h] at hw
    cases hw
  | some c =>
    rw [bracket?, hc, Option.bind_some] at h
    obtain ⟨hkind, -⟩ := command?_some hc
    refine ⟨c, rfl, ?_⟩
    have hmem := kind?_mem hkind
    generalize ownWord b = word at h hmem
    simp only [commandKinds, List.mem_cons, Prod.mk.injEq, List.not_mem_nil, or_false] at hmem
    rcases hmem with ⟨rfl, hk⟩ | ⟨rfl, hk⟩ | ⟨rfl, hk⟩ | ⟨rfl, hk⟩ | ⟨rfl, hk⟩ |
      ⟨rfl, hk⟩ | ⟨rfl, hk⟩ |
      ⟨rfl, hk⟩ | ⟨rfl, hk⟩ | ⟨rfl, hk⟩ | ⟨rfl, hk⟩ | ⟨rfl, hk⟩ | ⟨rfl, hk⟩ | ⟨rfl, hk⟩ <;>
    cases w <;> simp [LoopWord.bracket?, Bracket.ofWord?, LoopWord.kind, LoopWord.word,
      hk] at h hw ⊢ <;> exact h

end Flow

def Round.plain? : Round → Option (Block Number)
  | .carries _ b => if b.isPlain then some b else none
  | .jumps _ _ => none

namespace Interpreter
open Machining.Flow

section
variable [Expression.Evaluator] {r : Routine} {P : Program} {t s u : Interpreter}
    {b : Block Number} {k : Nat}

theorem rounds_goes (h : t.step.2 = none) (n : Nat) :
    rounds (n + 1) t = t.round?.toList ++ rounds n t.step.1 := by
  rw [rounds]
  generalize t.step = out at h
  obtain ⟨s, verdict⟩ := out
  obtain rfl : verdict = none := h
  rfl

theorem rounds_ends {verdict : Except Fault Bool} (h : t.step.2 = some verdict) (n : Nat) :
    rounds (n + 1) t = t.round?.toList := by
  rw [rounds]
  generalize t.step = out at h
  obtain ⟨s, _⟩ := out
  obtain rfl := h
  exact List.append_nil _

inductive Leads : Interpreter → List (Block Number) → Interpreter → Prop where
  | refl (t : Interpreter) : Leads t [] t
  | step {t s : Interpreter} {passed : List (Block Number)} (goes : t.step.2 = none)
      (later : Leads t.step.1 passed s) : Leads t ((t.round?.bind Round.plain?).toList ++ passed) s

namespace Leads
variable {passed passed' : List (Block Number)}

theorem trans (h : Leads t passed s) (h' : Leads s passed' u) : Leads t (passed ++ passed') u := by
  induction h with
  | refl t => exact h'
  | step goes later ih =>
    rw [List.append_assoc]
    exact .step goes (ih h')

/-- A run that comes to the end of the program. -/
theorem run (h : Leads t passed s) {verdict : Except Fault Bool} (hend : s.step = (s, some verdict))
    (hlast : s.round? = none) :
    ∃ n, ∀ j, Interpreter.run (n + j) t = (s, verdict) ∧
      (rounds (n + j) t).filterMap Round.plain? = passed := by
  induction h with
  | refl t =>
    have hverdict : t.step.2 = some verdict := by rw [hend]
    refine ⟨1, fun j => ?_⟩
    rw [Nat.add_comm, run_ends hverdict, rounds_ends hverdict, hend, hlast]
    exact ⟨rfl, rfl⟩
  | @step t s passed goes later ih =>
    obtain ⟨n, hn⟩ := ih hend hlast
    refine ⟨n + 1, fun j => ?_⟩
    obtain ⟨hrun, hrounds⟩ := hn j
    rw [Nat.add_right_comm, run_goes goes, rounds_goes goes, List.filterMap_append, hrounds]
    refine ⟨hrun, ?_⟩
    cases t.round? with
    | none => rfl
    | some round => cases hplain : round.plain? <;> simp [hplain]

end Leads

structure Ready (r : Routine) (P : Program) (t : Interpreter) : Prop where
  held : Held r P.blocks P.texts t.flow
  parameters : t.parameters = r.parameters
  bare : t.station.Bare
  goes : t.station.Goes

namespace Ready

theorem carryOut (h : Ready r P t) (b : Block Number) (i : Int) :
    Ready r P { t.carryOut b with position := i } :=
  ⟨by simpa only [carryOut_flow] using h.held, (carryOut_parameters t b).trans h.parameters,
    (carryOut_grows b h.bare).2, carryOut_goes b h.bare h.goes⟩

/-- A step at a plain block. -/
theorem plain (h : Ready r P t) (hpos : t.position = k) (hb : P.blocks[k]? = some b)
    (hplain : b.isPlain = true) (hcoded : b.Coded) :
    ∃ s, Leads t [b] s ∧ Ready r P s ∧ s.position = (k + 1 : Nat) ∧
      s.flow.loops = t.flow.loops := by
  obtain ⟨hlt, hat⟩ := blockAt h.held hpos hb
  have hfollow := follow_quiet (t := t) (.inl hplain)
  have hstep := step_carries hat hlt hfollow hcoded h.bare h.goes
  have hround : t.round?.bind Round.plain? = some b := by
    simp [round?, hlt, hat, hfollow, Round.plain?, hplain]
  have hleads := Leads.step (by rw [hstep]) (.refl t.step.1)
  rw [hround, hstep] at hleads
  refine ⟨_, hleads, h.carryOut b _, ?_, by simp only [carryOut_flow]⟩
  rw [hpos]
  rfl

/-- Carrying out the command of a loop stops nothing. -/
theorem turned (h : Ready r P t) {c : Command} {i : Int} {w : LoopWord} {q : Routine}
    {next : Option Int} (hturned : Turned t.routine c i w q next) : Ready r P (t.setRoutine q) := by
  obtain ⟨⟨loops, hflow, -⟩, hparameters, more, hreports, hseverity⟩ := hturned
  refine ⟨⟨?_, ?_⟩, hparameters.trans h.parameters, h.bare, ?_⟩
  · exact (congrArg Flow.blocks hflow).trans h.held.program
  · intro k
    exact (congrArg (fun f : Flow => f.commands.get? k) hflow).trans (h.held.commands k)
  · intro d hd
    have hmem : d ∈ t.reports ++ more := hreports ▸ hd
    rcases List.mem_append.mp hmem with hd | hd
    · exact h.goes d hd
    · rw [hseverity d hd]
      exact nofun

theorem not_waits_closes {p : Parameters} {c : Command} : ¬ Waits p c .closesRepeat := by
  intro h
  rcases h.opener with h | h <;> cases h

/-- A step at the command of a loop. -/
theorem turn (h : Ready r P t) (hline : b.line = k) (hpos : t.position = k) {text : Option String}
    (hcode : P.code[k]? = some (b, text)) (hcoded : b.Coded) {w : LoopWord} {label : Label}
    (hbracket : bracket? r b = w.bracket? label) (hw : (w.bracket? label).isSome = true)
    (hcomes : ∀ c : Command, c.line = b.line → (text.isSome = true → c.expression = text) →
      ¬ Waits r.parameters c w) :
    ∃ (c : Command) (loops : List Loop) (next : Option Int) (s : Interpreter),
      c.label = label ∧ c.line = b.line ∧ (text.isSome = true → c.expression = text) ∧
      Turn r.parameters t.flow.loops c k w loops next ∧
      Leads t [] s ∧ Ready r P s ∧ s.position = next.getD (k + 1) ∧ s.flow.loops = loops := by
  obtain ⟨hb, htext⟩ := Program.blocks_getElem? hcode
  obtain ⟨hlt, hat⟩ := blockAt h.held hpos hb
  obtain ⟨c, hc, hlabel, hkind, hword⟩ := bracket?_loopWord hbracket hw
  have hheld : t.routine.flow.commands.get? t.position =
      some { c with expression := text.or c.expression } := by
    have hget := h.held.commands k
    rw [hb, htext, Option.bind_some, hc, ← hpos] at hget
    exact hget
  have hown : commandWord t.flow c = .ok w.word :=
    hword ▸ commandWord_at (h.held.program ▸ hb) hline hc
  have hexpression (hsome : text.isSome = true) : text.or c.expression = text := by
    rw [← Option.some_get hsome, Option.some_or]
  obtain ⟨next, hturned, hout⟩ := execute_turned hheld hkind hown
  replace hout := hout.resolve_right fun hwaits =>
    hcomes { c with expression := text.or c.expression } (command?_some hc).2.1 hexpression
      (h.parameters ▸ hwaits.2)
  have hready := h.turned hturned
  have hfollow := follow_command (t := t) (isPlain_of_command? hc)
  rw [hout] at hfollow
  obtain ⟨⟨loops, hflow, hturn⟩, -, -⟩ := hturned
  refine ⟨{ c with expression := text.or c.expression }, loops, next, t.step.1, hlabel,
    (command?_some hc).2.1, hexpression, ?_, ?_⟩
  · rw [← hpos, ← h.parameters]
    exact hturn
  · have hround : t.round?.bind Round.plain? = none := by
      cases next <;> simp [round?, hlt, hat, hfollow, Round.plain?, isPlain_of_command? hc]
    have hleads : t.step.2 = none → Leads t [] t.step.1 := fun hgoes => by
      simpa [hround] using Leads.step hgoes (.refl t.step.1)
    cases next with
    | none =>
      have hstep := step_carries hat hlt hfollow hcoded hready.bare hready.goes
      refine ⟨hleads (by rw [hstep]), ?_⟩
      rw [hstep]
      refine ⟨hready.carryOut b _, ?_, ?_⟩
      · exact congrArg (· + 1) hpos
      · simp only [carryOut_flow]
        exact congrArg Flow.loops hflow
    | some next =>
      rcases step_at hlt hat with ⟨next', hnext, hstep⟩ | ⟨f, hf, -⟩ | ⟨hnext, -⟩
      · obtain rfl : next = next' := by simpa [hfollow] using hnext
        refine ⟨hleads (by rw [hstep]), ?_⟩
        rw [hstep, hfollow]
        exact ⟨⟨hready.held, hready.parameters, hready.bare, hready.goes⟩, rfl,
          congrArg Flow.loops hflow⟩
      · rw [hfollow] at hf
        cases hf
      · rw [hfollow] at hnext
        cases hnext

/-- A step at an opening command opens the loop, unless its count is not positive. -/
theorem opens (h : Ready r P t) (hline : b.line = k) (hpos : t.position = k) {count : String}
    {label : Label} {x : Float} (hcode : P.code[k]? = some (b, some count)) (hcoded : b.Coded)
    (hopens : bracket? r b = some (.opens .repeatLoop label)) (hpresent : count ≠ "")
    (hcounted : (Expression.evaluate count r.parameters.bindings b.line).result = .ok x)
    (hfinite : x.isFinite = true) :
    ∃ s, Leads t [] s ∧ Ready r P s ∧ s.position = (k + 1 : Nat) ∧
      (Binary64.value x ≤ 0 ∧ s.flow.loops = t.flow.loops ∨
        0 < Binary64.value x ∧
          s.flow.loops = t.flow.loops ++ [⟨.repeatLoop, label, k, k, none,
            some ⌊Binary64.value x⌋, 0⟩]) := by
  have hvalues (c : Command) (hat : c.line = b.line) (htext : (some count).isSome = true →
      c.expression = some count) :
      value? r.parameters c = some (.ok x) := by
    simp [value?, expression?, htext rfl, hpresent, hat, hcounted]
  obtain ⟨c, loops, next, s, hlabel, hat, htext, hturn, hleads, hready, hposition, hloops⟩ :=
    h.turn hline hpos hcode hcoded (w := .opensRepeat) hopens rfl fun c hat htext hwaits => by
      have := (hvalues c hat htext).symm.trans hwaits.value
      simp at this
  have hvalue := hvalues c hat htext
  have hwhole (hx : 0 < Binary64.value x) : (Number.float x).truncate = .ok ⌊Binary64.value x⌋ := by
    rw [Binary64.isFinite_eq, Bool.and_eq_true, Bool.not_eq_true', Bool.not_eq_true'] at hfinite
    simp only [Number.truncate, hfinite.1, hfinite.2, Bool.false_eq_true, if_false,
      Binary64.truncate_of_nonneg hx.le]
  have hsign := Binary64.not_le_zero_iff hfinite
  refine ⟨s, hleads, hready, ?_⟩
  cases hturn with
  | opens opened =>
    cases opened with
    | repeatLoop value positive whole =>
      obtain rfl : _ = x := by simpa [hvalue] using value.symm
      have hpositive := hsign.mp positive
      obtain rfl : _ = ⌊Binary64.value _⌋ := by simpa [hwhole hpositive] using whole.symm
      exact ⟨hposition, .inr ⟨hpositive, by rw [hloops, hlabel]⟩⟩
  | skips opener shut body =>
    refine ⟨?_, .inl ⟨?_, hloops⟩⟩
    · rcases body with rfl | rfl <;> exact hposition
    · by_contra hpositive
      exact shut _ (.repeatLoop hvalue (hsign.mpr (not_le.mp hpositive))
        (hwhole (not_le.mp hpositive)))
  | passes closer _ => rcases closer with h | h <;> cases h
  | strays jump _ => rcases jump with h | h <;> cases h

/-- A step at a closing command whose loop is not the innermost one. -/
theorem closes_other (h : Ready r P t) (hline : b.line = k) (hpos : t.position = k) {label : Label}
    (hcode : P.code[k]? = some (b, none)) (hcoded : b.Coded)
    (hcloses : bracket? r b = some (.closes .repeatLoop label))
    (hother : ∀ l ∈ t.flow.loops, l.label ≠ label) :
    ∃ s, Leads t [] s ∧ Ready r P s ∧ s.position = (k + 1 : Nat) ∧ s.flow.loops = t.flow.loops := by
  obtain ⟨c, loops, next, s, hlabel, -, -, hturn, hleads, hready, hposition, hloops⟩ :=
    h.turn hline hpos hcode hcoded (w := .closesRepeat) hcloses rfl fun c _ _ => not_waits_closes
  refine ⟨s, hleads, hready, ?_⟩
  cases hturn with
  | opens opened => cases opened
  | skips opener _ _ => rcases opener with h | h <;> cases h
  | strays jump _ => rcases jump with h | h <;> cases h
  | passes _ _ => exact ⟨hposition, hloops⟩
  | counts innermost label _ _ | ends innermost label _ _ | balks innermost label _ =>
    exact absurd (label.trans hlabel) (hother _ (by simp [innermost]))

/-- A step at a closing command whose loop is the innermost one: another round follows, or the loop
ends. -/
theorem closes_own (h : Ready r P t) (hline : b.line = k) (hpos : t.position = k)
    {outer : List Loop} {l : Loop} {n : Int} (hcode : P.code[k]? = some (b, none))
    (hcoded : b.Coded) (hcloses : bracket? r b = some (.closes .repeatLoop l.label))
    (hloops : t.flow.loops = outer ++ [l]) (hcount : l.count = some n) :
    ∃ s, Leads t [] s ∧ Ready r P s ∧
      (l.iteration + 1 < n ∧ s.position = l.first + 1 ∧
          s.flow.loops = outer ++ [{ l with iteration := l.iteration + 1 }] ∨
        n ≤ l.iteration + 1 ∧ s.position = (k + 1 : Nat) ∧ s.flow.loops = outer) := by
  obtain ⟨c, loops, next, s, hlabel, -, -, hturn, hleads, hready, hposition, hloops'⟩ :=
    h.turn hline hpos hcode hcoded (w := .closesRepeat) hcloses rfl fun c _ _ => not_waits_closes
  refine ⟨s, hleads, hready, ?_⟩
  rw [hloops] at hturn
  cases hturn with
  | opens opened => cases opened
  | skips opener _ _ => rcases opener with h | h <;> cases h
  | strays jump _ => rcases jump with h | h <;> cases h
  | passes _ other => exact absurd hlabel.symm (other l (by simp))
  | counts innermost _ count more =>
    obtain ⟨rfl, hl⟩ := List.append_inj' innermost rfl
    obtain rfl := List.singleton_inj.mp hl
    obtain rfl : n = _ := Option.some.inj (hcount.symm.trans count)
    exact .inl ⟨more, hposition, hloops'⟩
  | ends innermost _ count last =>
    obtain ⟨rfl, hl⟩ := List.append_inj' innermost rfl
    obtain rfl := List.singleton_inj.mp hl
    obtain rfl : n = _ := Option.some.inj (hcount.symm.trans count)
    exact .inr ⟨not_lt.mp last, hposition, hloops'⟩
  | balks innermost _ count =>
    obtain ⟨rfl, hl⟩ := List.append_inj' innermost rfl
    obtain rfl := List.singleton_inj.mp hl
    rw [hcount] at count
    cases count

/-- The rounds of a loop, counted from the one that begins: the body is carried out in each, and
behind the last one the loop is closed. -/
theorem repeats (hline : b.line = k) {label : Label} (hcode : P.code[k]? = some (b, none))
    (hcoded : b.Coded) (hcloses : bracket? r b = some (.closes .repeatLoop label)) {first : Nat}
    {outer : List Loop} {passed : List (Block Number)}
    (hbody : ∀ {t : Interpreter} {l : Loop}, Ready r P t → t.position = first + 1 →
      t.flow.loops = outer ++ [l] →
      l.label = label → ∃ s, Leads t passed s ∧ Ready r P s ∧ s.position = k ∧
        s.flow.loops = t.flow.loops)
    (m : Nat) {l : Loop} {n : Int} (h : Ready r P t) (hpos : t.position = first + 1)
    (hloops : t.flow.loops = outer ++ [l]) (hlabel : l.label = label) (hfirst : l.first = first)
    (hcount : l.count = some n) (hleft : max 1 (n - l.iteration) = m + 1) :
    ∃ s, Leads t (List.replicate (m + 1) passed).flatten s ∧ Ready r P s ∧
      s.position = (k + 1 : Nat) ∧
      s.flow.loops = outer := by
  induction m generalizing t l with
  | zero =>
    obtain ⟨s, hleads, hready, hposition, hsame⟩ := hbody h hpos hloops hlabel
    obtain ⟨u, hclose, hlast, ⟨hmore, -⟩ | ⟨-, hu⟩⟩ :=
      hready.closes_own hline hposition hcode hcoded (hlabel ▸ hcloses) (hsame.trans hloops) hcount
    · omega
    · exact ⟨u, by simpa using hleads.trans hclose, hlast, hu⟩
  | succ m ih =>
    obtain ⟨s, hleads, hready, hposition, hsame⟩ := hbody h hpos hloops hlabel
    obtain ⟨u, hclose, hnext, ⟨-, hback, hcounted⟩ | ⟨hdone, -⟩⟩ :=
      hready.closes_own hline hposition hcode hcoded (hlabel ▸ hcloses) (hsame.trans hloops) hcount
    · obtain ⟨v, hlater, hv⟩ :=
        ih hnext (hfirst ▸ hback) hcounted hlabel hfirst hcount (by simp only; omega)
      refine ⟨v, ?_, hv⟩
      rw [List.replicate_succ, List.flatten_cons]
      simpa using (hleads.trans hclose).trans hlater
    · omega

/-- A loop from its opening command to the block behind its closing one, given what its body
does. -/
theorem loop {first last : Block Number} {count : String} {label : Label} {x : Float} {q : Nat}
    {outer : List Label} {passed : List (Block Number)}
    (hlines : ∀ (i : Nat) b, P.blocks[i]? = some b → b.line = i)
    (hfirst : P.code[k]? = some (first, some count)) (hlast : P.code[q]? = some (last, none))
    (hopens : bracket? r first = some (.opens .repeatLoop label))
    (hcloses : bracket? r last = some (.closes .repeatLoop label))
    (hcodes : first.Coded ∧ last.Coded) (hfresh : label ∉ outer) (hpresent : count ≠ "")
    (hcounted : (Expression.evaluate count r.parameters.bindings first.line).result = .ok x)
    (hfinite : x.isFinite = true)
    (hbody : ∀ {t : Interpreter}, Ready r P t → t.position = (k + 1 : Nat) →
      (∀ l ∈ t.flow.loops, l.label ∈ label :: outer) →
      ∃ s, Leads t passed s ∧ Ready r P s ∧ s.position = q ∧ s.flow.loops = t.flow.loops)
    (h : Ready r P t) (hpos : t.position = k) (houter : ∀ l ∈ t.flow.loops, l.label ∈ outer) :
    ∃ s, Leads t (List.replicate (Program.times r.parameters count first.line) passed).flatten s ∧
      Ready r P s ∧
      s.position = (q + 1 : Nat) ∧ s.flow.loops = t.flow.loops := by
  have hline := hlines k first (Program.blocks_getElem? hfirst).1
  have hline' := hlines q last (Program.blocks_getElem? hlast).1
  have htimes : Program.times r.parameters count first.line = (max 1 ⌊Binary64.value x⌋).toNat := by
    simp [Program.times, hcounted]
  obtain ⟨s, hopen, hready, hposition, ⟨hshut, hsame⟩ | ⟨hpositive, hpushed⟩⟩ :=
    h.opens hline hpos hfirst hcodes.1 hopens hpresent hcounted hfinite
  · -- the loop is not opened: its body is carried out once, and its closing command finds
    -- nothing to close
    have hother : ∀ l ∈ t.flow.loops, l.label ≠ label := by
      rintro l hl rfl
      exact hfresh (houter l hl)
    obtain ⟨u, hleads, hready', hposition', hloops⟩ := hbody hready hposition fun l hl =>
      List.mem_cons_of_mem _ (houter l (hsame ▸ hl))
    obtain ⟨v, hclose, hend, hposition'', hloops'⟩ :=
      hready'.closes_other hline' hposition' hlast hcodes.2 hcloses (by rwa [hloops, hsame])
    have honce : Program.times r.parameters count first.line = 1 := by
      have hfloor : ⌊Binary64.value x⌋ ≤ 0 := Int.floor_nonpos hshut
      omega
    refine ⟨v, ?_, hend, hposition'', by rw [hloops', hloops, hsame]⟩
    rw [honce]
    simpa using (hopen.trans hleads).trans hclose
  · obtain ⟨m, hm⟩ : ∃ m : Nat, max 1 ⌊Binary64.value x⌋ = m + 1 :=
      ⟨(max 1 ⌊Binary64.value x⌋ - 1).toNat, by omega⟩
    have hrounds : ∀ {t' : Interpreter} {l : Loop}, Ready r P t' → t'.position = k + 1 →
        t'.flow.loops = t.flow.loops ++ [l] → l.label = label →
        ∃ s, Leads t' passed s ∧ Ready r P s ∧ s.position = q ∧ s.flow.loops = t'.flow.loops := by
      intro t' l hready' hat hloops hlabel
      refine hbody hready' hat fun l' hl' => ?_
      rw [hloops] at hl'
      rcases List.mem_append.mp hl' with hl' | hl'
      · exact List.mem_cons_of_mem _ (houter l' hl')
      · rw [List.mem_singleton.mp hl', hlabel]
        exact List.mem_cons_self
    obtain ⟨u, hleads, hend⟩ :=
      repeats hline' hlast hcodes.2 hcloses hrounds m hready hposition hpushed rfl rfl rfl
      (by rw [← hm, sub_zero])
    refine ⟨u, ?_, hend⟩
    rw [htimes, hm]
    simpa using hopen.trans hleads

/-- Any part of a program is carried out as its structure says, and leaves the open loops as they
were. -/
theorem reads (hlines : ∀ (i : Nat) b, P.blocks[i]? = some b → b.line = i) {Q : Program}
    {outer : List Label} (hwf : Q.WellFormed r outer)
    {front back : List (Block Number × Option String)}
    (hcode : P.code = front ++ (Q.code ++ back)) (h : Ready r P t)
    (hpos : t.position = front.length) (houter : ∀ l ∈ t.flow.loops, l.label ∈ outer) :
    ∃ s, Leads t (Q.reading r.parameters) s ∧ Ready r P s ∧
      s.position = (front.length + Q.code.length : Nat) ∧
      s.flow.loops = t.flow.loops := by
  -- on the structure, for every state in which no open loop has a label of the part
  induction hwf generalizing t front back with
  | done outer => exact ⟨t, .refl t, h, by simpa [Program.code] using hpos, rfl⟩
  | @plain outer b rest straight coded behind ih =>
    have hrest : P.code = (front ++ [(b, none)]) ++ (rest.code ++ back) := by
      simp [hcode, Program.code]
    have hlength : (front ++ [(b, none)]).length = front.length + 1 := by simp
    obtain ⟨s, hstep, hready, hposition, hloops⟩ :=
      h.plain hpos (Program.blocks_getElem? (Program.code_getElem? hcode)).1 straight coded
    obtain ⟨u, hleads, hend, hposition', hloops'⟩ :=
      ih hrest hready (by rw [hposition, hlength]) (by rwa [hloops])
    refine ⟨u, hstep.trans hleads, hend, ?_, hloops'.trans hloops⟩
    rw [hposition', hlength, Program.code, List.length_cons, Nat.add_assoc, Nat.add_comm 1]
  | @loop outer first last count body rest label x opens closes codes fresh present counted
      finite inside behind
      ihbody ihrest =>
    have hbody : P.code = (front ++ [(first, some count)]) ++
        (body.code ++ ((last, none) :: (rest.code ++ back))) := by
      simp [hcode, Program.code]
    have hlast : P.code = (front ++ (first, some count) :: body.code) ++
        (last, none) :: (rest.code ++ back) := by
      simp [hcode, Program.code]
    have hrest : P.code = (front ++ (first, some count) :: (body.code ++ [(last, none)])) ++
        (rest.code ++ back) := by
      simp [hcode, Program.code]
    have hlengths : (front ++ [(first, some count)]).length = front.length + 1 ∧
        (front ++ (first, some count) :: body.code).length = front.length + 1 + body.code.length ∧
        (front ++ (first, some count) :: (body.code ++ [(last, none)])).length =
          front.length + 1 + body.code.length + 1 := by
      simp
      omega
    have hinside : ∀ {t : Interpreter}, Ready r P t → t.position = (front.length + 1 : Nat) →
        (∀ l ∈ t.flow.loops, l.label ∈ label :: outer) →
        ∃ s, Leads t (body.reading r.parameters) s ∧ Ready r P s ∧
          s.position = (front.length + 1 + body.code.length : Nat) ∧
          s.flow.loops = t.flow.loops := by
      intro t hready hat hlabels
      have := ihbody hbody hready (by rw [hat, hlengths.1]) hlabels
      rwa [hlengths.1] at this
    obtain ⟨s, hleads, hready, hposition, hloops⟩ := Ready.loop hlines (Program.code_getElem? hcode)
      (hlengths.2.1 ▸ Program.code_getElem? hlast) opens closes codes fresh present counted finite
        hinside h hpos houter
    obtain ⟨u, hleads', hend, hposition', hloops'⟩ :=
      ihrest hrest hready (by rw [hposition, hlengths.2.2]) (by rwa [hloops])
    refine ⟨u, hleads.trans hleads', hend, ?_, hloops'.trans hloops⟩
    rw [hposition', hlengths.2.2]
    simp [Program.code]
    omega

end Ready
end

/-- However expressions are evaluated, a program of plain blocks and counted loops comes to its end,
leaves no loop open, and carries out exactly the plain blocks of its structured reading. -/
theorem executeBlocks_structured [Expression.Evaluator] {P : Program} {t : Interpreter}
    (hlines : ∀ (i : Nat) b, P.blocks[i]? = some b → b.line = i) (hwf : P.WellFormed t.routine [])
    (hempty : t.flow.loops = []) (hbare : t.station.Bare)
    (hgoes : (t.load P.blocks).1.station.Goes) :
    ∃ n, ∀ m, n ≤ m →
      (((t.load P.blocks).1.equip P.texts).executeBlocks m).2 = .ok true ∧
      (((t.load P.blocks).1.equip P.texts).executeBlocks m).1.flow.loops = [] ∧
      (rounds m { (t.load P.blocks).1.equip P.texts with position := 0 }).filterMap Round.plain? =
        P.reading t.parameters := by
  have hread : ∀ b ∈ P.blocks.toList, (readCommand b t.routine).2.isOk = true := by
    intro b hb
    obtain ⟨e, he, rfl⟩ :=
      List.mem_map.mp (by simpa [Program.blocks] using hb : b ∈ P.code.map Prod.fst)
    exact hwf.readable e he
  obtain ⟨hheld, hparameters, hloops⟩ := load_held hlines hread P.texts
  have hready : Ready t.routine P { (t.load P.blocks).1.equip P.texts with position := 0 } :=
    ⟨hheld, hparameters, hbare, hgoes⟩
  have hcode : P.code = [] ++ (P.code ++ []) := by simp
  obtain ⟨s, hleads, hend, hposition, hsame⟩ :=
    hready.reads hlines hwf hcode rfl (by simp [hloops, hempty])
  obtain ⟨hstep, hround⟩ := step_end hend.held hposition (by simp [Program.blocks])
  obtain ⟨n, hn⟩ := hleads.run hstep hround
  refine ⟨n, fun m hm => ?_⟩
  obtain ⟨j, rfl⟩ := Nat.exists_eq_add_of_le hm
  obtain ⟨hrun, hrounds⟩ := hn j
  rw [executeBlocks, hrun]
  exact ⟨rfl, by rw [hsame]; exact hloops.trans hempty, hrounds⟩

def bareBlock (line : Int) (oWord : Option String) : Block Number := { Block.empty line with oWord }

theorem bareBlock_coded (line : Int) (oWord : Option String) : (bareBlock line oWord).Coded :=
  ⟨fun _ hc => (List.not_mem_nil hc).elim, fun _ hc => (List.not_mem_nil hc).elim⟩

def nestedLoops : Program :=
  .loop (bareBlock 0 "O1 repeat") "2.5"
    (.plain (bareBlock 1 none)
      (.loop (bareBlock 2 "O2 repeat") "-1" (.plain (bareBlock 3 none) .done)
        (bareBlock 4 "O2 endrepeat") .done))
    (bareBlock 5 "O1 endrepeat") .done

theorem nestedLoops_counts :
    (bracket? initial.routine (bareBlock 0 "O1 repeat") = some (.opens .repeatLoop (.number 1)) ∧
      bracket? initial.routine (bareBlock 5 "O1 endrepeat") =
        some (.closes .repeatLoop (.number 1)) ∧
      bracket? initial.routine (bareBlock 2 "O2 repeat") = some (.opens .repeatLoop (.number 2)) ∧
      bracket? initial.routine (bareBlock 4 "O2 endrepeat") =
        some (.closes .repeatLoop (.number 2))) ∧
    ((Expression.evaluate "2.5" initial.parameters.bindings 0).result.toOption.map
      Float.isFinite = some true ∧
      (Expression.evaluate "-1" initial.parameters.bindings 2).result.toOption.map
        Float.isFinite = some true) ∧
    (nestedLoops.reading initial.parameters).map Block.line = [1, 3, 1, 3] ∧
    Diagnostic.hasFatal (initial.load nestedLoops.blocks).1.reports = false := by
  decide +kernel

theorem nestedLoops_line (i : Nat) (b : Block Number) (h : nestedLoops.blocks[i]? = some b) :
    b.line = i := by
  obtain ⟨hi, rfl⟩ := Array.getElem?_eq_some_iff.mp h
  have hall : ∀ j : Fin 6, (nestedLoops.blocks[j]).line = j := by decide
  exact hall ⟨i, hi⟩

theorem nestedLoops_wellFormed : nestedLoops.WellFormed initial.routine [] := by
  obtain ⟨⟨hopens, hcloses, hopens', hcloses'⟩, ⟨hcount, hcount'⟩, -⟩ := nestedLoops_counts
  have hvalue {text : String} {line : Int}
      (h : (Expression.evaluate text initial.parameters.bindings line).result.toOption.map
        Float.isFinite = some true) :
      ∃ x, (Expression.evaluate text initial.parameters.bindings line).result = .ok x ∧
        x.isFinite = true := by
    cases hresult : (Expression.evaluate text initial.parameters.bindings line).result with
    | error f => simp [hresult, Except.toOption] at h
    | ok x => exact ⟨x, rfl, by simpa [hresult, Except.toOption] using h⟩
  obtain ⟨x, hx, hfinite⟩ := hvalue hcount
  obtain ⟨y, hy, hfinite'⟩ := hvalue hcount'
  have hcoded := bareBlock_coded
  exact .loop hopens hcloses ⟨hcoded _ _, hcoded _ _⟩ (by simp) (by decide) hx hfinite
    (.plain rfl (hcoded _ _)
      (.loop hopens' hcloses' ⟨hcoded _ _, hcoded _ _⟩ (by decide) (by decide) hy hfinite'
        (.plain rfl (hcoded _ _) (.done _)) (.done _)))
    (.done _)

/-- The outer body is carried out twice, and the inner one once in each round. -/
theorem executeBlocks_structured_nested :
    nestedLoops.WellFormed initial.routine [] ∧ ∃ n, ∀ m, n ≤ m →
      (((initial.load nestedLoops.blocks).1.equip nestedLoops.texts).executeBlocks m).2 = .ok true ∧
      (((initial.load nestedLoops.blocks).1.equip nestedLoops.texts).executeBlocks m).1.flow.loops =
        [] ∧
      ((rounds m { (initial.load nestedLoops.blocks).1.equip
        nestedLoops.texts with position := 0 }).filterMap
        Round.plain?).map Block.line = [1, 3, 1, 3] := by
  obtain ⟨-, -, hreading, hfatal⟩ := nestedLoops_counts
  have hgoes : (initial.load nestedLoops.blocks).1.station.Goes := by
    intro d hd
    have hnot := List.any_eq_false.mp hfatal d hd
    simpa [Diagnostic.isFatal] using hnot
  obtain ⟨n, hn⟩ := executeBlocks_structured nestedLoops_line nestedLoops_wellFormed rfl rfl hgoes
  refine ⟨nestedLoops_wellFormed, n, fun m hm => ?_⟩
  obtain ⟨hverdict, hloops, hpassed⟩ := hn m hm
  exact ⟨hverdict, hloops, by rw [hpassed, hreading]⟩

end Interpreter
end Machining
