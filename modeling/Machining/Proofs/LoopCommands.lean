import Machining.Proofs.Nesting
import Machining.Proofs.Rounds
import Mathlib.Data.List.TakeWhile

namespace Machining.Flow
open Machining.Expression (Evaluator)

inductive LoopWord where
  | opensWhile | closesWhile | opensRepeat | closesRepeat | breaks | continues
  deriving DecidableEq, Repr

namespace LoopWord

def word : LoopWord → String
  | opensWhile => "while"
  | closesWhile => "endwhile"
  | opensRepeat => "repeat"
  | closesRepeat => "endrepeat"
  | breaks => "break"
  | continues => "continue"

def kind : LoopWord → CommandKind
  | opensWhile | closesWhile => .whileLoop
  | opensRepeat | closesRepeat => .repeatLoop
  | breaks => .breakLoop
  | continues => .continueLoop

def bracket? (label : Label) : LoopWord → Option Bracket
  | opensWhile => some (.opens .whileLoop label)
  | closesWhile => some (.closes .whileLoop label)
  | opensRepeat => some (.opens .repeatLoop label)
  | closesRepeat => some (.closes .repeatLoop label)
  | breaks | continues => none

theorem ofWord?_word (w : LoopWord) (label : Label) :
    Bracket.ofWord? label w.word = w.bracket? label := by
  cases w <;> rfl

def kinds : List CommandKind := [.whileLoop, .repeatLoop, .breakLoop, .continueLoop]

theorem exists_of_kind {word : String} {kind : CommandKind} (h : kind? word = some kind)
    (hkind : kind ∈ kinds) : ∃ w : LoopWord, w.word = word ∧ w.kind = kind := by
  have hmem := kind?_mem h
  simp only [commandKinds, List.mem_cons, Prod.mk.injEq, List.not_mem_nil, or_false] at hmem
  rcases hmem with ⟨rfl, rfl⟩ | ⟨rfl, rfl⟩ | ⟨rfl, rfl⟩ | ⟨rfl, rfl⟩ | ⟨rfl, rfl⟩ |
    ⟨rfl, rfl⟩ | ⟨rfl, rfl⟩ |
    ⟨rfl, rfl⟩ | ⟨rfl, rfl⟩ | ⟨rfl, rfl⟩ | ⟨rfl, rfl⟩ | ⟨rfl, rfl⟩ | ⟨rfl, rfl⟩ | ⟨rfl, rfl⟩
  all_goals first
    | exact ⟨opensWhile, rfl, rfl⟩ | exact ⟨closesWhile, rfl, rfl⟩ | exact ⟨opensRepeat, rfl, rfl⟩
    | exact ⟨closesRepeat, rfl, rfl⟩ | exact ⟨breaks, rfl, rfl⟩ | exact ⟨continues, rfl, rfl⟩
    | exact absurd hkind (by decide)

end LoopWord

section
variable [Evaluator]

def value? (p : Parameters) (c : Command) : Option (Except Fault Float) :=
  (expression? c).map fun text => (Expression.evaluate text p.bindings c.line).result

/-- An opening command opens this loop: its condition holds, or its count is positive. -/
inductive Opened (p : Parameters) (c : Command) (i : Int) : LoopWord → Loop → Prop where
  | whileLoop {x : Float} (value : value? p c = some (.ok x)) (holds : (x == 0.0) = false) :
      Opened p c i .opensWhile ⟨.whileLoop, c.label, i, i, c.expression, none, 0⟩
  | repeatLoop {x : Float} {n : Int} (value : value? p c = some (.ok x)) (positive : ¬ x ≤ 0.0)
      (whole : (Number.float x).truncate = .ok n) :
      Opened p c i .opensRepeat ⟨.repeatLoop, c.label, i, i, none, some n, 0⟩

/-- What the command of a loop at a position does to the open loops, by its word, and where it
leads. -/
inductive Turn (p : Parameters) (loops : List Loop) (c : Command) (i : Int) :
    LoopWord → List Loop → Option Int → Prop where
  | opens {w : LoopWord} {l : Loop} (opened : Opened p c i w l) :
      Turn p loops c i w (loops ++ [l]) none
  /-- The loop is not opened, and its body comes next. -/
  | skips {w : LoopWord} {next : Option Int} (opener : w = .opensWhile ∨ w = .opensRepeat)
      (shut : ∀ l, ¬ Opened p c i w l) (body : next = none ∨ next = some (i + 1)) :
      Turn p loops c i w loops next
  /-- The innermost loop is another one. -/
  | passes {w : LoopWord} (closer : w = .closesWhile ∨ w = .closesRepeat)
      (other : ∀ l ∈ loops.getLast?, l.label ≠ c.label) : Turn p loops c i w loops none
  | turns {outer : List Loop} {l : Loop} (innermost : loops = outer ++ [l])
      (label : l.label = c.label) :
      Turn p loops c i .closesWhile outer (some l.first)
  | counts {outer : List Loop} {l : Loop} {n : Int} (innermost : loops = outer ++ [l])
      (label : l.label = c.label) (count : l.count = some n) (more : l.iteration + 1 < n) :
      Turn p loops c i .closesRepeat (outer ++ [{ l with iteration := l.iteration + 1 }])
        (some (l.first + 1))
  | ends {outer : List Loop} {l : Loop} {n : Int} (innermost : loops = outer ++ [l])
      (label : l.label = c.label) (count : l.count = some n) (last : ¬ l.iteration + 1 < n) :
      Turn p loops c i .closesRepeat outer none
  /-- A loop without a count cannot be counted on. -/
  | balks {outer : List Loop} {l : Loop} (innermost : loops = outer ++ [l])
      (label : l.label = c.label) (count : l.count = none) :
      Turn p loops c i .closesRepeat (outer ++ [{ l with iteration := l.iteration + 1 }]) none
  | leaves {outer inner : List Loop} {l : Loop} (isOpen : loops = outer ++ l :: inner)
      (label : l.label = c.label) :
      Turn p loops c i .breaks outer (some (l.last + 1))
  | resumes {l : Loop} (isOpen : l ∈ loops) (label : l.label = c.label) :
      Turn p loops c i .continues loops (some (if l.kind = .whileLoop then l.first else l.last))
  /-- There is no loop to leave or to resume. -/
  | strays {w : LoopWord} (jump : w = .breaks ∨ w = .continues)
      (missing : ∀ l ∈ loops, l.kind = .whileLoop ∨ l.kind = .repeatLoop → l.label ≠ c.label) :
      Turn p loops c i w loops none

structure Turned (r : Routine) (c : Command) (i : Int) (w : LoopWord) (s : Routine)
    (next : Option Int) : Prop where
  flow : ∃ loops, s.flow = { r.flow with line := i, loops } ∧
    Turn r.parameters r.flow.loops c i w loops next
  parameters : s.parameters = r.parameters
  reports : ∃ more, s.reports = r.reports ++ more ∧ ∀ d ∈ more, d.severity = .error

structure Waits (p : Parameters) (c : Command) (w : LoopWord) : Prop where
  opener : w = .opensWhile ∨ w = .opensRepeat
  value : value? p c = some (.error .endless)

/-- What carrying out a command comes to: a fault leads nowhere, and there is no way on from one
that waits. -/
structure Carried (r : Routine) (c : Command) (i : Int) (w : LoopWord) (e : Effect) : Prop where
  turned : Turned r c i w e.1 e.2.toOption.join
  waits : e.2 = .error .endless → Waits r.parameters c w

def atLine (r : Routine) (i : Int) : Routine := { r with flow := { r.flow with line := i } }

def withLoops (r : Routine) (loops : List Loop) : Routine :=
  { r with flow := { r.flow with loops } }

end

theorem innermost?_eq_some {f : Flow} {label : Label} {l : Loop} (h : innermost? f label = some l) :
    f.loops = f.loops.dropLast ++ [l] ∧ l.label = label := by
  rw [innermost?, Option.filter_eq_some_iff] at h
  exact ⟨(List.dropLast_append_getLast? l h.1).symm, by simpa using h.2⟩

theorem innermost?_eq_none {f : Flow} {label : Label} (h : innermost? f label = none) :
    ∀ l ∈ f.loops.getLast?, l.label ≠ label := by
  rw [innermost?, Option.filter_eq_none_iff] at h
  intro l hl
  simpa using h l hl

theorem findLoop?_eq_some {loops outer : List Loop} {label : Label} {l : Loop}
    (h : findLoop? loops label = some (outer, l)) :
    l.label = label ∧ ∃ inner, loops = outer ++ l :: inner := by
  unfold findLoop? at h
  split at h
  · cases h
  · rename_i m rest hrest
    simp only [Option.some.injEq, Prod.mk.injEq] at h
    obtain ⟨rfl, rfl⟩ := h
    have hsplit :=
      List.takeWhile_append_dropWhile (p := fun l : Loop => decide (l.label ≠ label))
        (l := loops.reverse)
    rw [hrest] at hsplit
    have hhead := List.head?_dropWhile_not (fun l : Loop => decide (l.label ≠ label)) loops.reverse
    rw [hrest] at hhead
    refine ⟨by simpa using hhead, (loops.reverse.takeWhile fun l =>
      decide (l.label ≠ label)).reverse, ?_⟩
    simpa using congrArg List.reverse hsplit.symm

theorem findLoop?_eq_none {loops : List Loop} {label : Label} (h : findLoop? loops label = none) :
    ∀ l ∈ loops, l.label ≠ label := by
  unfold findLoop? at h
  split at h
  · rename_i hrest
    rw [List.dropWhile_eq_nil_iff] at hrest
    intro l hl
    simpa using hrest l (List.mem_reverse.mpr hl)
  · cases h

theorem truncate_ne_endless (x : Float) : (Number.float x).truncate ≠ .error .endless := by
  simp only [Number.truncate]
  split
  · simp
  · split <;> simp

section
variable [Evaluator] {r s : Routine} {c : Command} {i : Int} {w : LoopWord} {next : Option Int}
variable {loops : List Loop} {out : Except Fault (Option Int)}

theorem Turned.report (h : Turned r c i w s next) {d : Diagnostic} (hd : d.severity = .error) :
    Turned r c i w (s.report d) next := by
  obtain ⟨flow, parameters, more, hmore, herror⟩ := h
  refine ⟨flow, parameters, more ++ [d], by simp [Routine.report, hmore], ?_⟩
  intro e he
  rcases List.mem_append.mp he with he | he
  · exact herror e he
  · rw [List.mem_singleton.mp he, hd]

/-- A command that waits has opened no loop. -/
theorem Turn.loops_of_waits {p : Parameters} {loops' : List Loop}
    (h : Turn p loops c i w loops' next) (hwaits : Waits p c w) : loops' = loops := by
  obtain ⟨opener, value⟩ := hwaits
  cases h with
  | opens opened => cases opened <;> simp_all
  | skips | passes | resumes | strays => rfl
  | turns | counts | ends | balks | leaves => rcases opener with h | h <;> cases h

theorem Turn.turned (h : Turn r.parameters r.flow.loops c i w loops next) :
    Turned r c i w (withLoops (atLine r i) loops) next :=
  ⟨⟨loops, rfl, h⟩, rfl, [], by simp [withLoops, atLine], by simp⟩

theorem Turn.carried (h : Turn r.parameters r.flow.loops c i w loops out.toOption.join)
    (hout : out ≠ .error .endless) : Carried r c i w (withLoops (atLine r i) loops, out) :=
  ⟨h.turned, fun hendless => absurd hendless hout⟩

theorem Turn.evaluated (text : String) (line : Int)
    (h : Turn r.parameters r.flow.loops c i w loops out.toOption.join)
    (hout : out = .error .endless → Waits r.parameters c w) :
    Carried r c i w (withLoops ((atLine r i).evaluate text line).1 loops, out) := by
  refine ⟨⟨⟨loops, rfl, h⟩, rfl, _, rfl, ?_⟩, hout⟩
  intro d hd
  exact evaluate_reports (P := fun d => d.severity = .error) (fun _ => rfl) hd

theorem whileLoop_opens : Carried r c i .opensWhile (whileLoop c "while" (atLine r i)) := by
  unfold whileLoop
  rw [if_pos rfl]
  cases htext : expression? c with
  | none =>
    have hvalue : value? r.parameters c = none := by simp [value?, htext]
    exact Turn.carried (.skips (.inl rfl) (by rintro l ⟨⟩; simp_all) (.inl rfl)) (by simp)
  | some text =>
    simp only [Routine.evaluate]
    cases hx : (Expression.evaluate text (atLine r i).parameters.bindings c.line).result with
    | error f =>
      have hvalue : value? r.parameters c = some (.error f) := by
        simpa [value?, htext, atLine] using hx
      refine Turn.evaluated text c.line (.skips (.inl rfl) (by rintro l ⟨⟩; simp_all) (.inl rfl))
        fun hendless => ?_
      exact ⟨.inl rfl, by rw [hvalue, Except.error.inj hendless]⟩
    | ok x =>
      have hvalue : value? r.parameters c = some (.ok x) := by
        simpa [value?, htext, atLine] using hx
      cases hzero : x == 0.0 with
      | true =>
        simp only [hzero, ↓reduceIte]
        exact Turn.evaluated text c.line (.skips (.inl rfl) (by rintro l ⟨⟩; simp_all) (.inr rfl))
          (by simp)
      | false =>
        simp only [hzero, Bool.false_eq_true, ↓reduceIte]
        exact Turn.evaluated text c.line (.opens (.whileLoop hvalue hzero)) (by simp)

theorem whileLoop_closes : Carried r c i .closesWhile (whileLoop c "endwhile" (atLine r i)) := by
  unfold whileLoop
  rw [if_neg (by decide), if_pos rfl]
  cases hl : innermost? (atLine r i).flow c.label with
  | none => exact Turn.carried (.passes (.inl rfl) (innermost?_eq_none hl)) (by simp)
  | some l =>
    obtain ⟨hlast, hlabel⟩ := innermost?_eq_some hl
    exact Turn.carried (.turns hlast hlabel) (by simp)

theorem repeatLoop_opens : Carried r c i .opensRepeat (repeatLoop c "repeat" (atLine r i)) := by
  unfold repeatLoop
  rw [if_pos rfl]
  cases htext : expression? c with
  | none =>
    have hvalue : value? r.parameters c = none := by simp [value?, htext]
    exact Turn.carried (.skips (.inr rfl) (by rintro l ⟨⟩; simp_all) (.inl rfl)) (by simp)
  | some text =>
    simp only [Routine.evaluate]
    cases hx : (Expression.evaluate text (atLine r i).parameters.bindings c.line).result with
    | error f =>
      have hvalue : value? r.parameters c = some (.error f) := by
        simpa [value?, htext, atLine] using hx
      refine Turn.evaluated text c.line (.skips (.inr rfl) (by rintro l ⟨⟩; simp_all) (.inl rfl))
        fun hendless => ?_
      exact ⟨.inr rfl, by rw [hvalue, Except.error.inj hendless]⟩
    | ok x =>
      have hvalue : value? r.parameters c = some (.ok x) := by
        simpa [value?, htext, atLine] using hx
      by_cases hneg : x ≤ 0.0
      · simp only [hneg, ↓reduceIte]
        exact Turn.evaluated text c.line (.skips (.inr rfl) (by rintro l ⟨⟩; simp_all) (.inr rfl))
          (by simp)
      · simp only [hneg, ↓reduceIte]
        cases hn : (Number.float x).truncate with
        | error f =>
          refine Turn.evaluated text c.line
            (.skips (.inr rfl) (by rintro l ⟨⟩; simp_all) (.inl rfl)) fun hendless => ?_
          rw [Except.error.inj hendless] at hn
          exact absurd hn (truncate_ne_endless x)
        | ok n => exact Turn.evaluated text c.line (.opens (.repeatLoop hvalue hneg hn)) (by simp)

theorem repeatLoop_closes :
    Carried r c i .closesRepeat (repeatLoop c "endrepeat" (atLine r i)) := by
  unfold repeatLoop
  rw [if_neg (by decide), if_pos rfl]
  cases hl : innermost? (atLine r i).flow c.label with
  | none => exact Turn.carried (.passes (.inr rfl) (innermost?_eq_none hl)) (by simp)
  | some l =>
    obtain ⟨hlast, hlabel⟩ := innermost?_eq_some hl
    simp only
    cases hn : l.count with
    | none => exact Turn.carried (.balks hlast hlabel hn) (by simp)
    | some n =>
      simp only
      split
      · rename_i hmore
        exact Turn.carried (.counts hlast hlabel hn hmore) (by simp)
      · rename_i hmore
        exact Turn.carried (.ends hlast hlabel hn hmore) (by simp)

theorem breakLoop_carried : Carried r c i .breaks (breakLoop c (atLine r i)) := by
  unfold breakLoop
  split
  · rename_i hnone
    have hstrays : Turn r.parameters r.flow.loops c i .breaks r.flow.loops none :=
      .strays (.inl rfl) fun l hl _ => findLoop?_eq_none hnone l hl
    exact ⟨hstrays.turned.report rfl, by simp [complain, goOn]⟩
  · rename_i outer l hfound
    obtain ⟨hlabel, inner, hsplit⟩ := findLoop?_eq_some hfound
    exact Turn.carried (.leaves hsplit hlabel) (by simp)

theorem continueLoop_carried : Carried r c i .continues (continueLoop c (atLine r i)) := by
  unfold continueLoop
  split
  · rename_i hnone
    have hstrays : Turn r.parameters r.flow.loops c i .continues r.flow.loops none := by
      refine .strays (.inr rfl) fun l hl hkind hlabel => ?_
      have hno := List.find?_eq_none.mp hnone l (List.mem_reverse.mpr hl)
      simp [hlabel, hkind] at hno
    exact ⟨hstrays.turned.report rfl, by simp [complain, goOn]⟩
  · rename_i l hfound
    have hl : l ∈ r.flow.loops := List.mem_reverse.mp (List.mem_of_find?_eq_some hfound)
    have hlabel := List.find?_some hfound
    exact Turn.carried (.resumes hl (by simp_all)) (by simp)

/-- Carrying out the command of a loop. -/
theorem execute_turned (hc : r.flow.commands.get? i = some c) (hkind : c.kind = w.kind)
    (hword : commandWord r.flow c = .ok w.word) :
    ∃ next, Turned r c i w (execute i r).1 next ∧
      ((execute i r).2 = .ok next ∨ (execute i r).2 = .error .endless ∧
        Waits r.parameters c w) := by
  have hperform : Carried r c i w (perform c (atLine r i)) := by
    have hsame : commandWord (atLine r i).flow c = .ok w.word := hword
    cases w <;> simp only [LoopWord.kind] at hkind <;> simp only [perform, hkind, hsame,
      LoopWord.word]
    · exact whileLoop_opens
    · exact whileLoop_closes
    · exact repeatLoop_opens
    · exact repeatLoop_closes
    · exact breakLoop_carried
    · exact continueLoop_carried
  simp only [execute, hc]
  unfold atLine at hperform
  revert hperform
  rcases perform c { r with flow := { r.flow with line := i } } with ⟨s, f | next⟩
  · intro hperform
    by_cases hf : f = .endless
    · subst hf
      exact ⟨none, hperform.turned, .inr ⟨rfl, hperform.waits rfl⟩⟩
    · simp only [hf, if_false]
      exact ⟨none, hperform.turned.report rfl, .inl rfl⟩
  · exact fun hperform => ⟨next, hperform.turned, .inl rfl⟩

end

def equip (texts : Int → Option String) (f : Flow) : Flow :=
  { f with commands :=
      ⟨f.commands.entries.map fun e =>
        (e.1, { e.2 with expression := (texts e.1).or e.2.expression })⟩ }

theorem get?_equip (texts : Int → Option String) (f : Flow) (i : Int) :
    (f.equip texts).commands.get? i =
      (f.commands.get? i).map fun c => { c with expression := (texts i).or c.expression } := by
  obtain ⟨_, ⟨entries⟩, _⟩ := f
  simp only [equip, Table.get?]
  induction entries with
  | nil => rfl
  | cons e es ih =>
    by_cases h : e.1 = i
    · simp [h]
    · simp only [List.map_cons, List.find?_cons, beq_eq_false_iff_ne.mpr h]
      exact ih

section
variable [Evaluator] {r : Routine} {c : Command}

/-- A flow holds a program: the commands are those of its blocks, apart from the expressions that
were set. -/
structure Held (r : Routine) (blocks : Array (Block Number)) (texts : Int → Option String)
    (f : Flow) : Prop where
  program : f.blocks = blocks
  commands : ∀ k : Nat, f.commands.get? k = (blocks[k]?.bind (command? r)).map fun c =>
    { c with expression := (texts k).or c.expression }

theorem get?_listed_cons (r : Routine) (b : Block Number) (bs : List (Block Number)) (i j : Int) :
    (⟨listed r i (b :: bs)⟩ : Table Int Command).get? j =
      if i = j ∧ (command? r b).isSome then command? r b
      else (⟨listed r (i + 1) bs⟩ : Table Int Command).get? j := by
  cases hc : command? r b with
  | none => simp [listed, hc]
  | some c =>
    by_cases hj : i = j
    · simp [listed, hc, Table.get?, hj]
    · simp [listed, hc, Table.get?, hj, beq_eq_false_iff_ne.mpr hj]

theorem get?_listed_before (r : Routine) (bs : List (Block Number)) {i j : Int} (h : j < i) :
    (⟨listed r i bs⟩ : Table Int Command).get? j = none := by
  induction bs generalizing i with
  | nil => rfl
  | cons b bs ih => rw [get?_listed_cons, if_neg (by omega), ih (by omega)]

/-- The command at a position is that of the block there. -/
theorem get?_listed (r : Routine) (bs : List (Block Number)) (i : Int) (k : Nat) :
    (⟨listed r i bs⟩ : Table Int Command).get? (i + k) = bs[k]?.bind (command? r) := by
  induction bs generalizing i k with
  | nil => rfl
  | cons b bs ih =>
    rw [get?_listed_cons]
    cases k with
    | zero =>
      cases hc : command? r b with
      | none => simpa [hc] using get?_listed_before r bs (by omega)
      | some c => simp [hc]
    | succ k =>
      rw [if_neg (by omega)]
      have hnext := ih (i + 1) k
      rw [Int.add_assoc, Int.add_comm 1] at hnext
      simpa using hnext

/-- Taking in a program holds it. -/
theorem held_prepare {blocks : Array (Block Number)}
    (hline : ∀ (i : Nat) b, blocks[i]? = some b → b.line = i)
    (hread : ∀ b ∈ blocks.toList, (readCommand b r).2.isOk = true) (texts : Int → Option String) :
    Held r blocks texts ((prepare blocks r).1.flow.equip texts) := by
  obtain ⟨verdict, added, hprepare, -, -⟩ := prepare_cases hline hread
  rw [hprepare]
  refine ⟨rfl, fun k => ?_⟩
  have hlisted := get?_listed r blocks.toList 0 k
  rw [Int.zero_add, Array.getElem?_toList] at hlisted
  rw [get?_equip, ← hlisted]

/-- A command of a program of loops: the block it was read from, and its word. -/
theorem Held.loopWord {blocks : Array (Block Number)} {texts : Int → Option String} {f : Flow}
    {k : Nat} (h : Held r blocks texts f) (hline : ∀ (i : Nat) b, blocks[i]? = some b → b.line = i)
    (hkinds : ∀ b ∈ blocks.toList, ∀ c ∈ command? r b, c.kind ∈ LoopWord.kinds)
    (hc : f.commands.get? k = some c) :
    ∃ (b : Block Number) (w : LoopWord), blocks[k]? = some b ∧ c.kind = w.kind ∧ c.line = k ∧
      commandWord f c = .ok w.word ∧ bracket? r b = w.bracket? c.label := by
  rw [h.commands] at hc
  obtain ⟨c₀, hc₀, rfl⟩ := Option.map_eq_some_iff.mp hc
  obtain ⟨b, hb, hcommand⟩ := Option.bind_eq_some_iff.mp hc₀
  have hmem : b ∈ blocks.toList := by
    rw [← Array.getElem?_toList] at hb
    exact List.mem_of_getElem? hb
  obtain ⟨hkind, hat, -⟩ := command?_some hcommand
  obtain ⟨w, hword, hsame⟩ := LoopWord.exists_of_kind hkind (hkinds b hmem c₀ hcommand)
  refine ⟨b, w, hb, hsame.symm, by rw [← hline k b hb, ← hat], ?_, ?_⟩
  · rw [hword]
    exact (commandWord_at (h.program ▸ hb) (hline k b hb) hcommand : commandWord f c₀ = _)
  · rw [← LoopWord.ofWord?_word, hword]
    simp [bracket?, hcommand]

end
end Machining.Flow

namespace Machining

def Block.isPlain (b : Block Number) : Bool := (b.oWord.getD "").isEmpty

namespace Interpreter
variable {t : Interpreter} {b : Block Number}

def equip (texts : Int → Option String) (t : Interpreter) : Interpreter :=
  { t with flow := t.flow.equip texts }

theorem carryOut_parameters (t : Interpreter) (b : Block Number) :
    (t.carryOut b).parameters = t.parameters := by
  cases h : t.display with
  | none => rw [carryOut_shared b h]
  | some m => rw [carryOut_display b h]

variable [Expression.Evaluator]

/-- A step at a block: its command leads elsewhere, or it is carried out, or the run ends with a
command that does not come back. Unless the run ends there, the next block follows. -/
theorem step_at (hpos : t.position < t.blocks.size) (hb : t.flow.blockAt? t.position = some b) :
    (∃ next, (follow b t).2 = .ok (some next) ∧
      t.step = ({ (follow b t).1 with position := next }, none)) ∨
    (∃ f, (follow b t).2 = .error f ∧ t.step = ((follow b t).1, some (.error f))) ∨
    ((follow b t).2 = .ok none ∧ ∃ verdict : Option (Except Fault Bool),
      t.step = ({ (follow b t).1.carryOut b with
        position :=
          if verdict.isNone then (follow b t).1.position + 1 else (follow b t).1.position },
        verdict)) := by
  unfold step
  rw [if_pos hpos, hb]
  simp only
  generalize follow b t = out
  rcases out with ⟨s, f | _ | next⟩
  · exact .inr (.inl ⟨f, rfl, rfl⟩)
  · refine .inr (.inr ⟨rfl, ?_⟩)
    have hcarry : executeBlock b s = (s.carryOut b, (executeBlock b s).2) := rfl
    have hposition := carryOut_position s b
    simp only
    rw [hcarry]
    cases (executeBlock b s).2 with
    | error f => exact ⟨some (.error f), by simp [← hposition]⟩
    | ok ok =>
      simp only
      split
      · exact ⟨some (.ok false), by simp [← hposition]⟩
      · exact ⟨none, by simp [← hposition]⟩
  · exact .inl ⟨next, rfl, rfl⟩

theorem run_goes (h : t.step.2 = none) (n : Nat) : run (n + 1) t = run n t.step.1 := by
  rw [run]
  generalize t.step = out at h
  obtain ⟨s, verdict⟩ := out
  obtain rfl : verdict = none := h
  rfl

theorem run_ends {verdict : Except Fault Bool} (h : t.step.2 = some verdict) (n : Nat) :
    run (n + 1) t = (t.step.1, verdict) := by
  rw [run]
  generalize t.step = out at h
  obtain ⟨s, _⟩ := out
  obtain rfl := h
  rfl

theorem run_one (t : Interpreter) : (run 1 t).1 = t.step.1 := by
  cases h : t.step.2 with
  | none => rw [run_goes h, run]
  | some verdict => rw [run_ends h]

/-- The block at a position of a program. -/
theorem blockAt {r : Routine} {blocks : Array (Block Number)} {texts : Int → Option String}
    {k : Nat} (h : Flow.Held r blocks texts t.flow) (hpos : t.position = k)
    (hb : blocks[k]? = some b) :
    t.position < t.blocks.size ∧ t.flow.blockAt? t.position = some b := by
  obtain ⟨hlt, -⟩ := Array.getElem?_eq_some_iff.mp hb
  have hnat : ¬ (k : Int) < 0 := by omega
  refine ⟨?_, ?_⟩
  · rw [hpos, Interpreter.blocks, h.program]
    omega
  · simpa [Flow.blockAt?, hpos, h.program, hnat] using hb

/-- Past the last block a run ends, without another round. -/
theorem step_end {r : Routine} {blocks : Array (Block Number)} {texts : Int → Option String}
    {k : Nat} (h : Flow.Held r blocks texts t.flow) (hpos : t.position = k) (hk : blocks.size ≤ k) :
    t.step = (t, some (.ok true)) ∧ t.round? = none := by
  have hend : ¬ t.position < t.blocks.size := by
    rw [hpos, Interpreter.blocks, h.program]
    omega
  exact ⟨if_neg hend, if_neg hend⟩

/-- Nothing comes of a block without a command. -/
theorem follow_quiet (h : b.isPlain = true ∨ t.flow.commands.get? t.position = none) :
    follow b t = (t, .ok none) := by
  unfold follow
  split
  · rfl
  · rename_i oWord ho
    split
    · rfl
    · rename_i hne
      rcases h with h | h
      · simp [Block.isPlain, ho, hne] at h
      · have hcommand : t.routine.flow.commands.get? t.position = none := h
        simp only [Flow.execute, hcommand]
        rfl

theorem follow_command (h : b.isPlain = false) :
    follow b t = (t.setRoutine (Flow.execute t.position t.routine).1,
      (Flow.execute t.position t.routine).2) := by
  unfold follow
  split
  · rename_i ho
    simp [Block.isPlain, ho] at h
  · rename_i oWord ho
    rw [if_neg (by simpa [Block.isPlain, ho] using h)]

theorem isPlain_of_command? {r : Routine} {c : Command} (h : Flow.command? r b = some c) :
    b.isPlain = false := by
  cases ho : b.oWord with
  | none => simp [Flow.command?, Flow.readCommand, ho] at h
  | some oWord =>
    cases hempty : oWord.isEmpty with
    | true => simp [Flow.command?, Flow.readCommand, ho, hempty] at h
    | false => simpa [Block.isPlain, ho] using hempty

/-- Taking in a program and setting expressions on its commands leaves parameters and open loops
alone. -/
theorem load_held {blocks : Array (Block Number)}
    (hline : ∀ (i : Nat) b, blocks[i]? = some b → b.line = i)
    (hread : ∀ b ∈ blocks.toList, (Flow.readCommand b t.routine).2.isOk = true)
    (texts : Int → Option String) :
    Flow.Held t.routine blocks texts ((t.load blocks).1.equip texts).flow ∧
      ((t.load blocks).1.equip texts).parameters = t.parameters ∧
      ((t.load blocks).1.equip texts).flow.loops = t.flow.loops := by
  have hheld := Flow.held_prepare hline hread texts
  obtain ⟨verdict, added, hprepare, -, -⟩ := Flow.prepare_cases hline hread
  refine ⟨hheld, ?_, ?_⟩ <;>
  · simp only [load, hprepare]
    rfl

end Interpreter
end Machining
