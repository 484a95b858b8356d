import Machining.Proofs.Nesting

namespace Machining

def Block.unnumbered (b : Block Number) : Block Number := { b with line := 0 }

def Command.unnumbered (c : Command) : Command := { c with line := 0 }

theorem Block.oWord_of_unnumbered {b b' : Block Number} (h : b'.unnumbered = b.unnumbered) :
    b'.oWord = b.oWord := by
  have hword : b'.unnumbered.oWord = b.unnumbered.oWord := by rw [h]
  exact hword

theorem Expression.substituteFrom_line (vars : Bindings) (line line' : Int) (skip : Nat)
    (cs : List Char) :
    (substituteFrom vars line' skip cs).1 = (substituteFrom vars line skip cs).1 := by
  induction cs generalizing skip with
  | nil => rfl
  | cons c cs ih =>
    cases skip with
    | succ skip => exact ih skip
    | zero =>
      simp only [substituteFrom]
      split
      · rename_i name size _
        have htext :
            (replacement vars line' name (cs.take size)).1 =
              (replacement vars line name (cs.take size)).1 := by
          unfold replacement
          split <;> rfl
        simp only [htext, ih]
      · simp only [ih]

/-- The line number of an expression only shows in reports. -/
theorem Expression.evaluate_line (text : String) (vars : Bindings) (line line' : Int) :
    (evaluate text vars line').result = (evaluate text vars line).result := by
  unfold evaluate substitute
  simp only
  split
  · rfl
  · simp only [substituteFrom_line vars line line']

namespace Flow

theorem evaluate_unnumbered {r r' : Routine} (h : r'.parameters = r.parameters) (text : String)
    (line line' : Int) : (r'.evaluate text line').2 = (r.evaluate text line).2 := by
  simp only [Routine.evaluate, h, Expression.evaluate_line text _ line line']

theorem arguments_unnumbered {r r' : Routine} (h : r'.parameters = r.parameters)
    (texts : List String) (line line' : Int) :
    (arguments line' r' texts).2 = (arguments line r texts).2 := by
  induction texts generalizing r r' with
  | nil => rfl
  | cons s texts ih =>
    unfold arguments
    cases hb : bracketed? s with
    | some text =>
      have hvalue := evaluate_unnumbered h text line line'
      simp only [Routine.evaluate] at hvalue ⊢
      rw [hvalue]
      cases (Expression.evaluate text r.parameters.bindings line).result with
      | error f => rfl
      | ok x => exact congrArg (Except.map (Number.float x :: ·)) (ih h)
    | none =>
      cases hx : Decimal.ofText? s with
      | some x => simp only [ih h]
      | none => rfl

theorem details_unnumbered (r : Routine) (word : String) (rest : List String) (line line' : Int) :
    (details line' word rest r).2 = (details line word rest r).2 := by
  unfold details
  split
  · rfl
  · split
    · split <;> rfl
    · split
      · simp only [arguments_unnumbered (rfl : r.parameters = r.parameters) rest line line']
      · split <;> rfl

/-- Blocks with the same control word give commands that differ in their line number only. -/
theorem readCommand_unnumbered {b b' : Block Number} (h : b'.oWord = b.oWord) (r : Routine) :
    (readCommand b' r).2.map (Option.map Command.unnumbered) =
      (readCommand b r).2.map (Option.map Command.unnumbered) := by
  unfold readCommand
  rw [h]
  split
  · rfl
  · split
    · rfl
    · split
      · rename_i name word rest _
        simp only
        split
        · rfl
        · have hdetails := details_unnumbered r (Text.lower word) rest b.line b'.line
          revert hdetails
          rcases details b.line (Text.lower word) rest r with ⟨r₁, out⟩
          rcases details b'.line (Text.lower word) rest r with ⟨r₂, out'⟩
          rintro rfl
          rcases out' with (_ | _) | _ <;> rfl
      · rfl

theorem command?_unnumbered {b b' : Block Number} (h : b'.oWord = b.oWord) (r : Routine) :
    (command? r b').map Command.unnumbered = (command? r b).map Command.unnumbered := by
  have hread := readCommand_unnumbered h r
  unfold command?
  revert hread
  rcases (readCommand b r).2 with _ | c <;> rcases (readCommand b' r).2 with _ | c' <;>
    simp [Except.map]

def SameWords (bs bs' : List (Block Number)) : Prop :=
  bs'.map Block.unnumbered = bs.map Block.unnumbered

theorem SameWords.cons_iff {b b' : Block Number} {bs bs' : List (Block Number)} :
    SameWords (b :: bs) (b' :: bs') ↔ b'.unnumbered = b.unnumbered ∧ SameWords bs bs' := by
  simp [SameWords]

theorem SameWords.isOk {bs bs' : List (Block Number)} (h : SameWords bs bs') {r : Routine}
    (hread : ∀ b ∈ bs, (readCommand b r).2.isOk = true) :
    ∀ b ∈ bs', (readCommand b r).2.isOk = true := by
  intro b' hb'
  have hmem : b'.unnumbered ∈ bs.map Block.unnumbered := h ▸ List.mem_map_of_mem hb'
  obtain ⟨b, hb, hsame⟩ := List.mem_map.mp hmem
  have hmap := readCommand_unnumbered (Block.oWord_of_unnumbered hsame) r
  have hok := hread b hb
  revert hmap hok
  rcases (readCommand b r).2 with _ | c <;> rcases (readCommand b' r).2 with _ | c' <;>
    simp [Except.map, Except.isOk, Except.toBool]

/-- Such programs have the same commands at the same positions, apart from the line numbers. -/
theorem SameWords.listed {bs bs' : List (Block Number)} (h : SameWords bs bs')
    (r : Routine) (i : Int) :
    (listed r i bs').map (fun e => (e.1, e.2.unnumbered)) =
      (listed r i bs).map fun e => (e.1, e.2.unnumbered) := by
  induction bs generalizing bs' i with
  | nil =>
    have hnil : bs' = [] := by simpa [SameWords] using h
    rw [hnil]
  | cons b bs ih =>
    cases bs' with
    | nil => simp [SameWords] at h
    | cons b' bs' =>
      obtain ⟨hb, hbs⟩ := cons_iff.mp h
      have hcommand := command?_unnumbered (Block.oWord_of_unnumbered hb) r
      simp only [Flow.listed, List.map_append, ih hbs]
      revert hcommand
      rcases command? r b with _ | c <;> rcases command? r b' with _ | c' <;> simp

/-- What a command shows to the check: a bracket, or a fault of looking up its word. Commands that
belong to no structure show nothing. -/
def shown? (f : Flow) (c : Command) : Option (Except Fault Bracket) :=
  (Structure.ofKind? c.kind).bind fun _ =>
    match commandWord f c with
    | .ok word => (Bracket.seen? c.kind c.label word).map .ok
    | .error e => some (.error e)

/-- There is no fault, and the brackets close what is open. -/
def Accepts (stack : List (Structure × Label)) (ms : List (Except Fault Bracket)) : Prop :=
  ∃ w, ms = w.map .ok ∧ Closing stack w

/-- The brackets up to a fault could still go on to close what is open. -/
def Stumbles (stack : List (Structure × Label)) (ms : List (Except Fault Bracket)) : Prop :=
  ∃ w e rest, ms = w.map .ok ++ .error e :: rest ∧ ∃ back, Closing stack (w ++ back)

section
variable {stack : List (Structure × Label)} {o : Structure × Label}
    {ms : List (Except Fault Bracket)} {x : Bracket}
  {kind : Structure} {label : Label} {e : Fault}

theorem accepts_nil : Accepts stack [] ↔ stack = [] := by
  simp [Accepts, Closing.nil_iff]

theorem accepts_cons : Accepts stack (.ok x :: ms) ↔
    ∃ w, ms = w.map .ok ∧ Closing stack (x :: w) := by
  constructor
  · rintro ⟨w, hw, hclosing⟩
    cases w with
    | nil => cases hw
    | cons y w =>
      obtain ⟨rfl, rfl⟩ : x = y ∧ ms = w.map .ok := by simpa using hw
      exact ⟨w, rfl, hclosing⟩
  · rintro ⟨w, rfl, hclosing⟩
    exact ⟨x :: w, rfl, hclosing⟩

theorem not_accepts_error : ¬ Accepts stack (.error e :: ms) := by
  rintro ⟨w, hw, -⟩
  cases w <;> cases hw

theorem not_stumbles_nil : ¬ Stumbles stack [] := by
  rintro ⟨w, e, rest, hw, -⟩
  cases w <;> cases hw

theorem stumbles_cons :
    Stumbles stack (.ok x :: ms) ↔
      ∃ w e rest, ms = w.map .ok ++ .error e :: rest ∧
        ∃ back, Closing stack (x :: (w ++ back)) := by
  constructor
  · rintro ⟨w, e, rest, hw, hclosing⟩
    cases w with
    | nil => cases hw
    | cons y w =>
      obtain ⟨rfl, rfl⟩ : x = y ∧ ms = w.map .ok ++ .error e :: rest := by simpa using hw
      exact ⟨w, e, rest, rfl, hclosing⟩
  · rintro ⟨w, e, rest, rfl, hclosing⟩
    exact ⟨x :: w, e, rest, rfl, hclosing⟩

/-- Whatever is open can be closed. -/
theorem stumbles_error : Stumbles stack (.error e :: ms) := by
  refine ⟨[], e, ms, rfl, stack.map fun o => .closes o.1 o.2, ?_⟩
  induction stack with
  | nil => exact .nil
  | cons o stack ih => exact ⟨[], _, rfl, .nil, ih⟩

end

/-- The check leaves the flow as it is. It accepts if the brackets that are shown close what is
open, and fails if it meets a fault before they could not do so any more. -/
theorem checkFrom_shown (f : Flow) (stack : List Opening) (cs : List (Int × Command)) :
    (checkFrom f stack cs).flow = f ∧
    ((checkFrom f stack cs).verdict = .ok true ↔
      Accepts (stack.map Opening.key) (cs.filterMap fun e => shown? f e.2)) ∧
    ((∃ e, (checkFrom f stack cs).verdict = .error e) ↔
      Stumbles (stack.map Opening.key) (cs.filterMap fun e => shown? f e.2)) := by
  induction cs generalizing stack with
  | nil =>
    cases stack with
    | nil => exact ⟨rfl, by simp [checkFrom, accepts_nil], by simp [checkFrom, not_stumbles_nil]⟩
    | cons o stack =>
      exact ⟨rfl, by simp [checkFrom, accepts_nil], by simp [checkFrom, not_stumbles_nil]⟩
  | cons e cs ih =>
    obtain ⟨i, c⟩ := e
    cases hs : Structure.ofKind? c.kind with
    | none =>
      have hnone : shown? f c = none := by simp [shown?, hs]
      simp only [List.filterMap_cons, hnone, checkFrom, hs]
      exact ih stack
    | some s =>
      cases hc : commandWord f c with
      | error fault =>
        have herror : shown? f c = some (.error fault) := by simp [shown?, hs, hc]
        simp only [List.filterMap_cons, herror, checkFrom, hs, hc]
        exact ⟨trivial, by simp [not_accepts_error], by simp [stumbles_error]⟩
      | ok word =>
        have hshown : shown? f c = (Bracket.seen? c.kind c.label word).map .ok := by
          simp [shown?, hs, hc]
        simp only [Bracket.seen?, hs, Option.bind_some] at hshown
        cases hrole : role s word with
        | opens =>
          rw [hrole] at hshown
          simp only [Option.map_some] at hshown
          simp only [List.filterMap_cons, hshown, checkFrom, hs, hc, hrole, accepts_cons,
            stumbles_cons, Closing.opens_iff]
          exact ih (⟨s, c.label, i⟩ :: stack)
        | other =>
          rw [hrole] at hshown
          simp only [Option.map_none] at hshown
          simp only [List.filterMap_cons, hshown, checkFrom, hs, hc, hrole]
          exact ih stack
        | closes =>
          rw [hrole] at hshown
          simp only [Option.map_some] at hshown
          have hsub : s ≠ .sub := by
            rintro rfl
            exact role_sub_ne_closes word hrole
          cases stack with
          | nil =>
            simp only [List.filterMap_cons, hshown, checkFrom, hs, hc, hrole, accepts_cons,
              stumbles_cons, List.map_nil, Closing.not_closes]
            exact ⟨rfl, by simp [mismatch], by simp [mismatch]⟩
          | cons o stack =>
            simp only [List.filterMap_cons, hshown, checkFrom, hs, hc, hrole, accepts_cons,
              stumbles_cons, List.map_cons, Closing.closes_iff]
            by_cases hmatch : o.kind = s ∧ o.label = c.label
            · have hkey : o.key = (s, c.label) := Prod.ext hmatch.1 hmatch.2
              simp only [hkey, true_and, if_pos hmatch, define, if_neg hsub]
              exact ih stack
            · have hkey : o.key ≠ (s, c.label) := fun h => hmatch (Prod.mk.inj h)
              simp only [hkey, false_and, and_false, exists_false, if_neg hmatch]
              exact ⟨rfl, by simp [mismatch], by simp [mismatch]⟩

def sighted (r : Routine) (blocks : Array (Block Number)) : List (Except Fault Bracket) :=
  blocks.toList.filterMap fun b => (command? r b).bind (shown? { r.flow with blocks })

theorem shown?_congr {f f' : Flow} (h : f'.blocks = f.blocks) (c : Command) :
    shown? f' c = shown? f c := by
  simp only [shown?, commandWord, blockAt?, h]

theorem listed_shown (r : Routine) (f : Flow) (i : Int) (bs : List (Block Number)) :
    ((listed r i bs).filterMap fun e => shown? f e.2) =
      bs.filterMap fun b => (command? r b).bind (shown? f) := by
  induction bs generalizing i with
  | nil => rfl
  | cons b bs ih =>
    simp only [listed, List.filterMap_append, ih, List.filterMap_cons]
    cases command? r b with
    | none => rfl
    | some c => cases hc : shown? f c <;> simp [hc]

variable {r : Routine} {blocks blocks' : Array (Block Number)}

/-- What taking in a program comes to, whatever the line numbers of its blocks. -/
theorem prepare_sighted (hread : ∀ b ∈ blocks.toList, (readCommand b r).2.isOk = true) :
    (prepare blocks r).1.flow =
      { r.flow with blocks, commands := ⟨listed r 0 blocks.toList⟩, subroutines := .empty } ∧
    ((prepare blocks r).2 = .ok true ↔ Accepts [] (sighted r blocks)) ∧
    ((∃ e, (prepare blocks r).2 = .error e) ↔ Stumbles [] (sighted r blocks)) := by
  obtain ⟨ds, -, hprepare⟩ := prepare_eq_check hread
  let f : Flow :=
    { r.flow with blocks, commands := ⟨listed r 0 blocks.toList⟩, subroutines := .empty }
  have hsighted : (f.commands.entries.filterMap fun e => shown? f e.2) = sighted r blocks := by
    have hsame : shown? f = shown? { r.flow with blocks } := funext (shown?_congr rfl)
    rw [listed_shown r f 0 blocks.toList, hsame]
    rfl
  have hcheck := checkFrom_shown f [] f.commands.entries
  rw [hsighted] at hcheck
  rw [hprepare]
  exact hcheck

/-- Neither program makes the check fail, both are judged alike, and they have the same subroutines
and the same commands at the same positions, apart from line numbers. -/
structure Alike (r : Routine) (blocks blocks' : Array (Block Number)) : Prop where
  verdict : ∃ verdict, (prepare blocks r).2 = .ok verdict ∧ (prepare blocks' r).2 = .ok verdict
  subroutines : (prepare blocks' r).1.flow.subroutines = (prepare blocks r).1.flow.subroutines
  commands : ((prepare blocks' r).1.flow.commands.entries.map fun e => (e.1, e.2.unnumbered)) =
    (prepare blocks r).1.flow.commands.entries.map fun e => (e.1, e.2.unnumbered)

/-- A verdict is reached by both, and it is the same, if neither stumbles and both or none
accept. -/
theorem verdict_iff {a b : Except Fault Bool} :
    (∃ verdict, a = .ok verdict ∧ b = .ok verdict) ↔
      (¬ ∃ e, a = .error e) ∧ (¬ ∃ e, b = .error e) ∧ (a = .ok true ↔ b = .ok true) := by
  rcases a with _ | (_ | _) <;> rcases b with _ | (_ | _) <;> simp

/-- Line numbers behind the end lead to no word. -/
theorem shown?_beyond {f : Flow} {c : Command} (h : f.blocks.size ≤ c.line) :
    shown? f c = none := by
  have hword : commandWord f c = .ok "" := by
    rw [commandWord, if_neg (by omega)]
  have hseen : Bracket.seen? c.kind c.label "" = none := by
    cases c.kind <;> rfl
  simp [shown?, hword, hseen]

/-- A line number that is the position of the block leads to its own word. -/
theorem shown?_own {f : Flow} {b : Block Number} {c : Command} (hc : command? r b = some c)
    (hown : commandWord f c = .ok (ownWord b)) : shown? f c = (seenAs? r b).map .ok := by
  cases hs : Structure.ofKind? c.kind with
  | none => simp [shown?, seenAs?, hc, hs, Bracket.seen?]
  | some s => simp [shown?, seenAs?, hc, hs, hown]

theorem bracket?_unnumbered {b b' : Block Number} (h : b'.oWord = b.oWord) (r : Routine) :
    bracket? r b' = bracket? r b := by
  have hcommand := command?_unnumbered h r
  have hword : ownWord b' = ownWord b := by rw [ownWord, ownWord, h]
  unfold bracket?
  rw [hword]
  revert hcommand
  rcases command? r b with _ | c <;> rcases command? r b' with _ | c' <;> simp
  intro hsame
  have hlabel : c'.unnumbered.label = c.unnumbered.label := by rw [hsame]
  exact congrArg (Bracket.ofWord? · (ownWord b)) hlabel

def renumber (line : Int) (b : Block Number) : Block Number := { b with line }

@[simp] theorem unnumbered_renumber (line : Int) (b : Block Number) :
    (renumber line b).unnumbered = b.unnumbered :=
  rfl

theorem sameWords_renumber (line : Int) (bs : List (Block Number)) :
    SameWords bs (bs.map (renumber line)) := by
  simp [SameWords]

/-- Blocks whose line number is behind the end show nothing. -/
theorem sighted_beyond {f : Flow} {line : Int} (h : f.blocks.size ≤ line)
    (bs : List (Block Number)) :
    ((bs.map (renumber line)).filterMap fun b => (command? r b).bind (shown? f)) = [] := by
  rw [List.filterMap_eq_nil_iff]
  intro b hb
  obtain ⟨b, -, rfl⟩ := List.mem_map.mp hb
  cases hc : command? r (renumber line b) with
  | none => rfl
  | some c =>
    have hline : c.line = line := (command?_some hc).2.1
    exact shown?_beyond (by omega)

/-- A program is accepted if all its line numbers are behind the end. -/
theorem prepare_beyond (hread : ∀ b ∈ blocks.toList, (readCommand b r).2.isOk = true) :
    (prepare (blocks.toList.map (renumber blocks.size)).toArray r).2 = .ok true := by
  have hread' := (sameWords_renumber blocks.size blocks.toList).isOk hread
  rw [(prepare_sighted hread').2.1, sighted, sighted_beyond (by simp)]
  exact ⟨[], rfl, .nil⟩

/-- A single bracket is not balanced. -/
theorem not_accepts_single (x : Bracket) : ¬ Accepts [] [.ok x] := by
  rw [accepts_cons]
  rintro ⟨w, hw, hclosing⟩
  obtain rfl : w = [] := by simpa using hw
  cases x with
  | opens kind label => exact absurd (Closing.opens_iff.mp hclosing) (by simp [Closing.nil_iff])
  | closes kind label => exact Closing.not_closes hclosing

/-- A program in which the line number of one block is right, and all others are behind the end. -/
def singled (front : List (Block Number)) (b : Block Number) (back : List (Block Number)) :
    List (Block Number) :=
  front.map (renumber (front ++ b :: back).length) ++
    renumber front.length b :: back.map (renumber (front ++ b :: back).length)

theorem sameWords_singled (front : List (Block Number)) (b : Block Number)
    (back : List (Block Number)) : SameWords (front ++ b :: back) (singled front b back) := by
  simp [SameWords, singled, Function.comp_def]

/-- An opening or closing command that knows its position shows a bracket. -/
theorem shown?_at {f : Flow} {i : Nat} {b : Block Number} (hi : f.blocks[i]? = some b)
    (hline : b.line = i) (h : bracket? r b ≠ none) :
    ∃ x, (command? r b).bind (shown? f) = some (.ok x) := by
  cases hc : command? r b with
  | none => simp [bracket?, hc] at h
  | some c =>
    have hseen : seenAs? r b ≠ none := by
      by_cases hsub : c.kind = .sub
      · simp [((seenAs?_cases hc).1 hsub).1]
      · rw [((seenAs?_cases hc).2 hsub).1]
        exact h
    obtain ⟨x, hx⟩ := Option.ne_none_iff_exists'.mp hseen
    exact ⟨x, by simp [shown?_own hc (commandWord_at hi hline hc), hx]⟩

/-- If that block opens or closes something, the program is refused. -/
theorem prepare_singled {front back : List (Block Number)} {b : Block Number}
    (h : bracket? r b ≠ none)
    (hread : ∀ b' ∈ front ++ b :: back, (readCommand b' r).2.isOk = true) :
    (prepare (singled front b back).toArray r).2 = .ok false := by
  let f : Flow := { r.flow with blocks := (singled front b back).toArray }
  have hat : f.blocks[front.length]? = some (renumber front.length b) := by
    simp [f, singled]
  have hbracket : bracket? r (renumber front.length b) ≠ none := by
    have hsame : (renumber front.length b).oWord = b.oWord := rfl
    rw [bracket?_unnumbered hsame]
    exact h
  obtain ⟨x, hx⟩ := shown?_at hat rfl hbracket
  have hsize : (f.blocks.size : Int) ≤ (front ++ b :: back).length := by
    simp [f, singled]
  have hsighted : sighted r (singled front b back).toArray = [.ok x] := by
    have hfront := sighted_beyond (r := r) hsize front
    have hback := sighted_beyond (r := r) hsize back
    rw [sighted, List.toList_toArray]
    nth_rewrite 2 [singled]
    rw [List.filterMap_append, List.filterMap_cons, hfront, hback, hx]
    rfl
  have hstumbles : ¬ Stumbles [] [.ok x] := by
    rw [stumbles_cons]
    rintro ⟨w, e, rest, hw, -⟩
    simp at hw
  have hread' : ∀ b' ∈ (singled front b back).toArray.toList, (readCommand b' r).2.isOk = true :=
    (sameWords_singled front b back).isOk hread
  obtain ⟨-, hok, herror⟩ := prepare_sighted hread'
  rw [hsighted] at hok herror
  rcases hverdict : (prepare (singled front b back).toArray r).2 with e | verdict
  · exact absurd (herror.mp ⟨e, hverdict⟩) hstumbles
  · cases verdict with
    | false => rfl
    | true => exact absurd (hok.mp hverdict) (not_accepts_single x)

/-- Taking in two programs that differ in line numbers only comes to the same if and only if neither
stumbles over a line number that leads nowhere, and both or none show balanced brackets. The
commands are the same in any case, and no subroutine is defined. But every program with an opening
or closing command is accepted with some line numbers and refused with others. -/
theorem prepare_alike_iff (hsame : SameWords blocks.toList blocks'.toList)
    (hread : ∀ b ∈ blocks.toList, (readCommand b r).2.isOk = true) :
    (Alike r blocks blocks' ↔
      ¬ Stumbles [] (sighted r blocks) ∧ ¬ Stumbles [] (sighted r blocks') ∧
        (Accepts [] (sighted r blocks) ↔ Accepts [] (sighted r blocks'))) ∧
    ((prepare blocks' r).1.flow.commands.entries.map fun e => (e.1, e.2.unnumbered)) =
      ((prepare blocks r).1.flow.commands.entries.map fun e => (e.1, e.2.unnumbered)) ∧
    (prepare blocks r).1.flow.subroutines = .empty ∧
      (prepare blocks' r).1.flow.subroutines = .empty ∧
    ((∃ b ∈ blocks.toList, bracket? r b ≠ none) →
      ∃ first second, SameWords blocks.toList first ∧ SameWords blocks.toList second ∧
        (∀ b ∈ first ++ second, 0 ≤ b.line) ∧
        (prepare first.toArray r).2 = .ok true ∧ (prepare second.toArray r).2 = .ok false) := by
  obtain ⟨hflow, hok, herror⟩ := prepare_sighted hread
  obtain ⟨hflow', hok', herror'⟩ := prepare_sighted (hsame.isOk hread)
  have hcommands : ((prepare blocks' r).1.flow.commands.entries.map fun e =>
    (e.1, e.2.unnumbered)) =
      ((prepare blocks r).1.flow.commands.entries.map fun e => (e.1, e.2.unnumbered)) := by
    rw [hflow, hflow']
    exact hsame.listed r 0
  refine ⟨?_, hcommands, by rw [hflow], by rw [hflow'], ?_⟩
  · rw [← hok, ← hok', ← herror, ← herror', ← verdict_iff]
    exact ⟨Alike.verdict, fun h => ⟨h, by rw [hflow, hflow'], hcommands⟩⟩
  · rintro ⟨b, hb, hbracket⟩
    obtain ⟨front, back, hsplit⟩ := List.append_of_mem hb
    refine ⟨_, singled front b back, sameWords_renumber blocks.size blocks.toList,
      hsplit ▸ sameWords_singled front b back, ?_, prepare_beyond hread,
      prepare_singled hbracket (hsplit ▸ hread)⟩
    intro b hb
    simp only [singled, List.mem_append, List.mem_cons, List.mem_map] at hb
    rcases hb with ⟨_, -, rfl⟩ | ⟨_, -, rfl⟩ | rfl | ⟨_, -, rfl⟩ <;> exact Int.natCast_nonneg _

def loopProgram : Array (Block Number) := program [some "O1 while [1]", some "O1 endwhile"]

def loopFromOne : Array (Block Number) :=
  (loopProgram.toList.map fun b => renumber (b.line + 1) b).toArray

theorem loop_prepared :
    (∀ b ∈ loopProgram.toList, (readCommand b .initial).2.isOk = true) ∧
    (prepare loopProgram .initial).2.toOption = some true ∧
    (prepare loopFromOne .initial).2.toOption = some false := by
  decide +kernel

/-- The loop is accepted if its lines are counted from zero, and refused if they are counted from
one. -/
theorem prepare_alike_iff_loop :
    SameWords loopProgram.toList loopFromOne.toList ∧ ¬ Alike .initial loopProgram loopFromOne ∧
    Accepts [] (sighted .initial loopProgram) ∧ ¬ Accepts [] (sighted .initial loopFromOne) := by
  obtain ⟨hread, hzero, hone⟩ := loop_prepared
  have hsame : SameWords loopProgram.toList loopFromOne.toList := rfl
  obtain ⟨-, hok, -⟩ := prepare_sighted hread
  obtain ⟨-, hok', -⟩ := prepare_sighted (hsame.isOk hread)
  have haccepts : Accepts [] (sighted .initial loopProgram) := by
    rw [← hok]
    cases hv : (prepare loopProgram .initial).2 <;> simp_all [Except.toOption]
  have hrefuses : ¬ Accepts [] (sighted .initial loopFromOne) := by
    rw [← hok']
    intro hv
    simp [hv, Except.toOption] at hone
  refine ⟨hsame, fun halike => ?_, haccepts, hrefuses⟩
  obtain ⟨-, -, hiff⟩ := (prepare_alike_iff hsame hread).1.mp halike
  exact hrefuses (hiff.mp haccepts)

end Flow
end Machining
