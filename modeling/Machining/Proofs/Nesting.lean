import Machining.Flow.Execute
import Machining.Flow.Structure
import Machining.Proofs.Movement
import Mathlib.Data.List.Basic

namespace Machining

def Diagnostic.isStructural (d : Diagnostic) : Bool :=
  "Mismatched ".toList.isPrefixOf d.message.toList || "Unclosed ".toList.isPrefixOf d.message.toList

/-- What a text begins with, it begins with however it goes on. -/
theorem prefix_toList_append {front : List Char} {first rest : String}
    (h : front <+: first.toList) : front <+: (first ++ rest).toList := by
  rw [String.toList_append]
  exact h.trans (List.prefix_append _ _)

/-- Three characters tell whether a report is on the structure. -/
theorem Diagnostic.not_isStructural {first rest : String} {line : Int} {category : Category}
    (a b c : Char) (h : [a, b, c] <+: first.toList) (hm : [a, b, c] ≠ ['M', 'i', 's'])
    (hu : [a, b, c] ≠ ['U', 'n', 'c']) :
    (Diagnostic.onLine line category (first ++ rest)).isStructural = false := by
  have hno : ∀ cs : List Char, 3 ≤ cs.length → [a, b, c] ≠ cs.take 3 →
      cs.isPrefixOf (first ++ rest).toList = false := by
    intro cs hlong hne
    rw [Bool.eq_false_iff]
    intro hp
    have hthree : cs.take 3 <+: cs := List.take_prefix 3 cs
    have hwhole : cs <+: (first ++ rest).toList := List.isPrefixOf_iff_prefix.mp hp
    have hsame := List.prefix_of_prefix_length_le (prefix_toList_append h) (hthree.trans hwhole)
      (by simp [Nat.min_eq_left hlong])
    exact hne (hsame.eq_of_length (by simp [Nat.min_eq_left hlong]))
  rw [isStructural, Bool.or_eq_false_iff]
  exact ⟨hno _ (by decide) hm, hno _ (by decide) hu⟩

namespace Flow
open Expression (Evaluator)

inductive Bracket where
  | opens (kind : Structure) (label : Label)
  | closes (kind : Structure) (label : Label)
  deriving DecidableEq, Repr

def Bracket.kind : Bracket → Structure
  | opens kind _ | closes kind _ => kind

/-- Words in which each closing bracket has the kind and the label of the opening one it matches. -/
inductive Balanced : List Bracket → Prop where
  | nil : Balanced []
  | pair {inner rest : List Bracket} (kind : Structure) (label : Label) (inside : Balanced inner)
      (behind : Balanced rest) :
      Balanced (.opens kind label :: (inner ++ .closes kind label :: rest))

/-- In a balanced word there are as many closing brackets of a kind and label as opening ones. -/
theorem Balanced.count {w : List Bracket} (h : Balanced w) (kind : Structure) (label : Label) :
    w.count (.opens kind label) = w.count (.closes kind label) := by
  induction h with
  | nil => rfl
  | pair k l _ _ hinner hrest =>
    simp only [List.count_cons, List.count_append, hinner, hrest, beq_iff_eq, Bracket.opens.injEq,
      Bracket.closes.injEq, reduceCtorEq, ↓reduceIte]
    omega

/-- Words that close what is open, innermost first, and are balanced otherwise. -/
def Closing : List (Structure × Label) → List Bracket → Prop
  | [], w => Balanced w
  | o :: stack, w =>
    ∃ inner rest, w = inner ++ .closes o.1 o.2 :: rest ∧ Balanced inner ∧ Closing stack rest

namespace Closing
variable {stack : List (Structure × Label)} {o : Structure × Label} {w inner rest : List Bracket}
  {kind : Structure} {label : Label}

theorem nil_iff : Closing stack [] ↔ stack = [] := by
  cases stack with
  | nil => exact ⟨fun _ => rfl, fun _ => .nil⟩
  | cons o stack => simp [Closing]

/-- A pair of brackets in front changes nothing. -/
theorem pair (hinner : Balanced inner) (h : Closing stack rest) :
    Closing stack (.opens kind label :: (inner ++ .closes kind label :: rest)) := by
  cases stack with
  | nil => exact .pair kind label hinner h
  | cons o stack =>
    obtain ⟨first, behind, rfl, hfirst, hbehind⟩ := h
    exact ⟨.opens kind label :: (inner ++ .closes kind label :: first), behind, by simp,
      .pair kind label hinner hfirst, hbehind⟩

theorem opens_iff : Closing stack (.opens kind label :: w) ↔
    Closing ((kind, label) :: stack) w := by
  constructor
  · intro h
    cases stack with
    | nil =>
      cases h with
      | pair _ _ inside behind => exact ⟨_, _, rfl, inside, behind⟩
    | cons o stack =>
      obtain ⟨first, rest, hw, hfirst, hrest⟩ := h
      cases hfirst with
      | nil => cases hw
      | @pair inner behind k l inside outside =>
        simp only [List.cons_append, List.cons.injEq, Bracket.opens.injEq] at hw
        obtain ⟨⟨rfl, rfl⟩, rfl⟩ := hw
        exact ⟨inner, behind ++ .closes o.1 o.2 :: rest,
          by simp, inside, behind, rest, rfl, outside, hrest⟩
  · rintro ⟨inner, rest, rfl, hinner, hrest⟩
    exact pair hinner hrest

theorem closes_iff : Closing (o :: stack) (.closes kind label :: w) ↔
    o = (kind, label) ∧ Closing stack w := by
  constructor
  · rintro ⟨inner, rest, hw, hinner, hrest⟩
    cases hinner with
    | nil =>
      simp only [List.nil_append, List.cons.injEq, Bracket.closes.injEq] at hw
      obtain ⟨⟨rfl, rfl⟩, rfl⟩ := hw
      exact ⟨rfl, hrest⟩
    | pair => cases hw
  · rintro ⟨rfl, h⟩
    exact ⟨[], w, rfl, .nil, h⟩

theorem not_closes : ¬ Closing [] (.closes kind label :: w) := nofun

instance decideClosing : (stack : List (Structure × Label)) → (w : List Bracket) →
    Decidable (Closing stack w)
  | _, [] => decidable_of_iff _ nil_iff.symm
  | stack, .opens kind label :: w =>
    have := decideClosing ((kind, label) :: stack) w
    decidable_of_iff _ opens_iff.symm
  | [], .closes _ _ :: _ => .isFalse not_closes
  | _ :: stack, .closes _ _ :: w =>
    have := decideClosing stack w
    decidable_of_iff _ closes_iff.symm

end Closing

instance : DecidablePred Balanced := fun w => inferInstanceAs (Decidable (Closing [] w))

def Bracket.ofWord? (label : Label) (word : String) : Option Bracket :=
  if word = "sub" then some (.opens .sub label)
  else if word = "endsub" then some (.closes .sub label)
  else if word = "if" then some (.opens .conditional label)
  else if word = "endif" then some (.closes .conditional label)
  else if word = "while" then some (.opens .whileLoop label)
  else if word = "endwhile" then some (.closes .whileLoop label)
  else if word = "repeat" then some (.opens .repeatLoop label)
  else if word = "endrepeat" then some (.closes .repeatLoop label)
  else none

/-- The bracket that a command is taken for when the structure is checked. -/
def Bracket.seen? (kind : CommandKind) (label : Label) (word : String) : Option Bracket :=
  (Structure.ofKind? kind).bind fun s =>
    match role s word with
    | .opens => some (.opens s label)
    | .closes => some (.closes s label)
    | .other => none

/-- Nothing closes a subroutine. -/
theorem role_sub_ne_closes (word : String) : role .sub word ≠ .closes := by
  have hsuffix : "endsub".toList.isSuffixOf word.toList = true →
      "sub".toList.isSuffixOf word.toList = true := by
    intro h
    rw [List.isSuffixOf_iff_suffix] at h ⊢
    have hsub : "sub".toList <:+ "endsub".toList := by decide
    exact hsub.trans h
  simp only [role, ↓reduceIte]
  split
  · nofun
  · split
    · rename_i hno hend
      exact absurd (hsuffix hend) hno
    · nofun

theorem kind?_mem {word : String} {kind : CommandKind} (h : kind? word = some kind) :
    (word, kind) ∈ commandKinds := by
  obtain ⟨e, he, rfl⟩ := Option.map_eq_some_iff.mp h
  have hword : e.1 = word := by simpa using List.find?_some he
  subst hword
  exact List.mem_of_find?_eq_some he

/-- Commands are taken for what they are, except that whatever is about subroutines opens one. -/
theorem seen?_of_kind? {word : String} {kind : CommandKind} (h : kind? word = some kind)
    (label : Label) :
    (kind = .sub → Bracket.seen? kind label word = some (.opens .sub label) ∧
      (Bracket.ofWord? label word = some (.opens .sub label) ∨
        Bracket.ofWord? label word = some (.closes .sub label))) ∧
    (kind ≠ .sub → Bracket.seen? kind label word = Bracket.ofWord? label word ∧
      ∀ x ∈ Bracket.ofWord? label word, x.kind ≠ .sub) := by
  have hmem := kind?_mem h
  simp only [commandKinds, List.mem_cons, Prod.mk.injEq, List.not_mem_nil, or_false] at hmem
  rcases hmem with ⟨rfl, rfl⟩ | ⟨rfl, rfl⟩ | ⟨rfl, rfl⟩ | ⟨rfl, rfl⟩ | ⟨rfl, rfl⟩ |
    ⟨rfl, rfl⟩ | ⟨rfl, rfl⟩ |
    ⟨rfl, rfl⟩ | ⟨rfl, rfl⟩ | ⟨rfl, rfl⟩ | ⟨rfl, rfl⟩ | ⟨rfl, rfl⟩ | ⟨rfl, rfl⟩ | ⟨rfl, rfl⟩
  · exact ⟨fun _ => ⟨rfl, .inl rfl⟩, fun h => absurd rfl h⟩
  · exact ⟨fun _ => ⟨rfl, .inr rfl⟩, fun h => absurd rfl h⟩
  all_goals
    refine ⟨nofun, fun _ => ⟨rfl, ?_⟩⟩
    rintro x ⟨⟩ <;> nofun

def mark? (f : Flow) (c : Command) : Option Bracket :=
  match commandWord f c with
  | .ok word => Bracket.seen? c.kind c.label word
  | .error _ => none

def Opening.key (o : Opening) : Structure × Label := (o.kind, o.label)

/-- The check accepts exactly the words that close what is open, and else makes a single report. It
never changes the flow: only the end of a subroutine would, and there is none. -/
theorem checkFrom_cases {f : Flow} {cs : List (Int × Command)} (stack : List Opening)
    (hword : ∀ e ∈ cs, ∃ word, commandWord f e.2 = .ok word) :
    (Closing (stack.map Opening.key) (cs.filterMap fun e => mark? f e.2) ∧
      checkFrom f stack cs = ⟨f, [], .ok true⟩) ∨
    (¬ Closing (stack.map Opening.key) (cs.filterMap fun e => mark? f e.2) ∧
      ∃ d, d.isStructural = true ∧ checkFrom f stack cs = ⟨f, [d], .ok false⟩) := by
  induction cs generalizing stack with
  | nil =>
    cases stack with
    | nil => exact .inl ⟨.nil, rfl⟩
    | cons o stack =>
      refine .inr ⟨by simp [Closing.nil_iff], _, ?_, rfl⟩
      rw [Diagnostic.isStructural, Bool.or_eq_true, List.isPrefixOf_iff_prefix,
        List.isPrefixOf_iff_prefix]
      exact .inr (prefix_toList_append
        (prefix_toList_append (prefix_toList_append List.prefix_rfl)))
  | cons e cs ih =>
    obtain ⟨i, c⟩ := e
    obtain ⟨word, hc⟩ := hword (i, c) List.mem_cons_self
    have hrest := fun stack => ih stack fun e he => hword e (List.mem_cons_of_mem _ he)
    have hmark : mark? f c = Bracket.seen? c.kind c.label word := by rw [mark?, hc]
    cases hs : Structure.ofKind? c.kind with
    | none =>
      have hnone : mark? f c = none := by simp [hmark, Bracket.seen?, hs]
      simp only [List.filterMap_cons, hnone, checkFrom, hs]
      exact hrest stack
    | some s =>
      cases hrole : role s word with
      | opens =>
        have hopens : mark? f c = some (.opens s c.label) := by
          simp [hmark, Bracket.seen?, hs, hrole]
        simp only [List.filterMap_cons, hopens, checkFrom, hs, hc, hrole, Closing.opens_iff]
        exact hrest (⟨s, c.label, i⟩ :: stack)
      | other =>
        have hnone : mark? f c = none := by simp [hmark, Bracket.seen?, hs, hrole]
        simp only [List.filterMap_cons, hnone, checkFrom, hs, hc, hrole]
        exact hrest stack
      | closes =>
        have hcloses : mark? f c = some (.closes s c.label) := by
          simp [hmark, Bracket.seen?, hs, hrole]
        have hsub : s ≠ .sub := by
          rintro rfl
          exact role_sub_ne_closes word hrole
        have hmismatch : ∃ d, Diagnostic.isStructural d = true ∧
            mismatch f s c = ⟨f, [d], .ok false⟩ := by
          refine ⟨_, ?_, rfl⟩
          rw [Diagnostic.isStructural, Bool.or_eq_true, List.isPrefixOf_iff_prefix]
          exact .inl (prefix_toList_append
            (prefix_toList_append (prefix_toList_append List.prefix_rfl)))
        cases stack with
        | nil =>
          simp only [List.filterMap_cons, hcloses, checkFrom, hs, hc, hrole]
          exact .inr ⟨Closing.not_closes, hmismatch⟩
        | cons o stack =>
          simp only [List.filterMap_cons, hcloses, checkFrom, hs, hc, hrole, List.map_cons,
            Closing.closes_iff]
          by_cases hmatch : o.kind = s ∧ o.label = c.label
          · have hkey : o.key = (s, c.label) := Prod.ext hmatch.1 hmatch.2
            simp only [hkey, true_and, if_pos hmatch, define, if_neg hsub]
            exact hrest stack
          · have hkey : o.key ≠ (s, c.label) := fun h => hmatch (Prod.mk.inj h)
            rw [if_neg hmatch]
            exact .inr ⟨fun h => hkey h.1, hmismatch⟩

def Reads {γ : Type} (step : Routine → Routine × γ) : Prop :=
  ∀ p, ∃ ds out, (∀ d ∈ ds, Diagnostic.isStructural d = false) ∧
    ∀ r, r.parameters = p → step r = ({ r with reports := r.reports ++ ds }, out)

namespace Reads
variable {γ : Type}

theorem pure (out : γ) : Reads fun r => (r, out) := fun _ => ⟨[], out, by simp, by simp⟩

theorem report {d : Diagnostic} (h : d.isStructural = false) (out : γ) :
    Reads fun r => (r.report d, out) :=
  fun _ => ⟨[d], out, by simpa using h, fun _ _ => rfl⟩

end Reads

/-- What holds of the report on an undefined variable holds of every report of an evaluation. -/
theorem substituteFrom_reports {P : Diagnostic → Prop} {vars : Expression.Bindings} {line : Int}
    {skip : Nat} {cs : List Char} {d : Diagnostic}
    (undefined : ∀ spelling : String, P (.onLine line .runtime s!"Undefined variable: {spelling}"))
    (h : d ∈ (Expression.substituteFrom vars line skip cs).2) : P d := by
  induction cs generalizing skip with
  | nil => simp [Expression.substituteFrom] at h
  | cons c cs ih =>
    cases skip with
    | succ skip => exact ih h
    | zero =>
      simp only [Expression.substituteFrom] at h
      split at h
      · rcases List.mem_append.mp h with h | h
        · unfold Expression.replacement at h
          split at h
          · simp at h
          · rw [List.mem_singleton.mp h]
            exact undefined _
        · exact ih h
      · exact ih h

def ownWord (b : Block Number) : String :=
  match b.oWord.map parts with
  | some (_ :: word :: _) => Text.lower word
  | _ => ""

def enter (t : Table Int Command) (i : Int) : Option Command → Table Int Command
  | none => t
  | some c => t.put i c

theorem entries_enter {t : Table Int Command} {i : Int} (h : ∀ e ∈ t.entries, e.1 < i)
    (o : Option Command) : (enter t i o).entries = t.entries ++ (o.map (i, ·)).toList := by
  cases o with
  | none => simp [enter]
  | some c =>
    obtain ⟨entries⟩ := t
    simp only [enter, Table.put, Option.map_some, Option.toList_some] at h ⊢
    induction entries with
    | nil => rfl
    | cons e es ih =>
      have hlt := h e List.mem_cons_self
      have hne : (e.1 == i) = false := by
        rw [beq_eq_false_iff_ne]
        omega
      simp [Table.put.go, hne, ih fun e he => h e (List.mem_cons_of_mem _ he)]

def takeUp (blocks : Array (Block Number)) (r : Routine) : Routine :=
  { r with flow := { r.flow with blocks, commands := .empty, subroutines := .empty } }

def program (words : List (Option String)) : Array (Block Number) :=
  (words.mapIdx fun i w => { (Block.empty i : Block Number) with oWord := w }).toArray

theorem program_line (words : List (Option String)) (i : Nat) (b : Block Number)
    (h : (program words)[i]? = some b) : b.line = i := by
  simp only [program, List.getElem?_toArray, List.getElem?_mapIdx, Option.map_eq_some_iff] at h
  obtain ⟨w, -, rfl⟩ := h
  rfl

section
variable [Evaluator]

theorem evaluate_reports {P : Diagnostic → Prop} {text : String} {vars : Expression.Bindings}
    {line : Int} {d : Diagnostic} (undefined : ∀ spelling : String,
      P (.onLine line .runtime s!"Undefined variable: {spelling}"))
    (h : d ∈ (Expression.evaluate text vars line).reports) : P d := by
  unfold Expression.evaluate at h
  simp only at h
  split at h
  · cases h
  · exact substituteFrom_reports undefined h

theorem evaluate_reads (text : String) (line : Int) : Reads fun r => r.evaluate text line := by
  intro p
  refine ⟨(Expression.evaluate text p.bindings line).reports,
    (Expression.evaluate text p.bindings line).result, fun d hd =>
      evaluate_reports (P := fun d => d.isStructural = false) (fun _ => ?_) hd, ?_⟩
  · exact Diagnostic.not_isStructural 'U' 'n' 'd' (by decide) (by decide) (by decide)
  · rintro r rfl
    rfl

theorem arguments_reads (line : Int) (texts : List String) :
    Reads fun r => arguments line r texts := by
  induction texts with
  | nil => exact .pure _
  | cons s texts ih =>
    intro p
    obtain ⟨more, args, hmore, hargs⟩ := ih p
    cases hb : bracketed? s with
    | some text =>
      obtain ⟨ds, value, hds, hvalue⟩ := evaluate_reads text line p
      cases value with
      | error f =>
        exact ⟨ds, .error (.fault f), hds, fun r hr => by simp [arguments, hb, hvalue r hr]⟩
      | ok x =>
        refine ⟨ds ++ more, args.map (.float x :: ·), ?_, fun r hr => ?_⟩
        · intro d hd
          rcases List.mem_append.mp hd with hd | hd
          · exact hds d hd
          · exact hmore d hd
        · have hrest := hargs { r with reports := r.reports ++ ds } hr
          simp only at hvalue hrest
          simp [arguments, hb, hvalue r hr, hrest]
    | none =>
      cases hx : Decimal.ofText? s with
      | some x =>
        exact ⟨more, args.map (.float x :: ·), hmore,
          fun r hr => by simp [arguments, hb, hx, hargs r hr]⟩
      | none =>
        obtain ⟨ds, out, hds, hout⟩ :=
          Reads.report (d := .onLine line .syntactic s!"Invalid argument: {s}")
          (Diagnostic.not_isStructural 'I' 'n' 'v' (by decide) (by decide) (by decide))
          (.error .reported : Except Refusal (List Number)) p
        exact ⟨ds, out, hds, fun r hr => by simp [arguments, hb, hx, hout r hr]⟩

theorem details_reads (line : Int) (word : String) (rest : List String) :
    Reads (details line word rest) := by
  unfold details
  split
  · exact .pure _
  · split
    · split
      · exact .pure _
      · exact .report (Diagnostic.not_isStructural 'E' 'x' 'p' (by decide) (by decide)
          (by decide)) _
    · split
      · intro p
        obtain ⟨ds, args, hds, hargs⟩ := arguments_reads line rest p
        exact ⟨ds, args.map (none, ·), hds, fun r hr => by simp only [hargs r hr]⟩
      · split
        · exact .pure _
        · exact .pure _

theorem readCommand_reads (b : Block Number) : Reads (readCommand b) := by
  unfold readCommand
  split
  · exact .pure _
  · split
    · exact .pure _
    · split
      · rename_i name word rest _
        simp only
        split
        · exact .report (Diagnostic.not_isStructural 'U' 'n' 'k' (by decide) (by decide)
            (by decide)) _
        · rename_i kind _
          intro p
          obtain ⟨ds, out, hds, hout⟩ := details_reads b.line (Text.lower word) rest p
          cases out with
          | ok out =>
            exact ⟨ds, .ok (some ⟨kind, label name, out.1, out.2, b.line⟩), hds,
              fun r hr => by simp only [hout r hr]⟩
          | error e =>
            cases e with
            | reported => exact ⟨ds, .ok none, hds, fun r hr => by simp only [hout r hr]⟩
            | fault f => exact ⟨ds, .error f, hds, fun r hr => by simp only [hout r hr]⟩
      · exact .report (Diagnostic.not_isStructural 'I' 'n' 'v' (by decide) (by decide)
          (by decide)) _

def command? (r : Routine) (b : Block Number) : Option Command :=
  match (readCommand b r).2 with
  | .ok c => c
  | .error _ => none

theorem readCommand_congr {r r' : Routine} (h : r'.parameters = r.parameters) (b : Block Number) :
    (readCommand b r').2 = (readCommand b r).2 := by
  obtain ⟨ds, out, -, hout⟩ := readCommand_reads b r.parameters
  rw [hout r' h, hout r rfl]

/-- A command is of the kind of its word, and knows the line of its block. -/
theorem command?_some {r : Routine} {b : Block Number} {c : Command} (h : command? r b = some c) :
    kind? (ownWord b) = some c.kind ∧ c.line = b.line ∧
      ∃ oWord name word rest, b.oWord = some oWord ∧ parts oWord = name :: word :: rest := by
  unfold command? readCommand at h
  cases ho : b.oWord with
  | none => simp [ho] at h
  | some oWord =>
    simp only [ho] at h
    split at h
    · rename_i out hout
      split at hout
      · cases hout
        cases h
      · split at hout
        · rename_i name word rest hparts
          have hown : ownWord b = Text.lower word := by simp [ownWord, ho, hparts]
          split at hout
          · cases hout
            cases h
          · rename_i kind hkind
            split at hout
            · subst h
              simp only [Except.ok.injEq, Option.some.injEq] at hout
              subst hout
              exact ⟨by rw [hown, hkind], rfl, oWord, name, word, rest, rfl, hparts⟩
            · cases hout
              cases h
            · cases hout
        · cases hout
          cases h
    · cases h

def listed (r : Routine) : Int → List (Block Number) → List (Int × Command)
  | _, [] => []
  | i, b :: bs => ((command? r b).map (i, ·)).toList ++ listed r (i + 1) bs

theorem listed_congr {r r' : Routine} (h : r'.parameters = r.parameters) (i : Int)
    (bs : List (Block Number)) : listed r' i bs = listed r i bs := by
  induction bs generalizing i with
  | nil => rfl
  | cons b bs ih => simp only [listed, command?, readCommand_congr h, ih]

theorem readFrom_cons {b : Block Number} {r r' : Routine} {o : Option Command}
    (h : readCommand b r = (r', .ok o)) (i : Int) (bs : List (Block Number)) :
    readFrom i (b :: bs) r =
      readFrom (i + 1) bs
        { r' with flow := { r'.flow with commands := enter r'.flow.commands i o } } := by
  rw [readFrom, h]
  cases o <;> rfl

/-- Reading lists the commands behind those that are there. -/
theorem readFrom_listed {bs : List (Block Number)} {r : Routine} {i : Int}
    (hread : ∀ b ∈ bs, (readCommand b r).2.isOk = true)
    (hfresh : ∀ e ∈ r.flow.commands.entries, e.1 < i) :
    ∃ ds, (∀ d ∈ ds, Diagnostic.isStructural d = false) ∧
      readFrom i bs r =
        (⟨{ r.flow with commands := ⟨r.flow.commands.entries ++ listed r i bs⟩ }, r.parameters,
          r.reports ++ ds⟩, .ok ()) := by
  induction bs generalizing r i with
  | nil => exact ⟨[], by simp, by simp [readFrom, listed]⟩
  | cons b bs ih =>
    obtain ⟨ds, out, hds, hout⟩ := readCommand_reads b r.parameters
    have hb := hread b List.mem_cons_self
    rw [hout r rfl] at hb
    cases out with
    | error f => cases hb
    | ok o =>
      have hcommand : command? r b = o := by simp only [command?, hout r rfl]
      have hentries := entries_enter hfresh o
      have hnext : ∀ e ∈ (enter r.flow.commands i o).entries, e.1 < i + 1 := by
        intro e he
        rw [hentries, List.mem_append, Option.mem_toList, Option.map_eq_some_iff] at he
        rcases he with he | ⟨c, -, rfl⟩
        · have := hfresh e he
          omega
        · simp only
          omega
      let r' : Routine :=
        ⟨{ r.flow with commands := enter r.flow.commands i o }, r.parameters, r.reports ++ ds⟩
      have hsame : r'.parameters = r.parameters := rfl
      have hbehind : ∀ b' ∈ bs, (readCommand b' r').2.isOk = true := by
        intro b' hb'
        rw [readCommand_congr hsame]
        exact hread b' (List.mem_cons_of_mem b hb')
      obtain ⟨more, hmore, hrest⟩ := ih (r := r') hbehind hnext
      refine ⟨ds ++ more, ?_, ?_⟩
      · intro d hd
        rcases List.mem_append.mp hd with hd | hd
        · exact hds d hd
        · exact hmore d hd
      · rw [readFrom_cons (hout r rfl), hrest, listed_congr hsame]
        simp [r', hentries, listed, hcommand]

def bracket? (r : Routine) (b : Block Number) : Option Bracket :=
  (command? r b).bind fun c => Bracket.ofWord? c.label (ownWord b)

def brackets (r : Routine) (bs : List (Block Number)) : List Bracket := bs.filterMap (bracket? r)

def seenAs? (r : Routine) (b : Block Number) : Option Bracket :=
  (command? r b).bind fun c => Bracket.seen? c.kind c.label (ownWord b)

def seenAs (r : Routine) (bs : List (Block Number)) : List Bracket := bs.filterMap (seenAs? r)

theorem listed_marks {r : Routine} {f : Flow} {i : Int} {bs : List (Block Number)}
    (h : ∀ b ∈ bs, ∀ c, command? r b = some c → commandWord f c = .ok (ownWord b)) :
    (∀ e ∈ listed r i bs, ∃ word, commandWord f e.2 = .ok word) ∧
      (listed r i bs).filterMap (fun e => mark? f e.2) = seenAs r bs := by
  induction bs generalizing i with
  | nil => exact ⟨by simp [listed], rfl⟩
  | cons b bs ih =>
    obtain ⟨hwords, hmarks⟩ := ih (i := i + 1) fun b' hb' => h b' (List.mem_cons_of_mem b hb')
    have hb := h b List.mem_cons_self
    rw [seenAs] at hmarks
    cases hc : command? r b with
    | none =>
      exact ⟨by simpa [listed, hc] using hwords, by simp [listed, hc, seenAs, seenAs?, hmarks]⟩
    | some c =>
      have hword := hb c hc
      have hmark : mark? f c = seenAs? r b := by simp [mark?, hword, seenAs?, hc]
      refine ⟨?_, ?_⟩
      · intro e he
        simp only [listed, hc, Option.map_some, Option.toList_some, List.cons_append,
          List.nil_append, List.mem_cons] at he
        rcases he with rfl | he
        · exact ⟨_, hword⟩
        · exact hwords e he
      · simp [listed, hc, seenAs, hmark, hmarks, List.filterMap_cons]

/-- A block that knows its position leads back to its own word. -/
theorem commandWord_at {r : Routine} {f : Flow} {i : Nat} {b : Block Number} {c : Command}
    (hi : f.blocks[i]? = some b) (hline : b.line = i) (hc : command? r b = some c) :
    commandWord f c = .ok (ownWord b) := by
  obtain ⟨-, hat, oWord, name, word, rest, ho, hparts⟩ := command?_some hc
  have hlt : i < f.blocks.size := (Array.getElem?_eq_some_iff.mp hi).1
  have hnat : ¬ (i : Int) < 0 := by omega
  have hblock : f.blockAt? c.line = some b := by
    rw [hat, hline]
    simpa [blockAt?, hnat] using hi
  have hin : c.line < f.blocks.size := by
    rw [hat, hline]
    omega
  simp only [commandWord, if_pos hin, hblock, ho, hparts, ownWord, Option.map_some]

theorem commandWord_own {blocks : Array (Block Number)} {r : Routine} {f : Flow}
    (hline : ∀ (i : Nat) b, blocks[i]? = some b → b.line = i) (hf : f.blocks = blocks) :
    ∀ b ∈ blocks.toList, ∀ c, command? r b = some c → commandWord f c = .ok (ownWord b) := by
  intro b hb c hc
  obtain ⟨i, hi⟩ := List.mem_iff_getElem?.mp hb
  rw [Array.getElem?_toList] at hi
  exact commandWord_at (hf ▸ hi) (hline i b hi) hc

theorem prepare_of_readFrom {blocks : Array (Block Number)} {r r' : Routine}
    (h : readFrom 0 blocks.toList (takeUp blocks r) = (r', .ok ())) :
    prepare blocks r = check r' := by
  unfold takeUp at h
  simp only [prepare, h]

/-- Taking in a program lists its commands and checks them. -/
theorem prepare_eq_check {blocks : Array (Block Number)} {r : Routine}
    (hread : ∀ b ∈ blocks.toList, (readCommand b r).2.isOk = true) :
    ∃ ds, (∀ d ∈ ds, Diagnostic.isStructural d = false) ∧
      prepare blocks r =
        check ⟨{ r.flow with
          blocks, commands := ⟨listed r 0 blocks.toList⟩, subroutines := .empty },
          r.parameters, r.reports ++ ds⟩ := by
  have hsame : (takeUp blocks r).parameters = r.parameters := rfl
  have hread' : ∀ b ∈ blocks.toList, (readCommand b (takeUp blocks r)).2.isOk = true := by
    intro b hb
    rw [readCommand_congr hsame]
    exact hread b hb
  obtain ⟨ds, hds, hlisted⟩ := readFrom_listed (i := 0) hread' (by simp [takeUp, Table.empty])
  rw [listed_congr hsame] at hlisted
  exact ⟨ds, hds, prepare_of_readFrom hlisted⟩

/-- What taking in a program comes to: the commands are listed, no subroutine is defined, and the
program is accepted if and only if what its commands are taken for is a balanced word. Else one
report says so. -/
theorem prepare_cases {blocks : Array (Block Number)} {r : Routine}
    (hline : ∀ (i : Nat) b, blocks[i]? = some b → b.line = i)
    (hread : ∀ b ∈ blocks.toList, (readCommand b r).2.isOk = true) :
    ∃ verdict added, prepare blocks r =
        (⟨{ r.flow with blocks, commands := ⟨listed r 0 blocks.toList⟩, subroutines := .empty },
          r.parameters, r.reports ++ added⟩, .ok verdict) ∧
      (verdict = true ↔ Balanced (seenAs r blocks.toList)) ∧
      (added.filter Diagnostic.isStructural).length = if verdict then 0 else 1 := by
  obtain ⟨ds, hds, hprepare⟩ := prepare_eq_check hread
  let f : Flow :=
    { r.flow with blocks, commands := ⟨listed r 0 blocks.toList⟩, subroutines := .empty }
  obtain ⟨hwords, hmarks⟩ := listed_marks (i := 0) (commandWord_own (f := f) (r := r) hline rfl)
  have hquiet : ds.filter Diagnostic.isStructural = [] :=
    List.filter_eq_nil_iff.mpr (by simpa using hds)
  have hcases := checkFrom_cases [] hwords
  rw [hmarks] at hcases
  rw [hprepare, check]
  rcases hcases with ⟨hbalanced, hcheck⟩ | ⟨hunbalanced, d, hd, hcheck⟩
  · refine ⟨true, ds, ?_, by simpa [Closing] using hbalanced, by simp [hquiet]⟩
    simp only [f] at hcheck ⊢
    simp [hcheck]
  · refine ⟨false, ds ++ [d], ?_, by simpa [Closing] using hunbalanced, by simp [hquiet, hd]⟩
    simp only [f] at hcheck ⊢
    simp [hcheck]

variable {r : Routine} {bs : List (Block Number)} {blocks : Array (Block Number)}

theorem seenAs?_cases {b : Block Number} {c : Command} (hc : command? r b = some c) :
    (c.kind = .sub → seenAs? r b = some (.opens .sub c.label) ∧
      (bracket? r b = some (.opens .sub c.label) ∨ bracket? r b = some (.closes .sub c.label))) ∧
    (c.kind ≠ .sub → seenAs? r b = bracket? r b ∧ ∀ x ∈ bracket? r b, x.kind ≠ .sub) := by
  have h := seen?_of_kind? (command?_some hc).1 c.label
  simp only [seenAs?, bracket?, hc, Option.bind_some]
  exact h

/-- Without subroutines the commands are taken for what they are. -/
theorem seenAs_eq_brackets (h : ∀ b ∈ bs, ∀ c ∈ command? r b, c.kind ≠ .sub) :
    seenAs r bs = brackets r bs := by
  apply List.filterMap_congr
  intro b hb
  cases hc : command? r b with
  | none => simp [seenAs?, bracket?, hc]
  | some c => exact ((seenAs?_cases hc).2 (h b hb c hc)).1

/-- With one there is no balance: it is opened, by either of its words, and never closed. -/
theorem not_sub_of_balanced (h : Balanced (seenAs r bs)) :
    ∀ b ∈ bs, ∀ c ∈ command? r b, c.kind ≠ .sub := by
  intro b hb c hc hsub
  have hopens : Bracket.opens .sub c.label ∈ seenAs r bs :=
    List.mem_filterMap.mpr ⟨b, hb, ((seenAs?_cases hc).1 hsub).1⟩
  have hcloses : Bracket.closes .sub c.label ∈ seenAs r bs := by
    rw [← List.count_pos_iff, h.count] at hopens
    exact List.count_pos_iff.mp hopens
  obtain ⟨b', -, hb'⟩ := List.mem_filterMap.mp hcloses
  obtain ⟨c', hc', hseen⟩ := Option.bind_eq_some_iff.mp hb'
  obtain ⟨s, -, hrole⟩ := Option.bind_eq_some_iff.mp hseen
  split at hrole
  · cases hrole
  · rename_i hs
    simp only [Option.some.injEq, Bracket.closes.injEq] at hrole
    obtain ⟨rfl, -⟩ := hrole
    exact role_sub_ne_closes _ hs
  · cases hrole

/-- A well-nested program is taken for one if and only if it has no subroutine. -/
theorem balanced_seenAs_iff (h : Balanced (brackets r bs)) :
    Balanced (seenAs r bs) ↔ ∀ label, .opens .sub label ∉ brackets r bs := by
  constructor
  · intro hseen label hmem
    obtain ⟨b, hb, hx⟩ := List.mem_filterMap.mp hmem
    obtain ⟨c, hc, -⟩ := Option.bind_eq_some_iff.mp hx
    exact ((seenAs?_cases hc).2 (not_sub_of_balanced hseen b hb c hc)).2 _ hx rfl
  · intro hnone
    -- the closing word alone would not be well nested, so there is no command about a subroutine at
    -- all
    have hkinds : ∀ b ∈ bs, ∀ c ∈ command? r b, c.kind ≠ .sub := by
      intro b hb c hc hsub
      rcases ((seenAs?_cases hc).1 hsub).2 with hopens | hcloses
      · exact hnone c.label (List.mem_filterMap.mpr ⟨b, hb, hopens⟩)
      · have hmem : .closes .sub c.label ∈ brackets r bs := List.mem_filterMap.mpr ⟨b, hb, hcloses⟩
        rw [← List.count_pos_iff, ← h.count] at hmem
        exact hnone c.label (List.count_pos_iff.mp hmem)
    rw [seenAs_eq_brackets hkinds]
    exact h

/-- A program without subroutines, whose blocks know their positions, is accepted if and only if its
commands are well nested. If it is refused, one report on the structure says so. -/
theorem prepare_balanced_iff (hline : ∀ (i : Nat) b, blocks[i]? = some b → b.line = i)
    (hread : ∀ b ∈ blocks.toList, (readCommand b r).2.isOk = true)
    (hkinds : ∀ b ∈ blocks.toList, ∀ c ∈ command? r b, c.kind ≠ .sub) :
    ∃ verdict added, (prepare blocks r).2 = .ok verdict ∧
      (prepare blocks r).1.reports = r.reports ++ added ∧
      (verdict = true ↔ Balanced (brackets r blocks.toList)) ∧
      (added.filter Diagnostic.isStructural).length = if verdict then 0 else 1 := by
  obtain ⟨verdict, added, hprepare, hiff, hone⟩ := prepare_cases hline hread
  rw [seenAs_eq_brackets hkinds] at hiff
  exact ⟨verdict, added, by rw [hprepare], by rw [hprepare], hiff, hone⟩

end

def nestedWords : List (Option String) :=
  [some "O1 if [1]", none, some "O2 while [#1]", some "O2 break", some "O2 endwhile",
    some "O1 else", some "O3 repeat", some "odd", some "O3 endrepeat", some "O01 endif"]

def crossedWords : List (Option String) :=
  [some "O1 if [1]", some "O2 repeat", some "O1 endif", some "O2 endrepeat"]

theorem nested_crossed_read :
    (∀ b ∈ (program nestedWords).toList, (readCommand b .initial).2.isOk = true) ∧
    (∀ b ∈ (program nestedWords).toList, ∀ c ∈ command? .initial b, c.kind ≠ .sub) ∧
    Balanced (brackets .initial (program nestedWords).toList) ∧
    (∀ b ∈ (program crossedWords).toList, (readCommand b .initial).2.isOk = true) ∧
    (∀ b ∈ (program crossedWords).toList, ∀ c ∈ command? .initial b, c.kind ≠ .sub) ∧
    ¬ Balanced (brackets .initial (program crossedWords).toList) := by
  decide +kernel

/-- The first program is accepted. The second is refused, with a single report on its structure. -/
theorem prepare_balanced_iff_crossed :
    (prepare (program nestedWords) .initial).2 = .ok true ∧
    (prepare (program crossedWords) .initial).2 = .ok false ∧
    ((prepare (program crossedWords) .initial).1.reports.filter Diagnostic.isStructural).length =
      1 := by
  obtain ⟨hread, hkinds, hnested, hread', hkinds', hcrossed⟩ := nested_crossed_read
  obtain ⟨verdict, -, hverdict, -, hiff, -⟩ :=
    prepare_balanced_iff (program_line nestedWords) hread hkinds
  obtain ⟨verdict', added, hverdict', hadded, hiff', hone⟩ :=
    prepare_balanced_iff (program_line crossedWords) hread' hkinds'
  have hfalse : verdict' = false := by
    rw [← Bool.not_eq_true, hiff']
    exact hcrossed
  subst hfalse
  rw [hiff.mpr hnested] at hverdict
  exact ⟨hverdict, hverdict', by rw [hadded]; exact hone⟩

section
variable [Evaluator] {r : Routine} {bs : List (Block Number)} {blocks : Array (Block Number)}

def StandsAt (r : Routine) (bs : List (Block Number)) (x : Bracket) (i : Int) : Prop :=
  ∃ (k : Nat) (b : Block Number), bs[k]? = some b ∧ i = k ∧ bracket? r b = some x

theorem StandsAt.mem {x : Bracket} {i : Int} (h : StandsAt r bs x i) : x ∈ brackets r bs := by
  obtain ⟨k, b, hb, -, hx⟩ := h
  exact List.mem_filterMap.mpr ⟨b, List.mem_of_getElem? hb, hx⟩

/-- A program is accepted with its subroutines: each is defined from its opening to its closing
command, nothing else is, and calls lead behind the opening command. -/
structure Registers (r : Routine) (blocks : Array (Block Number)) : Prop where
  accepted : (prepare blocks r).2 = .ok true
  defined : ∀ label first last, (prepare blocks r).1.flow.subroutines.get? label =
    some ⟨first, last⟩ ↔
    StandsAt r blocks.toList (.opens .sub label) first ∧
    StandsAt r blocks.toList (.closes .sub label) last
  called : ∀ i first, ∀ c ∈ (prepare blocks r).1.flow.commands.get? i, c.kind = .call →
    StandsAt r blocks.toList (.opens .sub c.label) first →
    (execute i (prepare blocks r).1).2 = .ok (some (first + 1))

/-- A call without a subroutine leads nowhere and is reported. -/
theorem execute_undefined {i : Int} {c : Command} (h : r.flow.subroutines = .empty)
    (hc : r.flow.commands.get? i = some c) (hcall : c.kind = .call) :
    execute i r =
      (({ r with flow := { r.flow with line := i } } : Routine).report
        (.onLine c.line .runtime s!"Undefined subroutine: O{c.label.text}"), .ok none) := by
  have hnone : r.flow.subroutines.get? c.label = none := by
    rw [h]
    rfl
  simp only [execute, hc, perform, hcall, call, hnone]
  rfl

/-- A well-nested program, whose blocks know their positions, is accepted with its subroutines if
and only if it has none: no subroutine is ever defined. With one the program is refused, by one
report on the structure, and calls are reported as undefined. -/
theorem registers_iff (hline : ∀ (i : Nat) b, blocks[i]? = some b → b.line = i)
    (hread : ∀ b ∈ blocks.toList, (readCommand b r).2.isOk = true)
    (hnested : Balanced (brackets r blocks.toList)) :
    (Registers r blocks ↔ ∀ label, .opens .sub label ∉ brackets r blocks.toList) ∧
    (prepare blocks r).1.flow.subroutines = .empty ∧
    (∀ label, .opens .sub label ∈ brackets r blocks.toList →
      (prepare blocks r).2 = .ok false ∧ ∃ added, (prepare blocks r).1.reports =
        r.reports ++ added ∧
        (added.filter Diagnostic.isStructural).length = 1) ∧
    ∀ i, ∀ c ∈ (prepare blocks r).1.flow.commands.get? i, c.kind = .call →
      (execute i (prepare blocks r).1).2 = .ok none ∧
      (execute i (prepare blocks r).1).1.reports = (prepare blocks r).1.reports ++
        [.onLine c.line .runtime s!"Undefined subroutine: O{c.label.text}"] := by
  obtain ⟨verdict, added, hprepare, hiff, hone⟩ := prepare_cases hline hread
  have hempty : (prepare blocks r).1.flow.subroutines = .empty := by rw [hprepare]
  rw [balanced_seenAs_iff hnested] at hiff
  refine ⟨⟨?_, ?_⟩, hempty, ?_, ?_⟩
  · rintro ⟨haccepted, -, -⟩
    rw [hprepare] at haccepted
    exact hiff.mp (Except.ok.inj haccepted)
  · intro hnone
    refine ⟨by rw [hprepare, hiff.mpr
      hnone], fun label first last => ?_, fun i first c _ _ hstands => ?_⟩
    · rw [hempty]
      exact ⟨nofun, fun hstands => absurd hstands.1.mem (hnone label)⟩
    · exact absurd hstands.mem (hnone c.label)
  · intro label hmem
    have hfalse : verdict = false := by
      rw [← Bool.not_eq_true, hiff]
      exact fun hnone => hnone label hmem
    subst hfalse
    exact ⟨by rw [hprepare], added, by rw [hprepare], hone⟩
  · intro i c hc hcall
    rw [execute_undefined hempty hc hcall]
    exact ⟨rfl, rfl⟩

end

def subroutineWords : List (Option String) :=
  [some "O100 sub", none, some "O100 endsub", some "O100 call"]

theorem subroutine_read :
    (∀ b ∈ (program subroutineWords).toList, (readCommand b .initial).2.isOk = true) ∧
    Balanced (brackets .initial (program subroutineWords).toList) ∧
    .opens .sub (.number 100) ∈ brackets .initial (program subroutineWords).toList ∧
    ((prepare (program subroutineWords) .initial).1.flow.commands.get? 3).map Command.kind =
      some .call := by
  decide +kernel

/-- This program is refused, and the call leads nowhere. -/
theorem registers_iff_subroutine :
    ¬ Registers .initial (program subroutineWords) ∧
    (prepare (program subroutineWords) .initial).2 = .ok false ∧
    (execute 3 (prepare (program subroutineWords) .initial).1).2 = .ok none := by
  obtain ⟨hread, hnested, hopens, hcall⟩ := subroutine_read
  obtain ⟨c, hc, hkind⟩ := Option.map_eq_some_iff.mp hcall
  obtain ⟨hiff, -, hrefused, hundefined⟩ :=
    registers_iff (program_line subroutineWords) hread hnested
  exact ⟨fun h => hiff.mp h _ hopens, (hrefused _ hopens).1, (hundefined 3 c hc hkind).1⟩

end Flow
end Machining
