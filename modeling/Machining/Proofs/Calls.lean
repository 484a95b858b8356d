import Machining.Proofs.OperatorWords
import Machining.Proofs.Passes
import Machining.Proofs.WholeNear

namespace Machining

def Number.IsFinite : Number → Prop
  | int _ => True
  | float x => x.isFinite = true
  | missing => False

namespace Expression
open Machining.Decimal Machining.Binary64

variable {g : Function} {cs rest s post : List Char} {vars : Bindings} {line : Int}
    {r : Number} {x z : Float}

theorem evaluateClosed_finite (h : g.apply x = .ok r) (hr : r.IsFinite) (hz : r.toFloat = .ok z) :
    evaluateClosed r.text.toList = .ok z := by
  have hreads : ReadsAs r.text.toList z := by
    rcases Function.apply_cases h with ⟨y, rfl⟩ | ⟨n, rfl, hn⟩
    · obtain rfl := Except.ok.inj hz
      exact readsAs_text (Number.exact_float hr)
    · refine readsAs_int ?_ hz
      exact (natDigits_length_le (by decide) (hn.trans_lt largest_lt)).trans (by decide)
  rw [evaluateClosed_eq hreads.within, hreads.value]

/-- What is not finite is written as a word that nothing is called. -/
theorem evaluateClosed_not_finite (h : g.apply x = .ok r) (hr : ¬ r.IsFinite) :
    ∃ f, evaluateClosed r.text.toList = .error f := by
  have hwords : ["nan", "-inf", "inf"].all (fun w => !(evaluateClosed w.toList).toBool) = true := by
    decide +kernel
  rcases Function.apply_cases h with ⟨y, rfl⟩ | ⟨n, rfl, -⟩
  · have hfails := List.all_eq_true.mp hwords _ (text_not_finite (Bool.eq_false_iff.mpr hr))
    cases hresult : evaluateClosed (Number.float y).text.toList with
    | error f => exact ⟨f, rfl⟩
    | ok z =>
      rw [hresult] at hfails
      cases hfails
  · exact absurd trivial hr

theorem exists_toFloat (h : g.apply x = .ok r) : ∃ z, r.toFloat = .ok z := by
  rcases Function.apply_cases h with ⟨y, rfl⟩ | ⟨n, rfl, hn⟩
  · exact ⟨y, rfl⟩
  · exact toFloat_whole hn

def Apart (cs : List Char) : Prop := ∀ c ∈ cs, c ≠ '#' ∧ c ≠ '>' ∧ Text.isDigit c = false

theorem takeWhile_append_none {q : Char → Bool} (h : ∀ c ∈ post, q c = false) :
    (cs ++ post).takeWhile q = cs.takeWhile q := by
  induction cs with
  | nil =>
    cases post with
    | nil => rfl
    | cons c post => simp [h c List.mem_cons_self]
  | cons c cs ih => rw [List.cons_append, List.takeWhile_cons, List.takeWhile_cons, ih]

/-- A name in angle brackets that are not closed is no reference. -/
theorem referenceAt?_open (h : '>' ∉ rest) : referenceAt? ('<' :: rest) = none := by
  have hopen : rest.dropWhile (fun c => decide (c ≠ '>')) = [] := by
    rw [List.dropWhile_eq_nil_iff]
    intro c hc
    simpa using fun heq : c = '>' => h (heq ▸ hc)
  have hdigits : ('<' :: rest).takeWhile Text.isDigit = [] := List.takeWhile_cons_of_neg (by decide)
  simp only [referenceAt?, hdigits, hopen]
  simp

/-- What starts with no angle bracket is a reference by its digits. -/
theorem referenceAt?_digits (h : ¬ ∃ rest, cs = '<' :: rest) : referenceAt? cs =
    if (cs.takeWhile Text.isDigit).isEmpty then none
    else some (cs.takeWhile Text.isDigit, (cs.takeWhile Text.isDigit).length) := by
  unfold referenceAt?
  simp only
  split
  · split
    · exact absurd ⟨_, rfl⟩ h
    · rfl
  · rfl

theorem referenceAt?_append (h : Apart post) : referenceAt? (cs ++ post) = referenceAt? cs := by
  have hdigits : (cs ++ post).takeWhile Text.isDigit = cs.takeWhile Text.isDigit :=
    takeWhile_append_none fun c hc => (h c hc).2.2
  have hclose : '>' ∉ post := fun hmem => (h _ hmem).2.1 rfl
  by_cases hstart : ∃ tail, cs ++ post = '<' :: tail
  · cases cs with
    | nil =>
      obtain ⟨tail, rfl⟩ := hstart
      exact referenceAt?_open fun hmem => hclose (List.mem_cons_of_mem _ hmem)
    | cons c cs =>
      obtain ⟨tail, heq⟩ := hstart
      obtain ⟨rfl, -⟩ := List.cons.inj heq
      by_cases hmem : '>' ∈ cs
      · obtain ⟨name, tail, rfl, hname⟩ := List.eq_append_cons_of_mem hmem
        obtain ⟨htake, hdrop⟩ := takeWhile_ne hname tail
        obtain ⟨htake', hdrop'⟩ := takeWhile_ne hname (tail ++ post)
        have hnone (rest : List Char) : ('<' :: rest).takeWhile Text.isDigit = [] :=
          List.takeWhile_cons_of_neg (by decide)
        unfold referenceAt?
        simp only [hnone, List.cons_append, List.append_assoc, htake, hdrop, htake', hdrop',
          List.isEmpty_cons]
      · rw [List.cons_append, referenceAt?_open hmem,
          referenceAt?_open (List.not_mem_append hmem hclose)]
  · have hplain : ¬ ∃ tail, cs = '<' :: tail := by
      intro hcs
      obtain ⟨tail, rfl⟩ := hcs
      exact hstart ⟨tail ++ post, rfl⟩
    rw [referenceAt?_digits hstart, referenceAt?_digits hplain, hdigits]

theorem referenceAt?_size {name : List Char} {size : Nat}
    (h : referenceAt? cs = some (name, size)) : size ≤ cs.length := by
  unfold referenceAt? at h
  simp only at h
  split at h
  · split at h
    · split at h
      · cases h
      · rename_i rest _ hname
        obtain ⟨-, rfl⟩ := Prod.mk.inj (Option.some.inj h)
        rw [Bool.or_eq_true, not_or, List.isEmpty_iff, List.isEmpty_iff] at hname
        have hsplit :=
          congrArg List.length (List.takeWhile_append_dropWhile
            (p := fun c => decide (c ≠ '>')) (l := rest))
        have hpos := List.length_pos_of_ne_nil hname.2
        rw [List.length_append] at hsplit
        rw [List.length_cons]
        omega
    · cases h
  · obtain ⟨-, rfl⟩ := Prod.mk.inj (Option.some.inj h)
    have hdigits := List.takeWhile_prefix (l := cs) Text.isDigit
    exact hdigits.length_le

theorem substituteFrom_append (h : Apart post) :
    substituteFrom vars line 0 (cs ++ post) =
      ((substituteFrom vars line 0 cs).1 ++ post, (substituteFrom vars line 0 cs).2) := by
  induction hlength : cs.length using Nat.strong_induction_on generalizing cs with
  | _ length ih =>
    cases cs with
    | nil =>
      have hplain : substituteFrom vars line 0 (post ++ []) = (post ++ [], []) :=
        substituteFrom_plain fun hmem => (h _ hmem).1 rfl
      rw [List.append_nil] at hplain
      exact hplain
    | cons c cs =>
      rw [List.length_cons] at hlength
      rw [List.cons_append, substituteFrom, substituteFrom, referenceAt?_append h]
      cases hat : (if c = '#' then referenceAt? cs else none) with
      | none =>
        simp only [ih cs.length (by omega) rfl, List.cons_append]
      | some found =>
        obtain ⟨name, size⟩ := found
        have hsize : size ≤ cs.length := by
          split at hat
          · exact referenceAt?_size hat
          · cases hat
        have hshort : (cs.drop size).length < length := by
          rw [List.length_drop]
          omega
        simp only [substituteFrom_skip size, List.take_append_of_le_length hsize,
          List.drop_append_of_le_length hsize, ih _ hshort rfl, List.append_assoc]

def Function.callText (g : Function) (argument : List Char) : List Char :=
  (Call.mk g.name.toList argument).text

theorem Function.callText_closing (g : Function) (a b : List Char) :
    g.callText (a ++ ']' :: b) = g.callText a ++ (b ++ [']']) := by
  simp [Function.callText, Call.text]

theorem Function.name_small (g : Function) :
    g.name.toList ≠ [] ∧ ∀ c ∈ g.name.toList, c.isLower = true := by
  have hall : Function.all.all (fun g => !g.name.toList.isEmpty && g.name.toList.all Char.isLower) =
      true := by
    decide +kernel
  have hg := List.all_eq_true.mp hall g (by cases g <;> decide)
  rw [Bool.and_eq_true, Bool.not_eq_true', List.isEmpty_eq_false_iff, List.all_eq_true] at hg
  exact hg

theorem isBlank_of_isLower {c : Char} (h : c.isLower = true) : Text.isBlank c = false := by
  simp only [Char.isLower, Bool.and_eq_true, decide_eq_true_eq] at h
  have hlow : 97 ≤ c.toNat := UInt32.le_iff_toNat_le.mp h.1
  have hhigh : c.toNat ≤ 122 := UInt32.le_iff_toNat_le.mp h.2
  simp only [Text.isBlank, Bool.or_eq_false_iff, Bool.and_eq_false_iff, decide_eq_false_iff_not]
  omega

/-- Calling a function on an expression replaces the variables of the expression. -/
theorem evaluate_call (g : Function) (e : String) (vars : Bindings) (line : Int) :
    (evaluate (g.name ++ "[" ++ e ++ "]") vars line).result =
      evaluateClosed (g.callText (substitute vars line e.toList).1) := by
  obtain ⟨hne, hsmall⟩ := g.name_small
  have htext : (g.name ++ "[" ++ e ++ "]").toList = g.name.toList ++ ['['] ++
      (e.toList ++ [']']) := by
    simp [String.toList_append]
  have htrim : Text.trim (g.name.toList ++ ['['] ++ (e.toList ++ [']'])) =
      g.name.toList ++ ['['] ++ (e.toList ++ [']']) := by
    apply Text.trim_solid
    · obtain ⟨c, tail, hname⟩ := List.exists_cons_of_ne_nil hne
      exact ⟨c, tail ++ ['['] ++ (e.toList ++ [']']), by simp [hname],
        isBlank_of_isLower (hsmall c (by rw [hname]; exact List.mem_cons_self))⟩
    · exact ⟨g.name.toList ++ ['['] ++ e.toList, ']', by simp, by decide⟩
  have hhash : '#' ∉ g.name.toList ++ ['['] := by
    intro hmem
    rcases List.mem_append.mp hmem with hmem | hmem
    · cases hsmall _ hmem
    · simp at hmem
  have hclose : Apart [']'] := by simp [Apart]; decide
  have hsubstitute : (substitute vars line (g.name.toList ++ ['['] ++ (e.toList ++ [']']))).1 =
      g.callText (substitute vars line e.toList).1 := by
    rw [substitute, substituteFrom_plain hhash, substituteFrom_append hclose]
    simp [Function.callText, Call.text, substitute]
  unfold evaluate
  simp only [htext, htrim]
  rw [if_neg (by simp)]
  exact congrArg evaluateClosed hsubstitute

theorem ofName?_name (g : Function) : Function.ofName? g.name.toList = some g := by cases g <;> rfl

/-- The text of a call is due for a pass. -/
theorem pending_callText (g : Function) (s rest : List Char) :
    pending (g.callText s ++ rest) = true := by
  rw [pending_iff]
  refine ⟨by simp [Function.callText, Call.text], g, ?_⟩
  exact ⟨[], '[' :: s ++ [']'] ++ rest, by simp [Function.callText, Call.text]⟩

/-- What the first pass over the call of a function comes to. -/
theorem replaceFunctions_call (hclose : ']' ∉ s) (hne : s ≠ []) (rest : List Char) :
    replaceFunctions (g.callText s ++ rest) = (do
      let y ← evaluateInfix s
      let r ← g.apply y
      let rest ← pass rest
      replaceFunctions (r.text.toList ++ rest)) := by
  obtain ⟨hname, hsmall⟩ := g.name_small
  have hcall : (Call.mk g.name.toList s).WellFormed := ⟨hname, hsmall, hne, hclose⟩
  have hvalue : Evaluator.value s = evaluateInfix s := rfl
  rw [replaceFunctions, settle_due (pending_callText g s rest), Function.callText, pass_call hcall,
    Call.replacement, ofName?_name]
  simp only [bind, Except.bind, pure, Except.pure, hvalue]
  cases evaluateInfix s with
  | error f => rfl
  | ok y =>
    simp only
    cases g.apply y with
    | error f => rfl
    | ok r =>
      simp only
      cases hrest : pass rest with
      | error f => rfl
      | ok rest' =>
        -- the result has no bracket, and the rest no more than before
        apply settle_eq_replaceFunctions
        have hless : rest'.count '[' ≤ rest.count '[' := by
          rcases pass_count hrest with rfl | hless
          · exact le_rfl
          · exact hless.le
        have hpos := Call.count_text_pos ⟨g.name.toList, s⟩
        rw [List.count_append, List.count_append, List.count_eq_zero.mpr (bracket_not_mem_text r)]
        omega

/-- The argument of a call is evaluated as it stands, and what follows is read behind the written
result. -/
theorem evaluateClosed_call (hclose : ']' ∉ s) (hne : s ≠ []) (rest : List Char) :
    evaluateClosed (g.callText s ++ rest) = (do
      let y ← evaluateInfix s
      let r ← g.apply y
      let rest ← pass rest
      evaluateClosed (r.text.toList ++ rest)) := by
  rw [evaluateClosed, replaceFunctions_call hclose hne]
  simp only [bind, Except.bind]
  cases evaluateInfix s with
  | error f => rfl
  | ok y =>
    simp only
    cases g.apply y with
    | error f => rfl
    | ok r =>
      simp only
      cases pass rest <;> rfl

theorem evaluateClosed_call_nil : evaluateClosed (g.callText []) = .error .endless := by
  have hendless : replaceFunctions (g.callText []) = .error .endless := by cases g <;> rfl
  rw [evaluateClosed, hendless]
  rfl

theorem callAt?_closing (h : '[' ∉ cs) : callAt? (cs ++ ']' :: rest) = none := by
  cases hat : callAt? (cs ++ ']' :: rest) with
  | none => rfl
  | some call =>
    obtain ⟨hcall, tail, heq⟩ := wellFormed_of_callAt? hat
    rw [Call.text_append] at heq
    exfalso
    rcases List.append_eq_append_iff.mp heq with ⟨more, hname, htail⟩ | ⟨more, hcs, htail⟩
    · -- the name would reach the closing bracket
      cases more with
      | nil => cases (List.cons.inj htail).1
      | cons c more =>
        obtain ⟨rfl, -⟩ := List.cons.inj htail
        cases hcall.small ']' (by rw [hname]; simp)
    · cases more with
      | nil => cases (List.cons.inj htail).1
      | cons c more =>
        obtain ⟨rfl, -⟩ := List.cons.inj htail
        exact h (by rw [hcs]; simp)

/-- Text before a closing bracket that no other one opens stays. -/
theorem pass_closing {ds : List Char} (h : '[' ∉ cs) (hpass : pass (cs ++ ']' :: rest) = .ok ds) :
    ∃ rest', ds = cs ++ ']' :: rest' := by
  induction cs generalizing ds with
  | nil =>
    obtain ⟨rest', -, rfl⟩ := pass_cons_ok (callAt?_closing h) hpass
    exact ⟨rest', rfl⟩
  | cons c cs ih =>
    obtain ⟨ts, hts, rfl⟩ := pass_cons_ok (callAt?_closing h) hpass
    obtain ⟨rest', rfl⟩ := ih (fun hmem => h (List.mem_cons_of_mem _ hmem)) hts
    exact ⟨rest', rfl⟩

theorem settle_closing {ds : List Char} {fuel : Nat} (h : '[' ∉ cs)
    (hsettle : settle fuel (cs ++ ']' :: rest) = .ok ds) : ∃ rest', ds = cs ++ ']' :: rest' := by
  induction fuel generalizing rest with
  | zero =>
    rw [settle] at hsettle
    split at hsettle
    · cases hsettle
    · exact ⟨rest, (Except.ok.inj hsettle).symm⟩
  | succ fuel ih =>
    rw [settle] at hsettle
    split at hsettle
    · cases hpass : pass (cs ++ ']' :: rest) with
      | error f =>
        rw [hpass] at hsettle
        cases hsettle
      | ok ds' =>
        rw [hpass] at hsettle
        obtain ⟨rest', rfl⟩ := pass_closing h hpass
        exact ih hsettle
    · exact ⟨rest, (Except.ok.inj hsettle).symm⟩

theorem evaluateInfix_error {f : Fault} (h : Term.ofChars cs = .error f) :
    evaluateInfix cs = .error f := by
  rw [evaluateInfix, h]
  rfl

theorem evaluateClosed_replaced {ds : List Char} (h : replaceFunctions cs = .ok ds) :
    evaluateClosed cs = evaluateInfix (replaceOperators ds) := by
  rw [evaluateClosed, h]
  rfl

/-- What is read in the end, if the text of an expression evaluates. -/
theorem evaluateClosed_ok (h : evaluateClosed cs = .ok x) :
    ∃ ds t, replaceFunctions cs = .ok ds ∧ Term.ofChars (replaceOperators ds) = .ok t := by
  cases hds : replaceFunctions cs with
  | error f =>
    rw [evaluateClosed, hds] at h
    cases h
  | ok ds =>
    rw [evaluateClosed_replaced hds] at h
    cases ht : Term.ofChars (replaceOperators ds) with
    | error f =>
      rw [evaluateInfix_error ht] at h
      cases h
    | ok t => exact ⟨ds, t, rfl, ht⟩

/-- A text that evaluates opens a bracket before it closes one. -/
theorem opening_of_closing (h : evaluateClosed (cs ++ ']' :: rest) = .ok x) (hhash : '#' ∉ cs) :
    '[' ∈ cs := by
  by_contra hopen
  obtain ⟨ds, t, hds, ht⟩ := evaluateClosed_ok h
  obtain ⟨rest', rfl⟩ := settle_closing hopen hds
  have hclose := squaresClose_of_ofChars ht
  rw [replaceOperators_append (by decide)] at hclose
  refine not_squaresClose_closing ?_ ?_ hclose
  · exact not_mem_replaceOperators (fun op => by cases op <;> decide) hopen
  · exact not_mem_replaceOperators (fun op => by cases op <;> decide) hhash

theorem apart_of_isBlank (h : ∀ c ∈ post, Text.isBlank c = true) : Apart post := by
  intro c hc
  have hblank := h c hc
  refine ⟨?_, ?_, ?_⟩
  · rintro rfl
    cases hblank
  · rintro rfl
    cases hblank
  · rw [Bool.eq_false_iff]
    intro hdigit
    rw [Text.solid_of_class (.inl hdigit)] at hblank
    cases hblank

/-- The blanks around an expression stay as they are. -/
theorem substitute_trim (cs : List Char) (vars : Bindings) (line : Int) :
    ∃ pre post, (substitute vars line cs).1 = pre ++
      ((substitute vars line (Text.trim cs)).1 ++ post) ∧
      (∀ c ∈ pre, Text.isBlank c = true) ∧ ∀ c ∈ post, Text.isBlank c = true := by
  obtain ⟨pre, post, hsplit, -, hpre, hpost⟩ := Text.trim_split cs
  refine ⟨pre, post, ?_, hpre, hpost⟩
  have hhash : '#' ∉ pre := fun hmem => (apart_of_isBlank hpre _ hmem).1 rfl
  nth_rewrite 1 [hsplit]
  rw [List.append_assoc, substitute, substituteFrom_plain hhash,
    substituteFrom_append (apart_of_isBlank hpost)]
  rfl

theorem evaluate_result {e : String} (h : Text.trim e.toList ≠ []) :
    (evaluate e vars line).result = evaluateClosed
      (substitute vars line (Text.trim e.toList)).1 := by
  unfold evaluate
  simp only
  rw [if_neg (by simpa using h)]

/-- The text before the first closing bracket of an expression that evaluates has an opening one. -/
theorem opening_of_result {e : String} {a b : List Char}
    (hx : (evaluate e vars line).result = .ok x)
    (hs : (substitute vars line e.toList).1 = a ++ ']' :: b) (hclose : ']' ∉ a)
    (hhash : '#' ∉ a) : '[' ∈ a := by
  obtain ⟨pre, post, hsplit, hpre, hpost⟩ := substitute_trim e.toList vars line
  have hsolid {cs : List Char} (hcs : ∀ c ∈ cs, Text.isBlank c = true) : ']' ∉ cs := by
    intro hmem
    cases hcs _ hmem
  have hmem : ']' ∈ (substitute vars line (Text.trim e.toList)).1 := by
    have hall : ']' ∈ pre ++ ((substitute vars line (Text.trim e.toList)).1 ++ post) := by
      rw [← hsplit, hs]
      simp
    rcases List.mem_append.mp hall with hmem | hmem
    · exact absurd hmem (hsolid hpre)
    · rcases List.mem_append.mp hmem with hmem | hmem
      · exact hmem
      · exact absurd hmem (hsolid hpost)
  have htrim : Text.trim e.toList ≠ [] := by
    intro hnone
    rw [hnone] at hmem
    cases hmem
  obtain ⟨core, behind, hcore, hfirst⟩ := List.eq_append_cons_of_mem hmem
  -- both splits are at the first closing bracket
  have ha : a = pre ++ core := by
    have hsame : a ++ ']' :: b = (pre ++ core) ++ ']' :: (behind ++ post) := by
      rw [← hs, hsplit, hcore]
      simp
    rw [← (takeWhile_ne hclose b).1, hsame,
      (takeWhile_ne (List.not_mem_append (hsolid hpre) hfirst) _).1]
  rw [evaluate_result htrim, hcore] at hx
  rw [ha] at hhash ⊢
  exact List.mem_append_right _
    (opening_of_closing hx fun hmem => hhash (List.mem_append_right _ hmem))

/-- A call within the argument of another makes it fail. -/
theorem evaluateClosed_nested {a b : List Char} (hclose : ']' ∉ a) (hhash : '#' ∉ a)
    (hopen : '[' ∈ a) : ∃ f, evaluateClosed (g.callText (a ++ ']' :: b)) = .error f := by
  have hargument : ∃ f, evaluateInfix a = .error f := by
    cases ha : Term.ofChars a with
    | error f => exact ⟨f, evaluateInfix_error ha⟩
    | ok t => exact absurd hopen ((squaresClose_of_ofChars ha).no_opening hclose hhash).2
  obtain ⟨f, hf⟩ := hargument
  refine ⟨f, ?_⟩
  rw [Function.callText_closing, evaluateClosed_call hclose (List.ne_nil_of_mem hopen), hf]
  rfl

/-- Without a closing bracket there is no call, and no replacing. -/
theorem pass_unclosed (h : ']' ∉ cs) : pass cs = .ok cs := by
  induction cs with
  | nil => rfl
  | cons c cs ih =>
    have hnone : callAt? (c :: cs) = none := by
      cases hat : callAt? (c :: cs) with
      | none => rfl
      | some call =>
        obtain ⟨-, tail, heq⟩ := wellFormed_of_callAt? hat
        exact absurd (by rw [heq, Call.text_append]; simp) h
    rw [pass_cons hnone, ih fun hmem => h (List.mem_cons_of_mem _ hmem)]
    rfl

theorem replaceFunctions_unclosed {ds : List Char} (h : ']' ∉ cs)
    (hds : replaceFunctions cs = .ok ds) : ds = cs := by
  cases hdue : pending cs with
  | false =>
    rw [replaceFunctions, settle, hdue] at hds
    exact (Except.ok.inj hds).symm
  | true =>
    obtain ⟨hbracket, hname⟩ := pending_iff.mp hdue
    have hstuck : Stuck cs := ⟨hbracket, hname, pass_unclosed h⟩
    rw [replaceFunctions, hstuck.settle] at hds
    cases hds

def Trimmed (e : String) : Prop := e ≠ "" ∧ Text.trim e.toList = e.toList

/-- An expression without calls stands for the number that its text does once the operators are
replaced. -/
theorem evaluateInfix_of_result {e : String} (he : Trimmed e)
    (hclose : ']' ∉ (substitute vars line e.toList).1)
    (hx : (evaluate e vars line).result = .ok x) :
    evaluateInfix (replaceOperators (substitute vars line e.toList).1) = .ok x := by
  obtain ⟨hne, htrim⟩ := he
  have hsolid : Text.trim e.toList ≠ [] := by
    rw [htrim]
    simpa using hne
  rw [evaluate_result hsolid, htrim] at hx
  obtain ⟨ds, -, hds, -⟩ := evaluateClosed_ok hx
  rw [evaluateClosed_replaced hds, replaceFunctions_unclosed hclose hds] at hx
  exact hx

/-- What a function called on an expression evaluates to. -/
def Function.called (g : Function) (e : String) (vars : Bindings) (line : Int) :
    Except Fault Float :=
  (evaluate (g.name ++ "[" ++ e ++ "]") vars line).result

/-- A call gives what the function makes of the number that the text in its brackets stands for, if
that is finite. -/
theorem Function.called_iff {e : String} (hclose : ']' ∉ (substitute vars line e.toList).1) :
    g.called e vars line = .ok z ↔ ∃ y r, evaluateInfix (substitute vars line e.toList).1 = .ok y ∧
      g.apply y = .ok r ∧ r.IsFinite ∧ r.toFloat = .ok z := by
  rw [Function.called, evaluate_call]
  generalize (substitute vars line e.toList).1 = s at hclose ⊢
  cases s with
  | nil =>
    rw [evaluateClosed_call_nil]
    constructor
    · intro h
      cases h
    · intro h
      obtain ⟨y, r, hy, -⟩ := h
      cases hy
  | cons c s =>
    have hcall := evaluateClosed_call (g := g) hclose (by simp) []
    simp only [List.append_nil, pass, passFrom] at hcall
    rw [hcall]
    constructor
    · intro h
      obtain ⟨y, hy, h⟩ := bind_ok_iff.mp h
      obtain ⟨r, hr, h⟩ := bind_ok_iff.mp h
      obtain ⟨rest, hrest, h⟩ := bind_ok_iff.mp h
      rw [← Except.ok.inj hrest, List.append_nil] at h
      obtain ⟨z', hz'⟩ := exists_toFloat hr
      by_cases hfinite : r.IsFinite
      · rw [evaluateClosed_finite hr hfinite hz'] at h
        exact ⟨y, r, hy, hr, hfinite, by rw [hz', h]⟩
      · obtain ⟨f, hf⟩ := evaluateClosed_not_finite hr hfinite
        rw [hf] at h
        cases h
    · intro h
      obtain ⟨y, r, hy, hr, hfinite, hz⟩ := h
      simp only [hy, hr, bind, Except.bind, List.append_nil]
      exact evaluateClosed_finite hr hfinite hz

/-- A function called on an expression that evaluates. What the function makes of the value has a
nearest float. If the text in the brackets, its variables replaced, has no closing bracket, then the
call gives that float just if the text as it stands is one of a number of which the function makes
the same, something finite. It is so of every expression without operators that are spelled as
words: then the call succeeds just if the result is finite, and an operator that is spelled as a
word makes it fail. But a closing bracket in the text ends the argument. The call fails then, unless
the bracket is in a comment: what follows it is no comment any more, and is read behind the written
result. -/
theorem evaluate_call_iff (g : Function) (e : String) (vars : Bindings) (line : Int) {x : Float}
    {r : Number} (hx : (evaluate e vars line).result = .ok x) (hr : g.apply x = .ok r) :
    ∃ z, r.toFloat = .ok z ∧
      (']' ∉ (substitute vars line e.toList).1 →
        (g.called e vars line = .ok z ↔
          ∃ y r', evaluateInfix (substitute vars line e.toList).1 = .ok y ∧
          g.apply y = .ok r' ∧ r'.IsFinite ∧ r'.toFloat = .ok z) ∧
        (Trimmed e → replaceOperators (substitute vars line e.toList).1 =
          (substitute vars line e.toList).1 →
          (g.called e vars line = .ok z ↔ r.IsFinite)) ∧
        (Trimmed e → ∀ before op word behind,
          WordBetween before op word behind (substitute vars line e.toList).1 →
          ∃ f, g.called e vars line = .error f)) ∧
      ∀ a b, (substitute vars line e.toList).1 = a ++ ']' :: b → ']' ∉ a →
        ('#' ∉ a → ∃ f, g.called e vars line = .error f) ∧
        ('#' ∈ a → g.called e vars line = do
          let y ← evaluateInfix a
          let r' ← g.apply y
          let rest ← pass (b ++ [']'])
          evaluateClosed (r'.text.toList ++ rest)) := by
  obtain ⟨z, hz⟩ := exists_toFloat hr
  refine ⟨z, hz, fun hclose => ⟨Function.called_iff hclose, ?_, ?_⟩, ?_⟩
  · intro he hplain
    have hresult := evaluateInfix_of_result he hclose hx
    rw [hplain] at hresult
    rw [Function.called_iff hclose]
    constructor
    · intro h
      obtain ⟨y, r', hy, hr', hfinite, -⟩ := h
      obtain rfl := Except.ok.inj (hresult.symm.trans hy)
      obtain rfl := Except.ok.inj (hr.symm.trans hr')
      exact hfinite
    · intro hfinite
      exact ⟨x, r, hresult, hr, hfinite, hz⟩
  · intro he before op word behind hword
    have hread : ∃ t, Term.ofChars (replaceOperators (substitute vars line e.toList).1) =
        .ok t := by
      have hresult := evaluateInfix_of_result he hclose hx
      cases ht : Term.ofChars (replaceOperators (substitute vars line e.toList).1) with
      | error f =>
        rw [evaluateInfix_error ht] at hresult
        cases hresult
      | ok t => exact ⟨t, rfl⟩
    obtain ⟨t, ht⟩ := hread
    obtain ⟨f, hf⟩ := hword.unreadable ht
    cases hcalled : g.called e vars line with
    | error f => exact ⟨f, rfl⟩
    | ok z' =>
      obtain ⟨y, -, hy, -⟩ := (Function.called_iff hclose).mp hcalled
      rw [evaluateInfix_error hf] at hy
      cases hy
  · intro a b hs hclose
    rw [Function.called, evaluate_call, hs]
    refine ⟨fun hhash => ?_, fun hhash => ?_⟩
    · exact evaluateClosed_nested hclose hhash (opening_of_result hx hs hclose hhash)
    · rw [Function.callText_closing, evaluateClosed_call hclose (List.ne_nil_of_mem hhash)]

/-- Both `7 MOD 4` and `abs[-3]` are three, but the modulus of neither can be called for; that of
`-3` can. -/
theorem evaluate_call_iff_modulo :
    (evaluate "7 MOD 4" .empty 0).result = .ok 3.0 ∧
    (evaluate "abs[-3]" .empty 0).result = .ok 3.0 ∧
      Function.abs.apply 3.0 = .ok (.float 3.0) ∧
      (∃ f, Function.abs.called "7 MOD 4" .empty 0 = .error f) ∧
      (∃ f, Function.abs.called "abs[-3]" .empty 0 = .error f) ∧
      Function.abs.called "-3" .empty 0 = .ok 3.0 := by
  have hmodulo : (evaluate "7 MOD 4" .empty 0).result = .ok 3.0 := by decide +kernel
  have hcall : (evaluate "abs[-3]" .empty 0).result = .ok 3.0 := by decide +kernel
  have hminus : (evaluate "-3" .empty 0).result = .ok (-3.0) := by decide +kernel
  have habs : Function.abs.apply 3.0 = .ok (.float 3.0) := rfl
  have habs' : Function.abs.apply (-3.0) = .ok (.float 3.0) := rfl
  have hword : WordBetween ['7'] .mod ['M', 'O', 'D'] ['4']
      (substitute .empty 0 "7 MOD 4".toList).1 :=
    ⟨rfl, ⟨'7', [], rfl, rfl⟩, by simp [OneLine], rfl, rfl, by decide⟩
  obtain ⟨z, -, hunclosed, -⟩ := evaluate_call_iff .abs "7 MOD 4" .empty 0 hmodulo habs
  obtain ⟨z', -, -, hclosed⟩ := evaluate_call_iff .abs "abs[-3]" .empty 0 hcall habs
  obtain ⟨z'', hz, hplain, -⟩ := evaluate_call_iff .abs "-3" .empty 0 hminus habs'
  obtain rfl := Except.ok.inj hz
  refine ⟨hmodulo, hcall, habs, (hunclosed (by decide)).2.2 ⟨by decide, rfl⟩ _ _ _ _ hword, ?_, ?_⟩
  · exact (hclosed ['a', 'b', 's', '[', '-', '3'] [] rfl (by decide)).1 (by decide)
  · exact ((hplain (by decide)).2.1 ⟨by decide, rfl⟩ rfl).mpr rfl

/-- The comment ends with the argument, so that more is added up in the call than in the
expression. -/
example : (evaluate "1 # ] + 1 #" .empty 0).result = .ok 1.0 ∧
    Function.abs.called "1 # ] + 1 #" .empty 0 = .ok 2.0 := by
  decide +kernel

end Expression
end Machining
