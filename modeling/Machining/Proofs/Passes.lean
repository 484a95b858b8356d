import Machining.Proofs.LoneReference
import Machining.Proofs.Numeral

namespace Machining.Expression
open Machining.Decimal Machining.Binary64

variable {cs ds es rest : List Char} {call : Call} {n : Nat} {f : Fault}

structure Call.WellFormed (c : Call) : Prop where
  named : c.name ≠ []
  small : ∀ x ∈ c.name, x.isLower = true
  filled : c.argument ≠ []
  unclosed : ']' ∉ c.argument

theorem Call.text_append (c : Call) (rest : List Char) :
    c.text ++ rest = c.name ++ '[' :: (c.argument ++ ']' :: rest) := by
  simp [Call.text]

theorem Call.length_text (c : Call) : c.text.length = c.name.length + c.argument.length + 2 := by
  simp only [Call.text, List.length_append, List.length_cons, List.length_nil]
  omega

theorem takeWhile_ne {c : Char} (h : c ∉ cs) (rest : List Char) :
    (cs ++ c :: rest).takeWhile (fun d => decide (d ≠ c)) = cs ∧
      (cs ++ c :: rest).dropWhile (fun d => decide (d ≠ c)) = c :: rest := by
  apply takeWhile_row
  · intro d hd
    simpa using fun heq : d = c => h (heq ▸ hd)
  · simp

theorem callAt?_text (h : call.WellFormed) (rest : List Char) :
    callAt? (call.text ++ rest) = some call := by
  have hname :
      (call.name ++ '[' :: (call.argument ++ ']' :: rest)).takeWhile Char.isLower = call.name :=
    (takeWhile_row h.small (by simp)).1
  obtain ⟨htake, hdrop⟩ := takeWhile_ne h.unclosed rest
  rw [Call.text_append, callAt?]
  simp only [hname, List.drop_left, htake, hdrop]
  simp [h.named, h.filled]

theorem wellFormed_of_callAt? (h : callAt? cs = some call) :
    call.WellFormed ∧ ∃ rest, cs = call.text ++ rest := by
  unfold callAt? at h
  simp only at h
  split at h
  · cases h
  · rename_i hname
    split at h
    · rename_i tail hdrop
      split at h
      · cases h
      · rename_i hargument
        rw [Bool.or_eq_true, not_or, List.isEmpty_iff, List.isEmpty_iff] at hargument
        obtain rfl := Option.some.inj h
        obtain ⟨c, after, hafter⟩ := List.exists_cons_of_ne_nil hargument.2
        have hc : c = ']' := by
          have hhead := List.head?_dropWhile_not (fun x => decide (x ≠ ']')) tail
          rw [hafter] at hhead
          simpa using hhead
        refine ⟨⟨by simpa using hname, ?_, hargument.1, ?_⟩, after, ?_⟩
        · intro x hx
          exact List.all_eq_true.mp List.all_takeWhile x hx
        · intro hx
          have := List.all_eq_true.mp List.all_takeWhile _ hx
          simp at this
        · rw [Call.text_append]
          have hsplit :=
            List.takeWhile_append_dropWhile (p := fun x => decide (x ≠ ']')) (l := tail)
          rw [hafter, hc] at hsplit
          have hname := List.takeWhile_prefix (l := cs) Char.isLower
          rw [hsplit, ← hdrop]
          exact (List.prefix_iff_eq_append.mp hname).symm
    · cases h

theorem Call.count_text_pos (c : Call) : 0 < c.text.count '[' := by
  rw [List.count_pos_iff]
  simp [Call.text]

def writtenAlphabet : List Char := numeralAlphabet ++ ['i', 'n', 'N']

/-- Infinite values and those that are no numbers are written as words. -/
theorem text_not_finite {x : Float} (h : x.isFinite = false) :
    (Number.float x).text ∈ ["nan", "-inf", "inf"] := by
  rw [isFinite_eq, Bool.and_eq_false_iff, Bool.not_eq_false', Bool.not_eq_false'] at h
  rw [Number.text, Decimal.text, Layout.text]
  split
  · exact List.mem_cons_self
  · rename_i hnan
    rw [if_pos (h.resolve_left hnan)]
    split
    · exact List.mem_cons_of_mem "nan" List.mem_cons_self
    · exact List.mem_cons_of_mem "nan" (List.mem_cons_of_mem "-inf" List.mem_cons_self)

theorem mem_writtenAlphabet (v : Number) : ∀ c ∈ v.text.toList, c ∈ writtenAlphabet := by
  have hdigits (n : Nat) : ∀ c ∈ natDigits n, c ∈ writtenAlphabet := by
    intro c hc
    exact List.mem_append_left _ (Radix.mem_alphabet (isDigit_decimal (decimals_natDigits n c hc)))
  have hminus {cs : List Char} (h : ∀ c ∈ cs, c ∈ writtenAlphabet) :
      ∀ c ∈ '-' :: cs, c ∈ writtenAlphabet :=
    List.forall_mem_cons.mpr ⟨by simp [writtenAlphabet, numeralAlphabet], h⟩
  have hwords (s : String) (hs : s ∈ ["None", "nan", "-inf", "inf"]) :
      ∀ c ∈ s.toList, c ∈ writtenAlphabet := by
    have hall : ["None", "nan", "-inf",
        "inf"].all (fun s => s.toList.all writtenAlphabet.contains) = true := by
      decide +kernel
    intro c hc
    exact List.contains_iff_mem.mp (List.all_eq_true.mp (List.all_eq_true.mp hall s hs) c hc)
  cases v with
  | missing => exact hwords "None" (by simp)
  | int n =>
    rw [Number.text, toList_intText]
    split
    · exact hminus (hdigits _)
    · exact hdigits _
  | float x =>
    by_cases hfinite : x.isFinite = true
    · have hliteral : ∀ c ∈ unsignedText x, c ∈ writtenAlphabet := by
        intro c hc
        let l := Literal.ofFinite x hfinite
        exact List.mem_append_left _ (mem_alphabet_of_numeral l.reads l.complete c hc)
      rw [Number.text, text_finite hfinite]
      split
      · exact hminus hliteral
      · exact hliteral
    · exact hwords _ (List.mem_cons_of_mem _ (text_not_finite (Bool.eq_false_iff.mpr hfinite)))

theorem bracket_not_mem_text (v : Number) : '[' ∉ v.text.toList := by
  intro h
  have := mem_writtenAlphabet v _ h
  simp [writtenAlphabet, numeralAlphabet] at this

theorem hasInfix_iff {word : List Char} : hasInfix word cs = true ↔ word <:+: cs := by
  induction cs with
  | nil => simp [hasInfix]
  | cons c cs ih =>
    rw [hasInfix, Bool.or_eq_true, ih, List.isPrefixOf_iff_prefix, List.infix_cons_iff]

/-- Another pass is due while an opening bracket and the name of a function are left. -/
theorem pending_iff : pending cs = true ↔ '[' ∈ cs ∧ ∃ g : Function, g.name.toList <:+: cs := by
  rw [pending, Bool.and_eq_true, List.contains_iff_mem, List.any_eq_true]
  refine and_congr_right fun _ => exists_congr fun g => ?_
  have hall : g ∈ Function.all := by cases g <;> decide
  rw [hasInfix_iff, and_iff_right hall]

/-- A text is built up from its end, by characters at which no call begins and by calls. -/
theorem calls_induction {P : List Char → Prop} (nil : P [])
    (char : ∀ c cs, callAt? (c :: cs) = none → P cs → P (c :: cs))
    (call : ∀ (call : Call) rest, call.WellFormed → P rest → P (call.text ++ rest))
    (cs : List Char) : P cs := by
  induction hlength : cs.length using Nat.strong_induction_on generalizing cs with
  | _ length ih =>
    cases cs with
    | nil => exact nil
    | cons c tail =>
      cases hat : callAt? (c :: tail) with
      | none => exact char c tail hat (ih tail.length (by rw [← hlength]; simp) tail rfl)
      | some found =>
        obtain ⟨hcall, rest, hrest⟩ := wellFormed_of_callAt? hat
        have hshorter : rest.length < length := by
          rw [← hlength, hrest, List.length_append, found.length_text]
          omega
        rw [hrest]
        exact call found rest hcall (ih rest.length hshorter rest rfl)

theorem Function.apply_ne_endless (g : Function) (x : Float) : g.apply x ≠ .error .endless := by
  have hchecked (infinite : Fault) (f : Float → Float) (hinfinite : infinite ≠ .endless) :
      checked infinite f x ≠ .error .endless := by
    simp only [checked]
    split
    · simp
    · split
      · simpa using hinfinite
      · simp
  have hwhole (f : Float → Int) : wholeNear f x ≠ .error .endless := by
    unfold wholeNear
    split
    · simp
    · split <;> simp
  cases g with
  | abs => simp [apply]
  | fix | fup | round => exact hwhole _
  | acos | asin | atan | cos | exp | ln | sin | sqrt | tan => exact hchecked _ _ (by decide)

section
variable [Evaluator]

theorem passFrom_drop (n : Nat) (cs : List Char) : passFrom n cs = passFrom 0 (cs.drop n) := by
  induction n generalizing cs with
  | zero => rfl
  | succ n ih =>
    cases cs with
    | nil => rfl
    | cons c cs => exact ih cs

/-- A call gives way to its result, and the pass goes on behind it. -/
theorem pass_call (h : call.WellFormed) (rest : List Char) :
    pass (call.text ++ rest) = do
      let text ← call.replacement
      let rest ← pass rest
      return text ++ rest := by
  obtain ⟨c, cs, htext⟩ : ∃ c cs, call.text = c :: cs := by
    apply List.exists_cons_of_ne_nil
    simp [Call.text]
  have hat := callAt?_text h rest
  have hskip : passFrom (call.text.length - 1) (cs ++ rest) = pass rest := by
    rw [passFrom_drop, htext, List.length_cons, Nat.add_sub_cancel, List.drop_left]
    rfl
  rw [htext, List.cons_append] at hat ⊢
  rw [pass, passFrom, hat]
  simp only [hskip]

theorem pass_cons {c : Char} (h : callAt? (c :: cs) = none) :
    pass (c :: cs) = do
      let rest ← pass cs
      return c :: rest := by
  rw [pass, passFrom, h]
  rfl

theorem pass_cons_ok {c : Char} (h : callAt? (c :: cs) = none) (hpass : pass (c :: cs) = .ok ds) :
    ∃ ts, pass cs = .ok ts ∧ ds = c :: ts := by
  rw [pass_cons h] at hpass
  obtain ⟨ts, hts, heq⟩ := bind_ok_iff.mp hpass
  exact ⟨ts, hts, (Except.ok.inj heq).symm⟩

theorem pass_call_ok (h : call.WellFormed) (hpass : pass (call.text ++ rest) = .ok ds) :
    ∃ text ts, call.replacement = .ok text ∧ pass rest = .ok ts ∧ ds = text ++ ts := by
  rw [pass_call h] at hpass
  obtain ⟨text, htext, hpass⟩ := bind_ok_iff.mp hpass
  obtain ⟨ts, hts, heq⟩ := bind_ok_iff.mp hpass
  exact ⟨text, ts, htext, hts, (Except.ok.inj heq).symm⟩

/-- A call of another name stays, and the result of one that is evaluated has no bracket. -/
theorem Call.replacement_count (h : call.replacement = .ok ds) :
    ds = call.text ∨ ds.count '[' = 0 := by
  unfold Call.replacement at h
  split at h
  · obtain ⟨x, -, h⟩ := bind_ok_iff.mp h
    obtain ⟨r, -, heq⟩ := bind_ok_iff.mp h
    rw [← Except.ok.inj heq]
    exact .inr (List.count_eq_zero.mpr (bracket_not_mem_text r))
  · exact .inl (Except.ok.inj h).symm

/-- A pass leaves a text as it is, or it uses up an opening bracket. -/
theorem pass_count (h : pass cs = .ok ds) : ds = cs ∨ ds.count '[' < cs.count '[' := by
  induction cs using calls_induction generalizing ds with
  | nil => exact .inl (Except.ok.inj h).symm
  | char c tail hat ih =>
    obtain ⟨ts, htail, rfl⟩ := pass_cons_ok hat h
    rcases ih htail with rfl | hless
    · exact .inl rfl
    · right
      rw [List.count_cons, List.count_cons]
      omega
  | call call rest hcall ih =>
    obtain ⟨text, ts, htext, hpass, rfl⟩ := pass_call_ok hcall h
    have htail := ih hpass
    rw [List.count_append, List.count_append]
    rcases Call.replacement_count htext with rfl | hnone
    · rcases htail with rfl | hless
      · exact .inl rfl
      · exact .inr (by omega)
    · have hle : ts.count '[' ≤ rest.count '[' := by
        rcases htail with rfl | hless
        · exact le_rfl
        · exact hless.le
      have := call.count_text_pos
      exact .inr (by omega)

/-- A call does not come back when its argument does not. -/
theorem Call.value_of_replacement (h : call.replacement = .error .endless) :
    Evaluator.value call.argument = .error .endless := by
  unfold Call.replacement at h
  split at h
  · rename_i g _
    rcases bind_error_iff.mp h with hvalue | ⟨x, -, hbehind⟩
    · exact hvalue
    · rcases bind_error_iff.mp hbehind with happly | ⟨r, -, hreturn⟩
      · exact absurd happly (g.apply_ne_endless x)
      · cases hreturn
  · cases h

/-- A pass does not come back when the argument of one of its calls does not. -/
theorem pass_endless (h : pass cs = .error .endless) :
    ∃ call : Call, call.text <:+: cs ∧ Evaluator.value call.argument = .error .endless := by
  induction cs using calls_induction with
  | nil => cases h
  | char c tail hat ih =>
    rw [pass_cons hat] at h
    rcases bind_error_iff.mp h with htail | ⟨ts, -, hreturn⟩
    · obtain ⟨call, hcall, hvalue⟩ := ih htail
      exact ⟨call, hcall.trans (List.infix_cons_iff.mpr (.inr List.infix_rfl)), hvalue⟩
    · cases hreturn
  | call call rest hcall ih =>
    rw [pass_call hcall] at h
    rcases bind_error_iff.mp h with htext | ⟨text, -, hbehind⟩
    · exact ⟨call, ⟨[], rest, rfl⟩, Call.value_of_replacement htext⟩
    · rcases bind_error_iff.mp hbehind with hrest | ⟨ts, -, hreturn⟩
      · obtain ⟨call', hcall', hvalue⟩ := ih hrest
        exact ⟨call', hcall'.trans ⟨call.text, [], by simp⟩, hvalue⟩
      · cases hreturn

/-- The text after a number of passes, each of which was due. -/
inductive Reaches : Nat → List Char → List Char → Prop where
  | start (cs : List Char) : Reaches 0 cs cs
  | step {n : Nat} {cs ds es : List Char} (due : pending cs = true) (passed : pass cs = .ok ds)
      (more : Reaches n ds es) : Reaches (n + 1) cs es

def Returns (n : Nat) (cs ds : List Char) : Prop := Reaches n cs ds ∧ pending ds = false

def Raises (n : Nat) (cs : List Char) (f : Fault) : Prop :=
  ∃ ds, Reaches n cs ds ∧ pending ds = true ∧ pass ds = .error f

/-- The argument of a call does not come back, in the pass behind so many others. -/
def Waits (n : Nat) (cs : List Char) : Prop :=
  ∃ ds, Reaches n cs ds ∧ pending ds = true ∧ pass ds = .error .endless ∧
    ∃ call : Call, call.text <:+: ds ∧ Evaluator.value call.argument = .error .endless

/-- A pass is due, and it changes nothing. -/
structure Stuck (cs : List Char) : Prop where
  bracket : '[' ∈ cs
  name : ∃ g : Function, g.name.toList <:+: cs
  unchanged : pass cs = .ok cs

def RunsForever (cs : List Char) : Prop := ∀ n, ∃ ds, Reaches n cs ds

theorem Stuck.pending (h : Stuck cs) : pending cs = true := pending_iff.mpr ⟨h.bracket, h.name⟩

theorem settle_done (h : pending cs = false) (fuel : Nat) : settle fuel cs = .ok cs := by
  cases fuel <;> rw [settle, h] <;> rfl

theorem settle_due (h : pending cs = true) (fuel : Nat) :
    settle (fuel + 1) cs = (pass cs).bind (settle fuel) := by
  rw [settle, if_pos h]
  rfl

theorem Stuck.settle (h : Stuck cs) (fuel : Nat) : settle fuel cs = .error .endless := by
  induction fuel with
  | zero => rw [Expression.settle, if_pos h.pending]
  | succ fuel ih =>
    rw [settle_due h.pending, h.unchanged]
    exact ih

/-- One pass more than there are brackets settles a text, and so does any number beyond that. -/
theorem settle_eq_replaceFunctions {fuel : Nat} (h : cs.count '[' < fuel) :
    settle fuel cs = replaceFunctions cs := by
  have hmore : ∀ (fuel : Nat) (cs : List Char), cs.count '[' < fuel →
      settle (fuel + 1) cs = settle fuel cs := by
    intro fuel
    induction fuel with
    | zero =>
      intro cs hcs
      omega
    | succ fuel ih =>
      intro cs hcs
      cases hdue : pending cs with
      | false => rw [settle_done hdue, settle_done hdue]
      | true =>
        rw [settle_due hdue, settle_due hdue]
        cases hpass : pass cs with
        | error f => rfl
        | ok ds =>
          rcases pass_count hpass with rfl | hless
          · obtain ⟨hbracket, hname⟩ := pending_iff.mp hdue
            have hstuck : Stuck ds := ⟨hbracket, hname, hpass⟩
            exact (hstuck.settle (fuel + 1)).trans (hstuck.settle fuel).symm
          · exact ih ds (by omega)
  induction fuel, h using Nat.le_induction with
  | base => rfl
  | succ fuel h ih => rw [hmore fuel cs h, ih]

/-- With more passes than there are brackets, it turns out what the loop comes to. -/
theorem settle_cases (fuel : Nat) (cs : List Char) (hfuel : cs.count '[' < fuel) :
    (∃ n ≤ cs.count '[', ∃ ds, Returns n cs ds ∧ settle fuel cs = .ok ds) ∨
    (∃ n < cs.count '[', ∃ f, Raises n cs f ∧ settle fuel cs = .error f) ∨
    ∃ n < cs.count '[', ∃ ds, Reaches n cs ds ∧ Stuck ds ∧ settle fuel cs = .error .endless := by
  induction fuel generalizing cs with
  | zero => omega
  | succ fuel ih =>
    cases hdue : pending cs with
    | false => exact .inl ⟨0, Nat.zero_le _, cs, ⟨.start cs, hdue⟩, settle_done hdue _⟩
    | true =>
      obtain ⟨hbracket, hname⟩ := pending_iff.mp hdue
      have hpos : 0 < cs.count '[' := List.count_pos_iff.mpr hbracket
      cases hpass : pass cs with
      | error f =>
        refine .inr (.inl ⟨0, hpos, f, ⟨cs, .start cs, hdue, hpass⟩, ?_⟩)
        rw [settle_due hdue, hpass]
        rfl
      | ok ds =>
        have hsettle : settle (fuel + 1) cs = settle fuel ds := by
          rw [settle_due hdue, hpass]
          rfl
        rcases pass_count hpass with rfl | hless
        · have hstuck : Stuck ds := ⟨hbracket, hname, hpass⟩
          exact .inr (.inr ⟨0, hpos, ds, .start ds, hstuck, hstuck.settle _⟩)
        · rw [hsettle]
          rcases ih ds (by omega) with ⟨n, hn, es, hes, hout⟩ | ⟨n, hn, f, ⟨es, hes, hlast⟩, hout⟩ |
            ⟨n, hn, es, hes, hstuck, hout⟩
          · exact .inl ⟨n + 1, by omega, es, ⟨.step hdue hpass hes.1, hes.2⟩, hout⟩
          · exact .inr (.inl ⟨n + 1, by omega, f, ⟨es, .step hdue hpass hes, hlast⟩, hout⟩)
          · exact .inr (.inr ⟨n + 1, by omega, es, .step hdue hpass hes, hstuck, hout⟩)

/-- What a loop goes on from is what any longer run of it passes through. -/
theorem Reaches.last (h : Reaches n cs ds) (hmore : Reaches (n + 1) cs es) :
    pending ds = true ∧ ∃ next, pass ds = .ok next := by
  induction h with
  | start cs =>
    cases hmore with
    | step due passed more => exact ⟨due, _, passed⟩
  | step due passed more ih =>
    cases hmore with
    | step due' passed' more' =>
      rw [passed] at passed'
      obtain rfl := Except.ok.inj passed'
      exact ih more'

theorem not_runsForever_of_returns (h : Returns n cs ds) : ¬ RunsForever cs := by
  intro hforever
  obtain ⟨es, hes⟩ := hforever (n + 1)
  have hdue := (h.1.last hes).1
  rw [h.2] at hdue
  cases hdue

theorem not_runsForever_of_raises (h : Raises n cs f) : ¬ RunsForever cs := by
  intro hforever
  obtain ⟨es, hes⟩ := hforever (n + 1)
  obtain ⟨ds, hds, -, herror⟩ := h
  obtain ⟨-, next, hnext⟩ := hds.last hes
  rw [herror] at hnext
  cases hnext

theorem Stuck.runsForever (h : Stuck cs) : RunsForever cs := by
  intro n
  refine ⟨cs, ?_⟩
  induction n with
  | zero => exact .start cs
  | succ n ih => exact .step h.pending h.unchanged ih

theorem Reaches.runsForever (h : Reaches n cs ds) (hforever : RunsForever ds) : RunsForever cs := by
  induction h with
  | start cs => exact hforever
  | step due passed more ih =>
    intro m
    cases m with
    | zero => exact ⟨_, .start _⟩
    | succ m =>
      obtain ⟨es, hes⟩ := ih hforever m
      exact ⟨es, .step due passed hes⟩

end

/-- When the loop over the calls of a text ends, whatever the arguments come to. A pass leaves the
text as it is or uses up an opening bracket. So with `k` opening brackets the loop returns after `k`
passes at most, or breaks off in one of the first `k`, or waits there for an argument that does not
come back, or comes within fewer than `k` passes to a text that is stuck; and in the last case, and
only there, it makes passes for ever. -/
theorem replaceFunctions_ends [Evaluator] (cs : List Char) :
    (∀ ds, pass cs = .ok ds → ds = cs ∨ ds.count '[' < cs.count '[') ∧
    ((∃ n ≤ cs.count '[', ∃ ds, Returns n cs ds ∧ replaceFunctions cs = .ok ds) ∨
      (∃ n < cs.count '[', ∃ f ≠ .endless, Raises n cs f ∧ replaceFunctions cs = .error f) ∨
      (∃ n < cs.count '[', Waits n cs ∧ replaceFunctions cs = .error .endless) ∨
      ∃ n < cs.count '[', ∃ ds, Reaches n cs ds ∧ Stuck ds ∧
        replaceFunctions cs = .error .endless) ∧
    (RunsForever cs ↔ ∃ n < cs.count '[', ∃ ds, Reaches n cs ds ∧ Stuck ds) := by
  have hcases := settle_cases (cs.count '[' + 1) cs (Nat.lt_succ_self _)
  refine ⟨fun ds => pass_count, ?_, ?_, ?_⟩
  · rcases hcases with hreturns | ⟨n, hn, f, hraises, hout⟩ | hstuck
    · exact .inl hreturns
    · by_cases hf : f = .endless
      · subst hf
        obtain ⟨ds, hds, hdue, hpass⟩ := hraises
        exact .inr (.inr (.inl ⟨n, hn, ⟨ds, hds, hdue, hpass, pass_endless hpass⟩, hout⟩))
      · exact .inr (.inl ⟨n, hn, f, hf, hraises, hout⟩)
    · exact .inr (.inr (.inr hstuck))
  · intro hforever
    rcases hcases with ⟨n, -, ds, hreturns, -⟩ | ⟨n, -, f, hraises, -⟩ | ⟨n, hn, ds, hds, hstuck, -⟩
    · exact absurd hforever (not_runsForever_of_returns hreturns)
    · exact absurd hforever (not_runsForever_of_raises hraises)
    · exact ⟨n, hn, ds, hds, hstuck⟩
  · intro h
    obtain ⟨n, -, ds, hds, hstuck⟩ := h
    exact hds.runsForever hstuck.runsForever

end Machining.Expression
