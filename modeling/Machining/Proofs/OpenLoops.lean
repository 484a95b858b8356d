import Machining.Proofs.LoopCommands
import Mathlib.Data.List.Perm.Subperm

namespace Machining.Flow

/-- The structures that a position is within, outermost first. -/
def within (mark : Nat → Option Bracket) : Nat → List Opening
  | 0 => []
  | k + 1 =>
    match mark k with
    | some (.opens kind label) => within mark k ++ [⟨kind, label, k⟩]
    | some (.closes _ _) => (within mark k).dropLast
    | none => within mark k

/-- The greatest number of structures that a position up to the given one is within. -/
def nesting (mark : Nat → Option Bracket) : Nat → Nat
  | 0 => 0
  | k + 1 => max (nesting mark k) (within mark (k + 1)).length

theorem within_le_nesting (mark : Nat → Option Bracket) {k n : Nat} (h : k ≤ n) :
    (within mark k).length ≤ nesting mark n := by
  induction n with
  | zero =>
    obtain rfl : k = 0 := by omega
    simp [within]
  | succ n ih =>
    rw [nesting]
    by_cases hk : k = n + 1
    · subst hk
      exact Nat.le_max_right _ _
    · exact Nat.le_trans (ih (by omega)) (Nat.le_max_left _ _)

variable {mark : Nat → Option Bracket} {k : Nat} {o : Opening} {kind : Structure} {label : Label}

theorem within_opens (h : mark k = some (.opens kind label)) :
    within mark (k + 1) = within mark k ++ [⟨kind, label, k⟩] := by
  rw [within, h]

theorem within_closes (h : mark k = some (.closes kind label)) :
    within mark (k + 1) = (within mark k).dropLast := by
  rw [within, h]

theorem within_plain (h : mark k = none) : within mark (k + 1) = within mark k := by
  rw [within, h]

/-- A structure that a position is within was opened before, and around it lies what its opening was
within. -/
theorem within_opening (ho : o ∈ within mark k) :
    ∃ q : Nat, o.position = q ∧ q < k ∧ mark q = some (.opens o.kind o.label) ∧
      ∀ o' ∈ within mark k, o'.position < q → o' ∈ within mark q := by
  induction k with
  | zero => simp [within] at ho
  | succ k ih =>
    cases hmark : mark k with
    | none =>
      rw [within_plain hmark] at ho ⊢
      obtain ⟨q, hq, hlt, hopens, hbefore⟩ := ih ho
      exact ⟨q, hq, by omega, hopens, hbefore⟩
    | some x =>
      cases x with
      | closes kind label =>
        rw [within_closes hmark] at ho ⊢
        obtain ⟨q, hq, hlt, hopens, hbefore⟩ := ih (List.dropLast_subset _ ho)
        exact ⟨q, hq, by omega, hopens, fun o' ho' => hbefore o' (List.dropLast_subset _ ho')⟩
      | opens kind label =>
        rw [within_opens hmark] at ho ⊢
        rcases List.mem_append.mp ho with ho | ho
        · obtain ⟨q, hq, hlt, hopens, hbefore⟩ := ih ho
          refine ⟨q, hq, by omega, hopens, fun o' ho' hlt' => ?_⟩
          rcases List.mem_append.mp ho' with ho' | ho'
          · exact hbefore o' ho' hlt'
          · obtain rfl := List.mem_singleton.mp ho'
            simp only at hlt'
            omega
        · obtain rfl := List.mem_singleton.mp ho
          refine ⟨k, rfl, by omega, hmark, fun o' ho' hlt' => ?_⟩
          rcases List.mem_append.mp ho' with ho' | ho'
          · exact ho'
          · obtain rfl := List.mem_singleton.mp ho'
            simp at hlt'

/-- Structures that a position is within are in the order of their openings. -/
theorem within_ascending (mark : Nat → Option Bracket) (k : Nat) :
    (within mark k).Pairwise fun o o' => o.position < o'.position := by
  induction k with
  | zero => exact .nil
  | succ k ih =>
    cases hmark : mark k with
    | none => rwa [within_plain hmark]
    | some x =>
      cases x with
      | closes kind label =>
        rw [within_closes hmark]
        exact ih.sublist (List.dropLast_sublist _)
      | opens kind label =>
        rw [within_opens hmark, List.pairwise_append]
        refine ⟨ih, by simp, fun o ho o' ho' => ?_⟩
        obtain ⟨q, hq, hlt, -, -⟩ := within_opening ho
        obtain rfl := List.mem_singleton.mp ho'
        simp only
        omega

/-- A closing bracket closes the innermost structure. -/
theorem Closing.innermost {stack : List Opening} {w : List Bracket}
    (h : Closing (stack.reverse.map Opening.key) (.closes kind label :: w)) :
    ∃ outer o, stack = outer ++ [o] ∧ o.key = (kind, label) ∧
      Closing (outer.reverse.map Opening.key) w := by
  rcases List.eq_nil_or_concat stack with rfl | ⟨outer, o, rfl⟩
  · exact absurd h Closing.not_closes
  · rw [List.concat_eq_append, List.reverse_append, List.reverse_singleton, List.singleton_append,
      List.map_cons, Closing.closes_iff] at h
    exact ⟨outer, o, List.concat_eq_append, h⟩

def opening (l : Loop) : Opening :=
  ⟨if l.kind = .whileLoop then .whileLoop else .repeatLoop, l.label, l.first⟩

/-- Loops that were opened at their first position; only those with a count have one. -/
structure Proper (l : Loop) : Prop where
  last : l.last = l.first
  kind : l.kind = .whileLoop ∧ l.count = none ∨ l.kind = .repeatLoop ∧ l.count.isSome = true

/-- Open loops among the structures that a position is within, in their order. -/
structure Inside (mark : Nat → Option Bracket) (k : Nat) (loops : List Loop) : Prop where
  ascending : loops.Pairwise fun l m => l.first < m.first
  inside : ∀ l ∈ loops, opening l ∈ within mark k
  proper : ∀ l ∈ loops, Proper l

namespace Inside
variable {loops outer : List Loop} {l : Loop}

theorem nil (mark : Nat → Option Bracket) (k : Nat) : Inside mark k [] := ⟨.nil, by simp, by simp⟩

/-- No two loops begin at the same position, and there are no more than the program nests. -/
theorem bounded (h : Inside mark k loops) {n : Nat} (hk : k ≤ n) :
    loops.length ≤ nesting mark n ∧ (loops.map Loop.first).Nodup := by
  have hdistinct : (loops.map Loop.first).Nodup :=
    List.pairwise_map.mpr (h.ascending.imp fun hlt => Int.ne_of_lt hlt)
  have hopenings : (loops.map opening).Nodup := by
    refine List.pairwise_map.mpr (h.ascending.imp fun hlt heq => ?_)
    exact Int.ne_of_lt hlt (congrArg Opening.position heq)
  have hsub : loops.map opening ⊆ within mark k := by
    intro o ho
    obtain ⟨l, hl, rfl⟩ := List.mem_map.mp ho
    exact h.inside l hl
  refine ⟨?_, hdistinct⟩
  calc loops.length = (loops.map opening).length := (List.length_map _).symm
    _ ≤ (within mark k).length := (hopenings.subperm hsub).length_le
    _ ≤ nesting mark n := within_le_nesting mark hk

theorem sublist (h : Inside mark k loops) (hsub : outer.Sublist loops) : Inside mark k outer :=
  ⟨h.ascending.sublist hsub, fun l hl => h.inside l (hsub.subset hl),
    fun l hl => h.proper l (hsub.subset hl)⟩

theorem mono (h : Inside mark k loops) {k' : Nat} (hsub : within mark k ⊆ within mark k') :
    Inside mark k' loops :=
  ⟨h.ascending, fun l hl => hsub (h.inside l hl), h.proper⟩

/-- Going back to the opening command of an open loop leaves the loops around it. -/
theorem before {inner : List Loop} (h : Inside mark k (outer ++ l :: inner)) :
    ∃ q : Nat, l.first = q ∧ q < k ∧ mark q = some (.opens (opening l).kind l.label) ∧
      Inside mark q outer := by
  obtain ⟨q, hq, hlt, hopens, hbefore⟩ := within_opening (h.inside l (by simp))
  refine ⟨q, hq, hlt, hopens, (h.sublist (by simp)).ascending, fun m hm => ?_,
    fun m hm => h.proper m (by simp [hm])⟩
  have hlt' : m.first < l.first := (List.pairwise_append.mp h.ascending).2.2 m hm l (by simp)
  exact hbefore _ (h.inside m (by simp [hm])) (by simp only [opening] at hq ⊢; omega)

/-- A loop is opened. -/
theorem push (h : Inside mark k loops) (hfirst : l.first = k) (hproper : Proper l)
    (hmark : mark k = some (.opens (opening l).kind l.label)) :
    Inside mark (k + 1) (loops ++ [l]) := by
  have hwithin := within_opens hmark
  have hself : (⟨(opening l).kind, l.label, k⟩ : Opening) = opening l := by simp [opening, hfirst]
  rw [hself] at hwithin
  refine ⟨?_, ?_, ?_⟩
  · rw [List.pairwise_append]
    refine ⟨h.ascending, by simp, fun m hm n hn => ?_⟩
    obtain rfl := List.mem_singleton.mp hn
    obtain ⟨q, hq, hlt, -, -⟩ := within_opening (h.inside m hm)
    simp only [opening] at hq
    omega
  · intro m hm
    rw [hwithin]
    rcases List.mem_append.mp hm with hm | hm
    · exact List.mem_append_left _ (h.inside m hm)
    · rw [List.mem_singleton.mp hm]
      exact List.mem_append_right _ (List.mem_singleton_self _)
  · intro m hm
    rcases List.mem_append.mp hm with hm | hm
    · exact h.proper m hm
    · rw [List.mem_singleton.mp hm]
      exact hproper

/-- Counting a round changes nothing here. -/
theorem count (h : Inside mark k (outer ++ [l])) (n : Int) :
    Inside mark k (outer ++ [{ l with iteration := n }]) := by
  refine ⟨by simpa [List.pairwise_append] using h.ascending, fun m hm => ?_, fun m hm => ?_⟩
  · rcases List.mem_append.mp hm with hm | hm
    · exact h.inside m (List.mem_append_left _ hm)
    · rw [List.mem_singleton.mp hm]
      exact h.inside l (by simp)
  · rcases List.mem_append.mp hm with hm | hm
    · exact h.proper m (List.mem_append_left _ hm)
    · rw [List.mem_singleton.mp hm]
      obtain ⟨hlast, hkind⟩ := h.proper l (by simp)
      exact ⟨hlast, hkind⟩

/-- Only the last of the loops can be the innermost structure. -/
theorem ne_innermost {around : List Opening} {m : Loop} (h : Inside mark k (outer ++ [m]))
    (hwithin : within mark k = around ++ [o]) (hl : l ∈ outer) : opening l ≠ o := by
  intro hself
  have hlt : (opening l).position < (opening m).position :=
    (List.pairwise_append.mp h.ascending).2.2 l hl m (by simp)
  have hm := h.inside m (by simp)
  have hsorted := within_ascending mark k
  rw [hwithin] at hm hsorted
  rw [hself] at hlt
  rcases List.mem_append.mp hm with hm | hm
  · have := (List.pairwise_append.mp hsorted).2.2 _ hm o (by simp)
    omega
  · rw [List.mem_singleton.mp hm] at hlt
    omega

/-- Behind the end of a structure that is none of the loops, all of them are still inside. -/
theorem pop {around : List Opening} (h : Inside mark k loops)
    (hwithin : within mark k = around ++ [o]) (hmark : mark k = some (.closes kind label))
    (hother : ∀ l ∈ loops.getLast?, opening l ≠ o) : Inside mark (k + 1) loops := by
  refine ⟨h.ascending, fun l hl => ?_, h.proper⟩
  rw [within_closes hmark, hwithin, List.dropLast_concat]
  have hmem := h.inside l hl
  rw [hwithin] at hmem
  rcases List.mem_append.mp hmem with hmem | hmem
  · exact hmem
  · exfalso
    have hself : opening l = o := List.mem_singleton.mp hmem
    rcases List.eq_nil_or_concat loops with rfl | ⟨front, m, rfl⟩
    · cases hl
    · rw [List.concat_eq_append] at *
      rcases List.mem_append.mp hl with hl | hl
      · exact h.ne_innermost hwithin hl hself
      · obtain rfl := List.mem_singleton.mp hl
        exact hother l (by simp) hself

end Inside

section
variable [Expression.Evaluator]

def markAt (r : Routine) (blocks : Array (Block Number)) (k : Nat) : Option Bracket :=
  blocks[k]?.bind (bracket? r)

variable {r : Routine} {blocks : Array (Block Number)}

theorem brackets_drop (hk : k < blocks.size) :
    brackets r (blocks.toList.drop k) = (markAt r blocks k).toList ++
      brackets r (blocks.toList.drop (k + 1)) := by
  have hdrop : blocks.toList.drop k = blocks[k] :: blocks.toList.drop (k + 1) := by
    rw [List.drop_eq_getElem_cons (by simpa using hk), Array.getElem_toList]
  rw [hdrop, brackets, List.filterMap_cons, markAt, Array.getElem?_eq_getElem hk, Option.bind_some]
  cases bracket? r blocks[k] <;> rfl

/-- In a well-nested program the brackets from a position on close what the position is within. -/
theorem within_closing (hnested : Balanced (brackets r blocks.toList)) (hk : k ≤ blocks.size) :
    Closing ((within (markAt r blocks) k).reverse.map Opening.key)
      (brackets r (blocks.toList.drop k)) := by
  induction k with
  | zero => exact hnested
  | succ k ih =>
    have hprev := ih (by omega)
    rw [brackets_drop (by omega)] at hprev
    cases hm : markAt r blocks k with
    | none =>
      rw [within_plain hm]
      simpa [hm] using hprev
    | some x =>
      rw [hm] at hprev
      cases x with
      | opens kind label =>
        rw [within_opens hm]
        simpa [Opening.key] using Closing.opens_iff.mp hprev
      | closes kind label =>
        obtain ⟨outer, o, hlast, -, hrest⟩ := Closing.innermost hprev
        rw [within_closes hm, hlast]
        simpa using hrest

/-- What a closing command closes is the innermost structure. -/
theorem within_closed (hnested : Balanced (brackets r blocks.toList)) (hk : k < blocks.size)
    (hmark : markAt r blocks k = some (.closes kind label)) :
    ∃ outer o, within (markAt r blocks) k = outer ++ [o] ∧ o.key = (kind, label) := by
  have hclosing := within_closing hnested (Nat.le_of_lt hk)
  rw [brackets_drop hk, hmark] at hclosing
  obtain ⟨outer, o, hlast, hkey, -⟩ := Closing.innermost hclosing
  exact ⟨outer, o, hlast, hkey⟩

/-- A loop that was just opened. -/
theorem Opened.fits {p : Parameters} {c : Command} {i : Int} {w : LoopWord} {l : Loop}
    (h : Opened p c i w l) :
    l.first = i ∧ Proper l ∧ w.bracket? c.label = some (.opens (opening l).kind l.label) := by
  cases h with
  | whileLoop => exact ⟨rfl, ⟨rfl, .inl ⟨rfl, rfl⟩⟩, rfl⟩
  | repeatLoop => exact ⟨rfl, ⟨rfl, .inr ⟨rfl, rfl⟩⟩, rfl⟩

/-- A command of a well-nested program keeps the open loops inside, unless it resumes one of
them. -/
theorem Turn.inside {p : Parameters} {loops loops' : List Loop} {c : Command} {w : LoopWord}
    {next : Option Int} (hnested : Balanced (brackets r blocks.toList)) (hk : k < blocks.size)
    (hmark : markAt r blocks k = w.bracket? c.label) (h : Inside (markAt r blocks) k loops)
    (hturn : Turn p loops c k w loops' next)
    (hcontinue : w = .continues → ∀ l ∈ loops, l.label ≠ c.label) :
    ∃ q : Nat, next.getD (k + 1) = q ∧ q ≤ blocks.size ∧ Inside (markAt r blocks) q loops' := by
  cases hturn with
  | opens opened =>
    obtain ⟨hfirst, hproper, hopens⟩ := opened.fits
    exact ⟨k + 1, rfl, hk, h.push hfirst hproper (hmark.trans hopens)⟩
  | skips opener shut body =>
    have hsub : within (markAt r blocks) k ⊆ within (markAt r blocks) (k + 1) := by
      rcases opener with rfl | rfl <;>
      · rw [within_opens hmark]
        exact List.subset_append_left _ _
    refine ⟨k + 1, ?_, hk, h.mono hsub⟩
    rcases body with rfl | rfl <;> rfl
  | passes closer other =>
    obtain ⟨kind, hcloses⟩ : ∃ kind, w.bracket? c.label = some (.closes kind c.label) := by
      rcases closer with rfl | rfl <;> exact ⟨_, rfl⟩
    obtain ⟨around, o, hwithin, hkey⟩ := within_closed hnested hk (hmark.trans hcloses)
    refine ⟨k + 1, rfl, hk, h.pop hwithin (hmark.trans hcloses) fun l hl hself => ?_⟩
    exact other l hl (by rw [← (Prod.mk.inj hkey).2, ← hself]; rfl)
  | turns innermost label =>
    subst innermost
    obtain ⟨q, hq, hlt, -, hinside⟩ := h.before
    exact ⟨q, hq, by omega, hinside⟩
  | @counts outer l n innermost label count more =>
    subst innermost
    obtain ⟨q, hq, hlt, hopens, hinside⟩ := h.before
    obtain ⟨hlast, hkind⟩ := h.proper l (by simp)
    have hpush :=
      hinside.push (l := { l with iteration := l.iteration + 1 }) hq ⟨hlast, hkind⟩ hopens
    exact ⟨q + 1, by simp [hq], by omega, hpush⟩
  | @ends outer l n innermost label count last =>
    subst innermost
    obtain ⟨around, o, hwithin, hkey⟩ := within_closed hnested hk hmark
    have hother : ∀ m ∈ loops'.getLast?, opening m ≠ o :=
      fun m hm => h.ne_innermost hwithin (List.mem_of_getLast? hm)
    exact ⟨k + 1, rfl, hk, (h.sublist (List.sublist_append_left _ _)).pop hwithin hmark hother⟩
  | @balks outer l innermost label count =>
    subst innermost
    obtain ⟨around, o, hwithin, hkey⟩ := within_closed hnested hk hmark
    refine ⟨k + 1, rfl, hk, (h.count (l.iteration + 1)).pop hwithin hmark fun m hm hself => ?_⟩
    obtain rfl : { l with iteration := l.iteration + 1 } = m := by simpa using hm
    obtain ⟨-, hkind⟩ := h.proper l (by simp)
    have hwhile : l.kind = .whileLoop := by
      rcases hkind with ⟨hkind, -⟩ | ⟨-, hcount⟩
      · exact hkind
      · simp [count] at hcount
    rw [← hself] at hkey
    simp [Opening.key, opening, hwhile] at hkey
  | @leaves outer inner l isOpen label =>
    subst isOpen
    obtain ⟨q, hq, hlt, hopens, hinside⟩ := h.before
    obtain ⟨hlast, -⟩ := h.proper l (by simp)
    refine ⟨q + 1, by simp [hlast, hq], by omega, hinside.mono ?_⟩
    rw [within_opens hopens]
    exact List.subset_append_left _ _
  | @resumes l isOpen label => exact absurd label (hcontinue rfl l isOpen)
  | strays jump missing =>
    have hnone : markAt r blocks k = none := by
      rcases jump with rfl | rfl <;> exact hmark
    refine ⟨k + 1, rfl, hk, h.mono ?_⟩
    rw [within_plain hnone]
    exact List.Subset.refl _

/-- Open loops were open before, or are opened now. -/
theorem Turn.origin {p : Parameters} {loops loops' : List Loop} {c : Command} {i : Int}
    {w : LoopWord} {next : Option Int} (hturn : Turn p loops c i w loops' next) {l : Loop}
    (hl : l ∈ loops') : (∃ m ∈ loops, m.first = l.first) ∨ Opened p c i w l := by
  cases hturn with
  | opens opened =>
    rcases List.mem_append.mp hl with hl | hl
    · exact .inl ⟨l, hl, rfl⟩
    · rw [List.mem_singleton.mp hl]
      exact .inr opened
  | @counts outer m _ innermost _ _ _ | @balks outer m innermost _ _ =>
    rcases List.mem_append.mp hl with hl | hl
    · exact .inl ⟨l, by simp [innermost, hl], rfl⟩
    · rw [List.mem_singleton.mp hl]
      exact .inl ⟨m, by simp [innermost], rfl⟩
  | turns innermost _ | ends innermost _ _ _ => exact .inl ⟨l, by simp [innermost, hl], rfl⟩
  | leaves isOpen _ => exact .inl ⟨l, by simp [isOpen, hl], rfl⟩
  | skips | passes | resumes | strays => exact .inl ⟨l, hl, rfl⟩

/-- A `continue` leaves the open loops alone, and leads to one of them unless none has its label. -/
theorem Turn.continue_cases {p : Parameters} {loops loops' : List Loop} {c : Command} {i : Int}
    {next : Option Int} (hturn : Turn p loops c i .continues loops' next)
    (hproper : ∀ l ∈ loops, Proper l) :
    loops' = loops ∧ ((∃ m ∈ loops, next = some (if m.kind = .whileLoop then m.first else m.last)) ∨
      next = none ∧ ∀ l ∈ loops, l.label ≠ c.label) := by
  cases hturn with
  | opens opened => cases opened
  | skips opener _ _ => rcases opener with h | h <;> cases h
  | passes closer _ => rcases closer with h | h <;> cases h
  | resumes isOpen _ => exact ⟨rfl, .inl ⟨_, isOpen, rfl⟩⟩
  | strays _ missing =>
    exact ⟨rfl, .inr ⟨rfl, fun l hl => missing l hl ((hproper l hl).kind.imp And.left And.left)⟩⟩

structure LoopProgram (r : Routine) (blocks : Array (Block Number)) : Prop where
  lines : ∀ (i : Nat) b, blocks[i]? = some b → b.line = i
  readable : ∀ b ∈ blocks.toList, (readCommand b r).2.isOk = true
  kinds : ∀ b ∈ blocks.toList, ∀ c ∈ command? r b, c.kind ∈ LoopWord.kinds
  nested : Balanced (brackets r blocks.toList)

def Reopens (p : Parameters) (f : Flow) (i : Int) : Prop :=
  ∃ c w l, f.commands.get? i = some c ∧ c.kind = LoopWord.kind w ∧ commandWord f c = .ok w.word ∧
    Opened p c i w l

theorem Opened.not_waits {p : Parameters} {c : Command} {i : Int} {w : LoopWord} {l : Loop}
    (h : Opened p c i w l) : ¬ Waits p c w := by
  rintro ⟨-, hwaits⟩
  cases h <;> simp_all

theorem Reopens.execute {i : Int} (h : Reopens r.parameters r.flow i) :
    ∃ l, (execute i r).1.flow.loops = r.flow.loops ++ [l] ∧ l.first = i ∧
      (execute i r).2 = .ok none := by
  obtain ⟨c, w, l, hc, hkind, hword, hopened⟩ := h
  obtain ⟨next, ⟨⟨loops, hflow, hturn⟩, -, -⟩, hout⟩ := execute_turned hc hkind hword
  replace hout := hout.resolve_right fun hwaits => hopened.not_waits hwaits.2
  rw [hflow, hout]
  cases hturn with
  | opens again => exact ⟨_, rfl, again.fits.1, rfl⟩
  | skips _ shut _ => exact absurd hopened (shut l)
  | passes closer _ => rcases closer with rfl | rfl <;> cases hopened
  | strays jump _ => rcases jump with rfl | rfl <;> cases hopened
  | turns | counts | ends | balks | leaves | resumes => cases hopened

end
end Machining.Flow

namespace Machining.Interpreter
open Machining.Flow
/-- The next command is a `continue` that finds its loop. -/
def Resumes (t : Interpreter) : Prop :=
  ∃ c ∈ t.flow.commands.get? t.position, c.kind = .continueLoop ∧
    ∃ l ∈ t.flow.loops, l.label = c.label

instance (t : Interpreter) : Decidable (Resumes t) :=
  inferInstanceAs (Decidable (∃ c ∈ t.flow.commands.get? t.position,
    c.kind = .continueLoop ∧ ∃ l ∈ t.flow.loops, l.label = c.label))

section
variable [Expression.Evaluator] {r : Routine} {blocks : Array (Block Number)}
    {texts : Int → Option String}
variable {t : Interpreter} {k : Nat}

/-- A run of a program of loops: the open loops are among those that the position is within. -/
structure Running (r : Routine) (blocks : Array (Block Number)) (texts : Int → Option String)
    (k : Nat) (t : Interpreter) : Prop where
  held : Held r blocks texts t.flow
  parameters : t.parameters = r.parameters
  position : t.position = k
  bound : k ≤ blocks.size
  inside : Inside (markAt r blocks) k t.flow.loops
  reopens : ∀ l ∈ t.flow.loops, Reopens t.parameters t.flow l.first

/-- What following a block of a run comes to: only the open loops and reports change, and they
change by the turn of a command, or not at all if the block has none or waits. -/
inductive Follows (r : Routine) (blocks : Array (Block Number)) (k : Nat) (t s : Interpreter) :
    Except Fault (Option Int) → Prop where
  | quiet (same : s = t) (idle : t.flow.commands.get? t.position = none)
      (mark : markAt r blocks k = none) :
      Follows r blocks k t s (.ok none)
  | turns {c : Command} {w : LoopWord} {loops : List Loop} {next : Option Int}
      (command : t.flow.commands.get? t.position = some c) (kind : c.kind = w.kind)
      (word : commandWord t.flow c = .ok w.word) (mark : markAt r blocks k = w.bracket? c.label)
      (flow : s.flow = { t.flow with line := t.position, loops })
      (parameters : s.parameters = t.parameters) (position : s.position = t.position)
      (turn : Turn t.parameters t.flow.loops c t.position w loops next) :
      Follows r blocks k t s (.ok next)
  | waits {c : Command} {w : LoopWord} (command : t.flow.commands.get? t.position = some c)
      (kind : c.kind = w.kind)
      (flow : s.flow = { t.flow with line := t.position }) (position : s.position = t.position)
      (opener : w = .opensWhile ∨ w = .opensRepeat) : Follows r blocks k t s (.error .endless)

theorem Running.follows (h : Running r blocks texts k t) (hp : LoopProgram r blocks)
    {b : Block Number} (hb : blocks[k]? = some b) :
    Follows r blocks k t (follow b t).1 (follow b t).2 := by
  cases hc : t.flow.commands.get? t.position with
  | none =>
    rw [follow_quiet (.inr hc)]
    refine .quiet rfl hc ?_
    rw [h.position, h.held.commands, hb] at hc
    have hnone : command? r b = none := by simpa using hc
    simp [markAt, hb, bracket?, hnone]
  | some c =>
    have hat := hc
    rw [h.position] at hat
    obtain ⟨b', w, hb', hkind, -, hword, hbracket⟩ := h.held.loopWord hp.lines hp.kinds hat
    obtain rfl : b = b' := Option.some.inj (hb.symm.trans hb')
    have hplain : b.isPlain = false := by
      rw [h.held.commands, hb] at hat
      obtain ⟨c₀, hc₀, -⟩ := Option.map_eq_some_iff.mp hat
      exact isPlain_of_command? hc₀
    obtain ⟨next, ⟨⟨loops, hflow, hturn⟩, hparameters, -⟩, hout⟩ :=
      execute_turned (r := t.routine) hc hkind hword
    rw [follow_command hplain]
    rcases hout with hout | ⟨hout, hwaits⟩
    · rw [hout]
      exact .turns hc hkind hword (by simpa [markAt, hb] using hbracket) hflow hparameters rfl hturn
    · rw [hout]
      rw [hturn.loops_of_waits hwaits] at hflow
      exact .waits hc hkind hflow rfl hwaits.opener

/-- The open loops stay inside when a block is followed, unless its command resumes one of them. -/
theorem Follows.inside {s : Interpreter} {next : Option Int} (h : Running r blocks texts k t)
    (hp : LoopProgram r blocks) (hk : k < blocks.size)
    (hfollows : Follows r blocks k t s (.ok next)) (hno : ¬ Resumes t) :
    ∃ q : Nat, next.getD (t.position + 1) = q ∧
      Running r blocks texts q { s with position := q } := by
  cases hfollows with
  | quiet same idle mark =>
    subst same
    have hwithin : within (markAt r blocks) k ⊆ within (markAt r blocks) (k + 1) := by
      rw [within_plain mark]
      exact List.Subset.refl _
    exact ⟨k + 1,
      by rw [h.position]; rfl, ⟨h.held, h.parameters, rfl, hk, h.inside.mono hwithin, h.reopens⟩⟩
  | @turns c w loops next command kind word mark flow parameters position turn =>
    have hcontinue : w = .continues → ∀ l ∈ t.flow.loops, l.label ≠ c.label := by
      rintro rfl l hl hlabel
      exact hno ⟨c, command, kind, l, hl, hlabel⟩
    have hturn := turn
    rw [h.position] at hturn
    obtain ⟨q, hq, hbound, hinside⟩ := hturn.inside hp.nested hk mark h.inside hcontinue
    refine ⟨q, by rw [h.position]; exact hq, ⟨?_, parameters.trans h.parameters, rfl,
      hbound, ?_, ?_⟩⟩
    · exact ⟨by rw [flow]; exact h.held.program, by rw [flow]; exact h.held.commands⟩
    · rw [flow]
      exact hinside
    · -- a loop that is opened now could be opened again, as could those that were open before
      intro l hl
      rw [flow] at hl
      have hreopens : Reopens t.parameters t.flow l.first := by
        rcases turn.origin hl with ⟨m, hm, hfirst⟩ | hopened
        · rw [← hfirst]
          exact h.reopens m hm
        · have hfirst := hopened.fits.1
          rw [hfirst]
          exact ⟨c, w, l, command, kind, word, hopened⟩
      simp only [flow, parameters]
      exact hreopens

theorem Follows.position {s : Interpreter} {out : Except Fault (Option Int)}
    (h : Follows r blocks k t s out) : s.position = t.position := by
  cases h with
  | quiet same _ _ => rw [same]
  | turns | waits => assumption

/-- A step keeps the open loops inside, unless a `continue` finds its loop. -/
theorem Running.step (h : Running r blocks texts k t) (hp : LoopProgram r blocks)
    (hno : ¬ Resumes t) :
    (t.step.2 = none → ∃ q, Running r blocks texts q t.step.1) ∧
      ∃ q ≤ blocks.size, Inside (markAt r blocks) q t.step.1.flow.loops := by
  by_cases hk : k < blocks.size
  · obtain ⟨hpos, hat⟩ := blockAt h.held h.position (Array.getElem?_eq_getElem hk)
    have hfollows := h.follows hp (Array.getElem?_eq_getElem hk)
    rcases step_at hpos hat with ⟨next, hnext, hstep⟩ | ⟨f, hf, hstep⟩ | ⟨hnext, verdict, hstep⟩
    · obtain ⟨q, hq, hrunning⟩ := (hnext ▸ hfollows).inside h hp hk hno
      rw [Option.getD_some] at hq
      rw [hstep, hq]
      exact ⟨fun _ => ⟨q, hrunning⟩, q, hrunning.bound, hrunning.inside⟩
    · rw [hstep]
      refine ⟨nofun, k, h.bound, ?_⟩
      rw [hf] at hfollows
      cases hfollows with
      | waits _ _ flow _ _ =>
        rw [flow]
        exact h.inside
    · obtain ⟨q, hq, hrunning⟩ := (hnext ▸ hfollows).inside h hp hk hno
      have hflow := carryOut_flow (follow blocks[k] t).1 blocks[k]
      have hparameters := carryOut_parameters (follow blocks[k] t).1 blocks[k]
      rw [hstep]
      refine ⟨?_, q, hrunning.bound, by simpa only [hflow] using hrunning.inside⟩
      rintro rfl
      have hposition : (follow blocks[k] t).1.position + 1 = q := by
        rw [hfollows.position, ← hq, Option.getD_none]
      obtain ⟨held, parameters, -, bound, inside, reopens⟩ := hrunning
      exact ⟨q, hflow ▸ held, hparameters.trans parameters, hposition, bound, hflow ▸ inside, by
        simpa only [hflow, hparameters] using reopens⟩
  · rw [(step_end h.held h.position (by omega)).1]
    exact ⟨nofun, k, h.bound, h.inside⟩

/-- No run ends at a `continue` that finds its loop. -/
theorem Running.not_resumes_of_verdict (h : Running r blocks texts k t) (hp : LoopProgram r blocks)
    (hverdict : t.step.2 ≠ none) : ¬ Resumes t.step.1 := by
  rintro ⟨c', hc', hkind', l, hl, hlabel⟩
  by_cases hk : k < blocks.size
  · obtain ⟨hpos, hat⟩ := blockAt h.held h.position (Array.getElem?_eq_getElem hk)
    have hfollows := h.follows hp (Array.getElem?_eq_getElem hk)
    rcases step_at hpos hat with ⟨next, hnext, hstep⟩ | ⟨f, hf, hstep⟩ | ⟨hnext, verdict, hstep⟩
    · exact hverdict (congrArg Prod.snd hstep)
    · -- the command that does not come back is an opening one
      rw [hstep] at hc'
      rw [hf] at hfollows
      simp only [hfollows.position] at hc'
      cases hfollows with
      | @waits c w command kind flow _ opener =>
        rw [flow, command] at hc'
        rcases opener with rfl | rfl <;> simp_all [LoopWord.kind]
    · have hsome : verdict.isNone = false := by
        rw [hstep] at hverdict
        simpa [Option.isSome_iff_ne_none] using hverdict
      have hflow := carryOut_flow (follow blocks[k] t).1 blocks[k]
      rw [hstep] at hc' hl
      simp only [hflow, hsome, Bool.false_eq_true, if_false, hfollows.position] at hc' hl
      rw [hnext] at hfollows
      generalize (follow blocks[k] t).1 = s at hfollows hc' hl
      cases hfollows with
      | quiet same idle _ =>
        rw [same, idle] at hc'
        cases hc'
      | @turns c w loops _ command kind _ _ flow _ _ turn =>
        rw [flow] at hc' hl
        obtain rfl : c = c' := Option.some.inj (command.symm.trans hc')
        obtain rfl : w = .continues := by cases w <;> simp_all [LoopWord.kind]
        obtain ⟨rfl, ⟨_, _, hjump⟩ | ⟨-, missing⟩⟩ := turn.continue_cases h.inside.proper
        · cases hjump
        · exact missing l hl hlabel
  · rw [(step_end h.held h.position (by omega)).1] at hc'
    rw [h.position, h.held.commands, Array.getElem?_eq_none (by omega)] at hc'
    cases hc'

/-- A `continue` that finds its loop goes back to the opening command with the loop still open. -/
theorem Follows.back {s : Interpreter} {out : Except Fault (Option Int)} {c : Command} {l : Loop}
    (hfollows : Follows r blocks k t s out) (h : Running r blocks texts k t)
    (hc : t.flow.commands.get? t.position = some c) (hkind : c.kind = .continueLoop)
    (hl : l ∈ t.flow.loops) (hlabel : l.label = c.label) :
    ∃ m ∈ t.flow.loops, out = .ok (some m.first) ∧ s.flow = { t.flow with line := t.position } ∧
      s.parameters = t.parameters := by
  cases hfollows with
  | quiet same idle _ =>
    rw [idle] at hc
    cases hc
  | @turns c' w loops _ command kind _ _ flow parameters _ turn =>
    obtain rfl : c' = c := Option.some.inj (command.symm.trans hc)
    obtain rfl : w = .continues := by cases w <;> simp_all [LoopWord.kind]
    obtain ⟨rfl, ⟨m, isOpen, rfl⟩ | ⟨-, missing⟩⟩ := turn.continue_cases h.inside.proper
    · refine ⟨m, isOpen, ?_, flow, parameters⟩
      rw [(h.inside.proper m isOpen).last, ite_self]
    · exact absurd hlabel (missing l hl)
  | @waits c' w command kind _ _ opener =>
    obtain rfl : c' = c := Option.some.inj (command.symm.trans hc)
    rcases opener with rfl | rfl <;> simp_all [LoopWord.kind]

/-- At the opening command of a loop that would be opened again, it is. -/
theorem step_reopens (hheld : Held r blocks texts t.flow) (hat : t.position = k)
    (hk : k < blocks.size) (hreopens : Reopens t.parameters t.flow k) :
    ∃ l : Loop, t.step.1.flow.loops = t.flow.loops ++ [l] ∧ l.first = k := by
  obtain ⟨hpos, hblock⟩ := blockAt hheld hat (Array.getElem?_eq_getElem hk)
  have hplain : blocks[k].isPlain = false := by
    obtain ⟨c, w, l, hc, -⟩ := hreopens
    rw [hheld.commands, Array.getElem?_eq_getElem hk] at hc
    obtain ⟨c₀, hc₀, -⟩ := Option.map_eq_some_iff.mp hc
    exact isPlain_of_command? hc₀
  obtain ⟨l, hloops, hfirst, hgoes⟩ := Reopens.execute (r := t.routine) hreopens
  refine ⟨l, ?_, hfirst⟩
  rw [← hat] at hloops hgoes
  have hfollow := follow_command hplain (t := t)
  rw [hgoes] at hfollow
  rcases step_at hpos hblock with ⟨next, hnext, -⟩ | ⟨f, hf, -⟩ | ⟨-, verdict, hstep⟩
  · rw [hfollow] at hnext
    cases hnext
  · rw [hfollow] at hf
    cases hf
  · rw [hstep]
    simp only [carryOut_flow, hfollow]
    exact hloops

/-- A `continue` that finds its loop goes back to the opening command with the loop still open, and
there it is opened again. -/
theorem Running.resumes_twice (h : Running r blocks texts k t) (hp : LoopProgram r blocks)
    (hresumes : Resumes t) : ¬ ((run 2 t).1.flow.loops.map Loop.first).Nodup := by
  obtain ⟨c, hc, hkind, l, hl, hlabel⟩ := hresumes
  have hk : k < blocks.size := by
    rw [h.position, h.held.commands] at hc
    by_contra hout
    rw [Array.getElem?_eq_none (by omega)] at hc
    cases hc
  obtain ⟨hpos, hat⟩ := blockAt h.held h.position (Array.getElem?_eq_getElem hk)
  obtain ⟨m, hm, hnext, hflow, hparameters⟩ :=
    (h.follows hp (Array.getElem?_eq_getElem hk)).back h hc hkind hl hlabel
  obtain ⟨outer, inner, hloops⟩ := List.append_of_mem hm
  obtain ⟨q, hq, hlt, -, -⟩ := (hloops ▸ h.inside : Inside _ _ (outer ++ m :: inner)).before
  have hback : t.step = ({ (follow blocks[k] t).1 with position := q }, none) := by
    rcases step_at hpos hat with ⟨next, hnext', hstep⟩ | ⟨f, hf, -⟩ | ⟨hnext', -⟩
    · rw [hnext, Except.ok.injEq, Option.some.injEq] at hnext'
      rw [hstep, ← hnext', hq]
    · rw [hnext] at hf
      cases hf
    · rw [hnext] at hnext'
      cases hnext'
  have hreopens := h.reopens m hm
  rw [hq] at hreopens
  generalize (follow blocks[k] t).1 = s at hback hflow hparameters
  have hheld : Held r blocks texts { s with position := q }.flow :=
    ⟨by rw [hflow]; exact h.held.program, by rw [hflow]; exact h.held.commands⟩
  obtain ⟨l', hloops', hfirst⟩ :=
    step_reopens hheld rfl (by omega) (by simp only [hflow, hparameters]; exact hreopens)
  rw [run_goes (by rw [hback]), hback, run_one, hloops']
  simp only [hflow, hloops, List.map_append, List.map_cons, hfirst, hq]
  simp [List.nodup_append]

/-- As long as no `continue` has found its loop, the open loops are inside: of a run that goes on,
and of one that has ended. -/
theorem Running.run (h : Running r blocks texts k t) (hp : LoopProgram r blocks) (n : Nat)
    (hno : ∀ m < n, ¬ Resumes (run m t).1) :
    ((∃ q, Running r blocks texts q (run n t).1) ∧ ∀ j,
      Interpreter.run (n + j) t = Interpreter.run j (run n t).1) ∨
      (¬ Resumes (run n t).1 ∧ ∃ q ≤ blocks.size,
        Inside (markAt r blocks) q (run n t).1.flow.loops) := by
  induction n generalizing t k with
  | zero => exact .inl ⟨⟨k, h⟩, fun j => by rw [Nat.zero_add]; rfl⟩
  | succ n ih =>
    have hnow : ¬ Resumes t := hno 0 (by omega)
    obtain ⟨hgoes, hinside⟩ := h.step hp hnow
    cases hverdict : t.step.2 with
    | some verdict =>
      rw [run_ends hverdict]
      exact .inr ⟨h.not_resumes_of_verdict hp (by simp [hverdict]), hinside⟩
    | none =>
      obtain ⟨q, hq⟩ := hgoes hverdict
      have hlater : ∀ m < n, ¬ Resumes (Interpreter.run m t.step.1).1 := by
        intro m hm
        rw [← run_goes hverdict]
        exact hno (m + 1) (by omega)
      rw [run_goes hverdict]
      refine (ih hq hlater).imp (fun hleft => ⟨hleft.1, fun j => ?_⟩) id
      rw [Nat.add_right_comm, run_goes hverdict]
      exact hleft.2 j

/-- A program of loops is taken in by an interpreter without open loops, and expressions are set on
its commands. -/
theorem running_load (hp : LoopProgram t.routine blocks) (hempty : t.flow.loops = [])
    (texts : Int → Option String) :
    Running t.routine blocks texts 0 { (t.load blocks).1.equip texts with position := 0 } := by
  obtain ⟨hheld, hparameters, hloops⟩ := load_held hp.lines hp.readable texts
  rw [hempty] at hloops
  refine ⟨hheld, hparameters, rfl, Nat.zero_le _, ?_, ?_⟩
  · simp only [hloops]
    exact .nil _ _
  · simp [hloops]

end

/-- However expressions are evaluated, and also if some evaluation does not come back: the open
loops of every run are at most as many as the program nests, and begin at different positions, if
and only if no run comes to a `continue` that finds its loop. -/
theorem openLoops_bounded_iff [Expression.Evaluator] {t : Interpreter}
    {blocks : Array (Block Number)} (hp : LoopProgram t.routine blocks) (hempty : t.flow.loops = [])
    (texts : Int → Option String) :
    (∀ n, (((t.load blocks).1.equip texts).executeBlocks n).1.flow.loops.length ≤
          nesting (markAt t.routine blocks) blocks.size ∧
        ((((t.load blocks).1.equip texts).executeBlocks n).1.flow.loops.map Loop.first).Nodup) ↔
      ∀ n, ¬ Resumes (((t.load blocks).1.equip texts).executeBlocks n).1 := by
  have hrunning := running_load hp hempty texts
  unfold executeBlocks
  generalize { (t.load blocks).1.equip texts with position := 0 } = s at hrunning ⊢
  constructor
  · intro hbounded n
    -- the first `continue` that finds its loop
    induction n using Nat.strong_induction_on with
    | h n ih =>
      intro hresumes
      rcases hrunning.run hp n ih with ⟨⟨q, hq⟩, hlater⟩ | ⟨hno, -⟩
      · apply hq.resumes_twice hp hresumes
        rw [← hlater]
        exact (hbounded (n + 2)).2
      · exact hno hresumes
  · intro hno n
    rcases hrunning.run hp n fun m _ => hno m with ⟨⟨q, hq⟩, -⟩ | ⟨-, q, hq, hinside⟩
    · exact hq.inside.bounded hq.bound
    · exact hinside.bounded hq

def continueWords : List (Option String) :=
  [some "O1 while [1]", none, some "O1 continue", some "O1 endwhile"]

theorem continue_read :
    (∀ b ∈ (program continueWords).toList, (readCommand b initial.routine).2.isOk = true) ∧
    (∀ b ∈ (program continueWords).toList, ∀ c ∈ command? initial.routine b,
      c.kind ∈ LoopWord.kinds) ∧
    Balanced (brackets initial.routine (program continueWords).toList) ∧
    nesting (markAt initial.routine (program continueWords)) (program continueWords).size = 1 ∧
    Resumes (((initial.load (program continueWords)).1.equip fun _ => none).executeBlocks 2).1 := by
  decide +kernel

/-- The program has a single loop, but the open loops do not stay within that. -/
theorem openLoops_bounded_iff_continue :
    LoopProgram initial.routine (program continueWords) ∧
    nesting (markAt initial.routine (program continueWords)) (program continueWords).size = 1 ∧
    ¬ ∀ n, (((initial.load (program continueWords)).1.equip fun _ => none).executeBlocks
      n).1.flow.loops.length ≤ 1 ∧
      ((((initial.load (program continueWords)).1.equip fun _ => none).executeBlocks
        n).1.flow.loops.map
        Loop.first).Nodup := by
  obtain ⟨hread, hkinds, hnested, hone, hresumes⟩ := continue_read
  have hp : LoopProgram initial.routine (program continueWords) :=
    ⟨program_line continueWords, hread, hkinds, hnested⟩
  have hiff := openLoops_bounded_iff (t := initial) hp rfl fun _ => none
  rw [hone] at hiff
  exact ⟨hp, hone, fun hbounded => hiff.mp hbounded 2 hresumes⟩

end Machining.Interpreter
