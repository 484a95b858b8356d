import Machining.Proofs.Parsing
import Machining.Proofs.Written

namespace Machining.Expression
open Machining.Binary64

/-- A reference to a variable: a hash, and a number or a name in angle brackets behind it. -/
inductive Reference where
  | number (ds : List Char) (hne : ds ≠ []) (hd : ∀ c ∈ ds, Text.isDigit c = true)
  | name (s : List Char) (hne : s ≠ []) (hs : '>' ∉ s)

namespace Reference

def label : Reference → List Char
  | number ds _ _ => ds
  | name s _ _ => s

def body : Reference → List Char
  | number ds _ _ => ds
  | name s _ _ => '<' :: (s ++ ['>'])

def text (r : Reference) : List Char := '#' :: r.body

def key (r : Reference) : String := String.ofList ('#' :: r.label)

end Reference

inductive Atom where
  | literal (l : Literal)
  | reference (r : Reference)

def Atom.text : Atom → List Char
  | literal l => l.text
  | reference r => r.text

abbrev Finite := { x : Float // x.isFinite = true }

def Finite.literal (x : Finite) : Literal := .ofFinite x.1 x.2

def Finite.written {α : Type} (lift : Literal → α) (x : Finite) : Form α :=
  if signBit x.1 then .sign .minus (.leaf (lift x.literal)) else .leaf (lift x.literal)

namespace Form

/-- Two trees side by side with an operator between them. A sign before the first one, which a power
does not hold back, comes to stand before the whole. -/
def combine (op : Operation) (l r : Form Literal) : Form Literal :=
  match op, l with
  | .pow, sign s t => sign s (binary .pow t r)
  | op, l => binary op l r

def fill (σ : Reference → Finite) : Form Atom → Form Literal
  | leaf (.literal l) => leaf l
  | leaf (.reference r) => (σ r).written id
  | group t => group (t.fill σ)
  | sign s t => sign s (t.fill σ)
  | binary op l r => combine op (l.fill σ) (r.fill σ)

/-- The tree with the written value in brackets for each reference. -/
def shelter (σ : Reference → Finite) : Form Atom → Form Atom
  | leaf (.literal l) => leaf (.literal l)
  | leaf (.reference r) => group ((σ r).written .literal)
  | group t => group (t.shelter σ)
  | sign s t => sign s (t.shelter σ)
  | binary op l r => binary op (l.shelter σ) (r.shelter σ)

def Bare (σ : Reference → Finite) : Form Atom → Prop
  | leaf (.reference r) => signBit (σ r).1 = true
  | _ => False

/-- A power has a bare reference to a negative value as its base. -/
def Exposed (σ : Reference → Finite) : Form Atom → Prop
  | leaf _ => False
  | group t => t.Exposed σ
  | sign _ t => t.Exposed σ
  | binary op l r => (op = .pow ∧ l.Bare σ) ∨ l.Exposed σ ∨ r.Exposed σ

end Form

def Atom.term (σ : Reference → Finite) : Atom → Term
  | literal l => l.term
  | reference r => .literal (.float (σ r).1)

def Atom.writtenTerm (σ : Reference → Finite) : Atom → Term
  | literal l => l.term
  | reference r => ((σ r).written id).term Literal.term

variable {σ : Reference → Finite} {T l r : Form Atom}

namespace Form

theorem elements_combine (op : Operation) (l r : Form Literal) :
    (combine op l r).elements = l.elements ++ .mark op.mark :: r.elements := by
  unfold combine
  split <;> rfl

theorem combine_operand {l r : Form Literal} (h : l.rank = 4) :
    combine .pow l r = binary .pow l r := by
  unfold combine
  split
  · simp [rank] at h
  · rfl

theorem nesting_combine (op : Operation) (l r : Form Literal) :
    (combine op l r).nesting = max l.nesting r.nesting := by
  unfold combine
  split <;> rfl

theorem nesting_written {α : Type} (lift : Literal → α) (x : Finite) :
    (x.written lift).nesting = 0 := by
  unfold Finite.written
  split <;> rfl

theorem nesting_fill (T : Form Atom) : (T.fill σ).nesting = T.nesting := by
  induction T with
  | leaf a =>
    cases a with
    | literal l => rfl
    | reference r => exact nesting_written _ _
  | group t ih => rw [fill, nesting, ih, nesting]
  | sign s t ih => rw [fill, nesting, ih, nesting]
  | binary op l r ihl ihr => rw [fill, nesting_combine, ihl, ihr, nesting]

theorem nesting_shelter (T : Form Atom) : T.nesting ≤ (T.shelter σ).nesting := by
  induction T with
  | leaf a => exact Nat.zero_le _
  | group t ih => exact Nat.succ_le_succ ih
  | sign s t ih => exact ih
  | binary op l r ihl ihr => exact max_le_max ihl ihr

theorem rank_written {α : Type} (lift : Literal → α) (x : Finite) : 2 ≤ (x.written lift).rank := by
  unfold Finite.written
  split <;> simp [rank]

theorem wellFormed_written {α : Type} (lift : Literal → α) (x : Finite) :
    (x.written lift).WellFormed := by
  unfold Finite.written
  split <;> simp [WellFormed, rank]

/-- A replaced reference may bind as loosely as a sign, and nothing gets looser than that. -/
theorem rank_fill (T : Form Atom) : min T.rank 2 ≤ (T.fill σ).rank := by
  cases T with
  | leaf a =>
    cases a with
    | literal l => exact min_le_left _ _
    | reference r => exact (min_le_right _ _).trans (rank_written _ _)
  | group t => exact min_le_left _ _
  | sign s t => exact min_le_left _ _
  | binary op l r =>
    unfold fill combine
    split
    · exact min_le_right _ _
    · exact min_le_left _ _

/-- The base of a power is replaced by an operand, or by one with a sign before it. -/
theorem fill_operand (hrank : T.rank = 4) :
    (T.fill σ).rank = 4 ∨ ∃ s a, T.fill σ = sign s (leaf a) := by
  cases T with
  | leaf a =>
    cases a with
    | literal l => exact .inl rfl
    | reference r =>
      unfold fill Finite.written
      split
      · exact .inr ⟨_, _, rfl⟩
      · exact .inl rfl
  | group t => exact .inl rfl
  | sign s t => simp [rank] at hrank
  | binary op l r => cases op <;> simp [rank, Operation.rank] at hrank

theorem wellFormed_fill (h : T.WellFormed) : (T.fill σ).WellFormed := by
  induction T with
  | leaf a =>
    cases a with
    | literal l => trivial
    | reference r => exact wellFormed_written _ _
  | group t ih => exact ih h
  | sign s t ih =>
    have := rank_fill (σ := σ) t
    exact ⟨by have := h.1; omega, ih h.2⟩
  | binary op l r ihl ihr =>
    obtain ⟨hleft, hright, hl, hr⟩ := h
    have hl' := rank_fill (σ := σ) l
    have hr' := rank_fill (σ := σ) r
    cases op with
    | pow =>
      have hbase : l.rank = 4 := le_antisymm l.rank_le hleft
      have hexponent : 2 ≤ (r.fill σ).rank := (le_min hright (le_refl 2)).trans hr'
      rcases fill_operand (σ := σ) hbase with hrank | ⟨s, a, hsign⟩
      · rw [fill, combine_operand hrank]
        exact ⟨hrank.ge, hexponent, ihl hl, ihr hr⟩
      · rw [fill, hsign]
        exact ⟨by simp [rank, Operation.rank], by
          simp [rank, Operation.leftRank], hexponent, trivial, ihr hr⟩
    | add | sub | mul | div =>
      simp only [Operation.leftRank, Operation.rightRank] at hleft hright
      exact ⟨by simp only [Operation.leftRank]; omega, by
        simp only [Operation.rightRank]; omega, ihl hl, ihr hr⟩

/-- Unless it is negative, what replaces the base of a power is an operand. -/
theorem rank_fill_of_not_bare (hrank : T.rank = 4) (hbare : ¬ T.Bare σ) : (T.fill σ).rank = 4 := by
  cases T with
  | leaf a =>
    cases a with
    | literal l => rfl
    | reference r =>
      have hsign : ¬ signBit (σ r).1 = true := hbare
      unfold fill Finite.written
      rw [if_neg hsign]
      rfl
  | group t => rfl
  | sign s t => simp [rank] at hrank
  | binary op l r => cases op <;> simp [rank, Operation.rank] at hrank

/-- Without an exposed reference the tree that is read is the tree as written. -/
theorem fill_term (h : T.WellFormed) (hexposed : ¬ T.Exposed σ) :
    (T.fill σ).term Literal.term = T.term (Atom.writtenTerm σ) := by
  induction T with
  | leaf a => cases a <;> rfl
  | group t ih => exact ih h hexposed
  | sign s t ih => rw [fill, term, term, ih h.2 hexposed]
  | binary op l r ihl ihr =>
    obtain ⟨hleft, -, hl, hr⟩ := h
    simp only [Exposed, not_or, not_and] at hexposed
    obtain ⟨hbare, hel, her⟩ := hexposed
    have hstays : combine op (l.fill σ) (r.fill σ) = binary op (l.fill σ) (r.fill σ) := by
      cases op with
      | add | sub | mul | div => rfl
      | pow =>
        exact combine_operand (rank_fill_of_not_bare (le_antisymm l.rank_le hleft) (hbare rfl))
    rw [fill, hstays, term, ihl hl hel, ihr hr her, term]

theorem rank_shelter (T : Form Atom) : (T.shelter σ).rank = T.rank := by
  cases T with
  | leaf a => cases a <;> rfl
  | group t | sign s t | binary op l r => rfl

theorem wellFormed_shelter (h : T.WellFormed) : (T.shelter σ).WellFormed := by
  induction T with
  | leaf a =>
    cases a with
    | literal l => trivial
    | reference r => exact wellFormed_written _ _
  | group t ih => exact ih h
  | sign s t ih => exact ⟨by rw [rank_shelter]; exact h.1, ih h.2⟩
  | binary op l r ihl ihr =>
    obtain ⟨hleft, hright, hl, hr⟩ := h
    exact ⟨by rwa [rank_shelter], by rwa [rank_shelter], ihl hl, ihr hr⟩

theorem not_exposed_shelter (T : Form Atom) : ¬ (T.shelter σ).Exposed σ := by
  induction T with
  | leaf a =>
    cases a with
    | literal l => exact id
    | reference r =>
      unfold shelter Finite.written
      split <;> exact id
  | group t ih => exact ih
  | sign s t ih => exact ih
  | binary op l r ihl ihr =>
    rintro (⟨-, hbare⟩ | hl | hr)
    · cases l with
      | leaf a => cases a <;> exact hbare
      | group t | sign s t | binary op l r => exact hbare
    · exact ihl hl
    · exact ihr hr

theorem shelter_term (T : Form Atom) :
    (T.shelter σ).term (Atom.writtenTerm σ) = T.term (Atom.writtenTerm σ) := by
  induction T with
  | leaf a =>
    cases a with
    | literal l => rfl
    | reference r =>
      change ((σ r).written Atom.literal).term (Atom.writtenTerm σ) =
        ((σ r).written id).term Literal.term
      unfold Finite.written
      split <;> rfl
  | group t ih => exact ih
  | sign s t ih => rw [shelter, term, ih, term]
  | binary op l r ihl ihr => rw [shelter, term, ihl, ihr, term]

/-- Nothing refers to a variable any more. -/
theorem not_mem_shelter (T : Form Atom) (r : Reference) :
    .atom (.reference r) ∉ (T.shelter σ).elements := by
  induction T with
  | leaf a =>
    cases a with
    | literal l => simp [shelter, elements]
    | reference r =>
      unfold shelter Finite.written
      split <;> simp [elements]
  | group t ih => simpa [shelter, elements] using ih
  | sign s t ih => simpa [shelter, elements] using ih
  | binary op l r ihl ihr => simpa [shelter, elements] using ⟨ihl, ihr⟩

/-- The value of a tree depends on its operands only by their values. -/
theorem value_congr {α : Type} {f g : α → Term} (h : ∀ a, (f a).value = (g a).value) (T : Form α) :
    (T.term f).value = (T.term g).value := by
  induction T with
  | leaf a => exact h a
  | group t ih => exact ih
  | sign s t ih => cases s <;> simp only [term, Unary.term, Term.value, ih]
  | binary op l r ihl ihr => simp only [term, Term.value, ihl, ihr]

theorem value_written (x : Finite) :
    ((x.written id).term Literal.term).value = .ok (.float x.1) := by
  have hmodulus := withSign_modulus x.2
  unfold Finite.written
  split
  · rename_i hsign
    rw [hsign] at hmodulus
    change Except.ok (Value.float (-(modulus x.1))) = _
    rw [show -(modulus x.1) = x.1 from hmodulus]
  · rename_i hsign
    rw [Bool.not_eq_true] at hsign
    rw [hsign] at hmodulus
    change Except.ok (Value.float (modulus x.1)) = _
    rw [show modulus x.1 = x.1 from hmodulus]

/-- A tree as written has the value of the tree in which references stand for their values. -/
theorem writtenTerm_value (σ : Reference → Finite) (T : Form Atom) :
    (T.term (Atom.writtenTerm σ)).value = (T.term (Atom.term σ)).value := by
  refine value_congr (fun a => ?_) T
  cases a with
  | literal l => rfl
  | reference r => exact value_written (σ r)

end Form

def Element.fill (σ : Reference → Finite) : Element Atom → List (Element Literal)
  | atom (.literal l) => [.atom l]
  | atom (.reference r) => ((σ r).written id).elements
  | mark m => [.mark m]

theorem Form.elements_fill (T : Form Atom) :
    (T.fill σ).elements = T.elements.flatMap (Element.fill σ) := by
  induction T with
  | leaf a => cases a <;> simp [fill, elements, Element.fill]
  | group t ih => simp [fill, elements, ih, Element.fill]
  | sign s t ih => simp [fill, elements, ih, Element.fill]
  | binary op l r ihl ihr => simp [fill, elements_combine, ihl, ihr, elements, Element.fill]

end Machining.Expression
