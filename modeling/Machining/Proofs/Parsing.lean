import Machining.Proofs.Lexing

namespace Machining.Expression

inductive Unary where
  | plus | minus
  deriving DecidableEq, Repr

inductive Operation where
  | add | sub | mul | div | pow
  deriving DecidableEq, Repr

def Element.starts {α : Type} : Element α → Bool
  | atom _ => true
  | mark m => m.startsOperand

def Element.ends {α : Type} : Element α → Bool
  | atom _ => true
  | mark m => m = .closing

/-- A tree over operands of a kind; `group` is a tree in brackets. -/
inductive Form (α : Type) where
  | leaf (a : α)
  | group (t : Form α)
  | sign (s : Unary) (t : Form α)
  | binary (op : Operation) (l r : Form α)

namespace Unary

def mark : Unary → Mark
  | plus => .plus
  | minus => .minus

def term : Unary → Term → Term
  | plus => .plus
  | minus => .minus

end Unary

namespace Operation

def mark : Operation → Mark
  | add => .plus
  | sub => .minus
  | mul => .times
  | div => .slash
  | pow => .power

def op : Operation → BinaryOp
  | add => .add
  | sub => .sub
  | mul => .mul
  | div => .div
  | pow => .pow

/-- How tightly an operation binds: sums, products, signs, powers and operands have the ranks 0 to
4. -/
def rank : Operation → Nat
  | add | sub => 0
  | mul | div => 1
  | pow => 3

def leftRank : Operation → Nat
  | add | sub => 0
  | mul | div => 1
  | pow => 4

def rightRank : Operation → Nat
  | add | sub => 1
  | mul | div | pow => 2

end Operation

namespace Form
variable {α : Type}

def rank : Form α → Nat
  | leaf _ | group _ => 4
  | sign _ _ => 2
  | binary op _ _ => op.rank

/-- Where the rules of precedence would take a tree apart differently it has brackets. -/
def WellFormed : Form α → Prop
  | leaf _ => True
  | group t => t.WellFormed
  | sign _ t => 2 ≤ t.rank ∧ t.WellFormed
  | binary op l r => op.leftRank ≤ l.rank ∧ op.rightRank ≤ r.rank ∧ l.WellFormed ∧ r.WellFormed

def elements : Form α → List (Element α)
  | leaf a => [.atom a]
  | group t => .mark .opening :: (t.elements ++ [.mark .closing])
  | sign s t => .mark s.mark :: t.elements
  | binary op l r => l.elements ++ .mark op.mark :: r.elements

def term (atom : α → Term) : Form α → Term
  | leaf a => atom a
  | group t => t.term atom
  | sign s t => s.term (t.term atom)
  | binary op l r => .binary op.op (l.term atom) (r.term atom)

def nesting : Form α → Nat
  | leaf _ => 0
  | group t => t.nesting + 1
  | sign _ t => t.nesting
  | binary _ l r => max l.nesting r.nesting

theorem rank_le (T : Form α) : T.rank ≤ 4 := by
  cases T with
  | leaf a | group t | sign s t => simp [rank]
  | binary op l r => cases op <;> simp [rank, Operation.rank]

/-- A tree starts with an operand, a bracket or a sign … -/
theorem elements_head (T : Form α) : ∃ e tail, T.elements = e :: tail ∧ e.starts = true := by
  induction T with
  | leaf a => exact ⟨_, _, rfl, rfl⟩
  | group t ih => exact ⟨_, _, rfl, rfl⟩
  | sign s t ih => exact ⟨_, _, rfl, by cases s <;> rfl⟩
  | binary op l r ihl ihr =>
    obtain ⟨e, tail, helements, he⟩ := ihl
    exact ⟨e, tail ++ .mark op.mark :: r.elements, by rw [elements, helements]; rfl, he⟩

/-- … and ends with an operand or a bracket. -/
theorem elements_last (T : Form α) : ∃ init e, T.elements = init ++ [e] ∧ e.ends = true := by
  induction T with
  | leaf a => exact ⟨[], _, rfl, rfl⟩
  | group t ih => exact ⟨.mark .opening :: t.elements, _, rfl, rfl⟩
  | sign s t ih =>
    obtain ⟨init, e, helements, he⟩ := ih
    exact ⟨.mark s.mark :: init, e, by rw [elements, helements]; rfl, he⟩
  | binary op l r ihl ihr =>
    obtain ⟨init, e, helements, he⟩ := ihr
    exact ⟨l.elements ++ .mark op.mark :: init, e, by rw [elements, helements]; simp, he⟩

theorem elements_chain (T : Form α) : T.elements.IsChain Element.Precedes := by
  have hstart (t : Form α) (m : Mark) (rest : List (Element α)) :
      ∀ e ∈ (t.elements ++ rest).head?, (Element.mark m).Precedes e := by
    obtain ⟨e, tail, helements, he⟩ := t.elements_head
    rw [helements]
    rintro d ⟨⟩
    cases e with
    | atom a => trivial
    | mark n => exact fun _ => he
  have hend (t : Form α) (m : Mark) : ∀ e ∈ t.elements.getLast?, e.Precedes (.mark m) := by
    obtain ⟨init, e, helements, he⟩ := t.elements_last
    rw [helements, List.getLast?_concat]
    rintro d ⟨⟩
    cases e with
    | atom a => trivial
    | mark n =>
      obtain rfl : n = .closing := by simpa [Element.ends] using he
      intro hwants
      cases hwants
  induction T with
  | leaf a => exact .singleton _
  | group t ih =>
    refine List.isChain_cons.mpr ⟨hstart t _ _,
      List.isChain_append.mpr ⟨ih, .singleton _, fun e he d hd => ?_⟩⟩
    obtain rfl : .mark .closing = d := by simpa using hd
    exact hend t _ e he
  | sign s t ih => exact List.isChain_cons.mpr ⟨by simpa using hstart t s.mark [], ih⟩
  | binary op l r ihl ihr =>
    have hright := List.isChain_cons.mpr ⟨by simpa using hstart r op.mark [], ihr⟩
    refine List.isChain_append.mpr ⟨ihl, hright, fun e he d hd => ?_⟩
    obtain rfl : .mark op.mark = d := by simpa using hd
    exact hend l _ e he

/-- Brackets of a tree pair up, and nest as deep as its groups do. -/
theorem nests_elements (T : Form α) {k : Nat} (hk : k ≤ bracketLimit) (rest : List (Element α)) :
    Nests k (T.elements ++ rest) ↔ k + T.nesting ≤ bracketLimit ∧ Nests k rest := by
  induction T generalizing k rest with
  | leaf a =>
    have hatom : Nests k (.atom a :: rest) ↔ Nests k rest := by cases k <;> simp [Nests]
    simpa [elements, hatom, nesting] using fun _ => hk
  | group t ih =>
    rw [elements, List.cons_append, List.append_assoc, Nests, nesting]
    constructor
    · rintro ⟨hlimit, h⟩
      obtain ⟨hdeep, hrest⟩ := (ih (by omega) _).mp h
      exact ⟨by omega, hrest⟩
    · rintro ⟨hdeep, hrest⟩
      exact ⟨by omega, (ih (by omega) _).mpr ⟨by omega, hrest⟩⟩
  | sign s t ih =>
    rw [nesting, ← ih hk]
    cases s <;> cases k <;> simp [elements, Nests, Unary.mark]
  | binary op l r ihl ihr =>
    have hmark : Nests k (.mark op.mark :: (r.elements ++ rest)) ↔
        Nests k (r.elements ++ rest) := by
      cases op <;> cases k <;> simp [Nests, Operation.mark]
    rw [elements, List.append_assoc, List.cons_append, ihl hk, hmark, ihr hk, nesting, ← and_assoc]
    exact and_congr_left fun _ => by omega

end Form

def Literal.term (l : Literal) : Term := .literal l.value

def Mark.level : Mark → Nat
  | .closing => 0
  | .plus | .minus => 1
  | .times | .slash => 2
  | .power => 4
  | .opening => 5

def Stops (k : Nat) (rest : List Lexeme) : Prop :=
  ∀ l ∈ rest.head?, ∃ m : Mark, l = .symbol m.symbol ∧ m.level ≤ k

section
variable {rest : List Lexeme} {fuel k : Nat} {t : Term}

theorem Stops.mono {n : Nat} (h : Stops k rest) (hkn : k ≤ n) : Stops n rest := by
  intro l hl
  obtain ⟨m, rfl, hm⟩ := h l hl
  exact ⟨m, rfl, hm.trans hkn⟩

/-- The levels that join operands from left to right. -/
theorem read_joined {level : Term.Level} {ls : List Lexeme}
    (h : level ∈ [.either, .both, .exclusive, .sum, .product]) :
    Term.read (fuel + 1) level ls =
      (Term.read fuel level.tighter ls).bind fun p => Term.join fuel level p.1 p.2 := by
  simp only [List.mem_cons, List.not_mem_nil, or_false] at h
  rcases h with rfl | rfl | rfl | rfl | rfl <;> rfl

theorem trailers_stop (h : Stops 4 rest) : Term.trailers (fuel + 1) t rest = some (t, rest) := by
  cases rest with
  | nil => rfl
  | cons l rest =>
    obtain ⟨m, rfl, hm⟩ := h l rfl
    cases m with
    | opening => simp [Mark.level] at hm
    | closing | plus | minus | times | slash | power => rfl

theorem join_product_stop (h : Stops 1 rest) :
    Term.join (fuel + 1) .product t rest = some (t, rest) := by
  cases rest with
  | nil => rfl
  | cons l rest =>
    obtain ⟨m, rfl, hm⟩ := h l rfl
    cases m with
    | closing | plus | minus => rfl
    | opening | times | slash | power => simp [Mark.level] at hm

theorem join_sum_stop (h : Stops 0 rest) : Term.join (fuel + 1) .sum t rest = some (t, rest) := by
  cases rest with
  | nil => rfl
  | cons l rest =>
    obtain ⟨m, rfl, hm⟩ := h l rfl
    cases m with
    | closing => rfl
    | opening | plus | minus | times | slash | power => simp [Mark.level] at hm

end

namespace Form
variable {T l r : Form Literal} {rest : List Lexeme} {fuel k : Nat}

def lexemes (T : Form Literal) : List Lexeme := T.elements.map Element.lexeme

def size (T : Form Literal) : Nat := T.elements.length

/-- A tree is read at a rank, whatever follows that stops it. Sums and products go on to be joined.
Fuel for the depth of the descent is counted by the elements. -/
def Reads (T : Form Literal) : Nat → Prop
  | 0 => ∀ fuel rest, Stops 1 rest → 16 * T.size ≤ fuel + 11 → ∃ more, fuel ≤ more + T.size ∧
      Term.read fuel .sum (T.lexemes ++ rest) = Term.join more .sum (T.term Literal.term) rest
  | 1 => ∀ fuel rest, Stops 3 rest → 16 * T.size ≤ fuel + 12 → ∃ more, fuel ≤ more + T.size ∧
      Term.read fuel .product (T.lexemes ++ rest) =
        Term.join more .product (T.term Literal.term) rest
  | 2 => ∀ fuel rest, Stops 3 rest → 16 * T.size ≤ fuel + 13 →
      Term.read fuel .sign (T.lexemes ++ rest) = some (T.term Literal.term, rest)
  | 3 => ∀ fuel rest, Stops 3 rest → 16 * T.size ≤ fuel + 14 →
      Term.read fuel .power (T.lexemes ++ rest) = some (T.term Literal.term, rest)
  | _ => ∀ fuel rest, 16 * T.size ≤ fuel + 15 →
      Term.atom fuel (T.lexemes ++ rest) = some (T.term Literal.term, rest)

theorem size_pos (T : Form Literal) : 0 < T.size := by
  cases T <;> simp [size, elements]

theorem head_tight (T : Form Literal) (h : T.WellFormed) (hrank : 2 < T.rank) :
    ∃ e tail, T.elements = e :: tail ∧
    ((∃ l, e = .atom l) ∨ e = .mark .opening) := by
  induction T with
  | leaf a => exact ⟨_, _, rfl, .inl ⟨a, rfl⟩⟩
  | group t ih => exact ⟨_, _, rfl, .inr rfl⟩
  | sign s t ih => simp [rank] at hrank
  | binary op l r ihl ihr =>
    cases op with
    | pow =>
      obtain ⟨hleft, -, hl, -⟩ := h
      obtain ⟨e, tail, helements, he⟩ := ihl hl (by simp only [Operation.leftRank] at hleft; omega)
      exact ⟨e, tail ++ .mark .power :: r.elements, by rw [elements, helements]; rfl, he⟩
    | add | sub | mul | div => simp [rank, Operation.rank] at hrank

theorem Reads.power (h : T.Reads 4) : T.Reads 3 := by
  intro fuel rest hstop hfuel
  have hpos := T.size_pos
  obtain ⟨fuel, rfl⟩ : ∃ f, fuel = f + 2 := ⟨fuel - 2, by omega⟩
  have hatom := h (fuel + 1) rest (by omega)
  rw [Term.read, hatom]
  simp only [Option.bind_eq_bind, Option.bind_some, trailers_stop (hstop.mono (by decide))]
  cases rest with
  | nil => rfl
  | cons l rest =>
    obtain ⟨m, rfl, hm⟩ := hstop l rfl
    cases m with
    | closing | plus | minus | times | slash => rfl
    | opening | power => simp [Mark.level] at hm

theorem Reads.sign (hwf : T.WellFormed) (hrank : 2 < T.rank) (h : T.Reads 3) : T.Reads 2 := by
  intro fuel rest hstop hfuel
  have hpos := T.size_pos
  obtain ⟨fuel, rfl⟩ : ∃ f, fuel = f + 1 := ⟨fuel - 1, by omega⟩
  rw [← h fuel rest hstop (by omega)]
  obtain ⟨e, tail, helements, ⟨l, rfl⟩ | rfl⟩ := head_tight T hwf hrank
  · rw [lexemes, helements]
    rfl
  · rw [lexemes, helements]
    rfl

theorem Reads.product (h : T.Reads 2) : T.Reads 1 := by
  intro fuel rest hstop hfuel
  have hpos := T.size_pos
  obtain ⟨fuel, rfl⟩ : ∃ f, fuel = f + 1 := ⟨fuel - 1, by omega⟩
  refine ⟨fuel, by omega, ?_⟩
  rw [read_joined (by simp)]
  simp only [Term.Level.tighter]
  rw [h fuel rest hstop (by omega)]
  rfl

/-- A product that nothing continues. -/
theorem Reads.product_stop (h : T.Reads 1) (hstop : Stops 1 rest)
    (hfuel : 16 * T.size ≤ fuel + 12) :
    Term.read fuel .product (T.lexemes ++ rest) = some (T.term Literal.term, rest) := by
  obtain ⟨more, hmore, hread⟩ := h fuel rest (hstop.mono (by decide)) hfuel
  have hpos := T.size_pos
  obtain ⟨more, rfl⟩ : ∃ f, more = f + 1 := ⟨more - 1, by omega⟩
  rw [hread, join_product_stop hstop]

theorem Reads.sum (h : T.Reads 1) : T.Reads 0 := by
  intro fuel rest hstop hfuel
  have hpos := T.size_pos
  obtain ⟨fuel, rfl⟩ : ∃ f, fuel = f + 1 := ⟨fuel - 1, by omega⟩
  refine ⟨fuel, by omega, ?_⟩
  rw [read_joined (by simp)]
  simp only [Term.Level.tighter]
  rw [h.product_stop hstop (by omega)]
  rfl

/-- What is read at a rank is read at a looser one. -/
theorem Reads.loosen (hwf : T.WellFormed) (hrank : k < T.rank) (h : T.Reads (k + 1)) :
    T.Reads k := by
  have := T.rank_le
  rcases k with - | - | - | - | k
  · exact h.sum
  · exact h.product
  · exact h.sign hwf hrank
  · exact h.power
  · omega

theorem Reads.of_rank (hwf : T.WellFormed) (h : T.Reads T.rank) (hk : k ≤ T.rank) : T.Reads k := by
  obtain ⟨d, hd⟩ := Nat.exists_eq_add_of_le hk
  induction d generalizing k with
  | zero =>
    rw [Nat.add_zero] at hd
    rwa [← hd]
  | succ d ih => exact Reads.loosen hwf (by omega) (ih (by omega) (by omega))

theorem join_loose_stop {level : Term.Level} {t : Term}
    (hlevel : level ∈ [.either, .both, .exclusive]) (h : Stops 0 rest) :
    Term.join (fuel + 1) level t rest = some (t, rest) := by
  simp only [List.mem_cons, List.not_mem_nil, or_false] at hlevel
  cases rest with
  | nil => rcases hlevel with rfl | rfl | rfl <;> rfl
  | cons l rest =>
    obtain ⟨m, rfl, hm⟩ := h l rfl
    cases m with
    | closing => rcases hlevel with rfl | rfl | rfl <;> rfl
    | opening | plus | minus | times | slash | power => simp [Mark.level] at hm

theorem chain_stop (h : Stops 0 rest) : Term.chain (fuel + 1) rest = some ([], rest) := by
  cases rest with
  | nil => rfl
  | cons l rest =>
    obtain ⟨m, rfl, hm⟩ := h l rfl
    cases m with
    | closing => rfl
    | opening | plus | minus | times | slash | power => simp [Mark.level] at hm

/-- A tree is read at the loosest level of all. -/
theorem Reads.either (h : T.Reads 0) (hstop : Stops 0 rest) (hfuel : 16 * T.size ≤ fuel + 6) :
    Term.read fuel .either (T.lexemes ++ rest) = some (T.term Literal.term, rest) := by
  have hpos := T.size_pos
  obtain ⟨fuel, rfl⟩ : ∃ f, fuel = f + 6 := ⟨fuel - 6, by omega⟩
  obtain ⟨more, hmore, hsum⟩ := h (fuel + 1) rest (hstop.mono (by decide)) (by omega)
  obtain ⟨more, rfl⟩ : ∃ f, more = f + 1 := ⟨more - 1, by omega⟩
  rw [join_sum_stop hstop] at hsum
  have hexclusive : Term.read (fuel + 2) .exclusive (T.lexemes ++ rest) =
      some (T.term Literal.term, rest) := by
    rw [read_joined (by simp)]
    simp only [Term.Level.tighter, hsum, Option.bind_some]
    exact join_loose_stop (by simp) hstop
  have hcomparison : Term.read (fuel + 3) .comparison (T.lexemes ++ rest) =
      some (T.term Literal.term, rest) := by
    rw [Term.read, hexclusive]
    simp only [Option.bind_eq_bind, Option.bind_some, chain_stop hstop]
    rfl
  have hnegation : Term.read (fuel + 4) .negation (T.lexemes ++ rest) =
      some (T.term Literal.term, rest) := by
    rw [← hcomparison]
    obtain ⟨e, tail, helements, -⟩ := elements_head T
    rw [lexemes, helements]
    cases e <;> rfl
  have hboth : Term.read (fuel + 5) .both (T.lexemes ++ rest) =
      some (T.term Literal.term, rest) := by
    rw [read_joined (by simp)]
    simp only [Term.Level.tighter, hnegation, Option.bind_some]
    exact join_loose_stop (by simp) hstop
  rw [read_joined (by simp)]
  simp only [Term.Level.tighter, hboth, Option.bind_some]
  exact join_loose_stop (by simp) hstop

theorem stops_closing (ls : List Lexeme) : Stops 0 (.symbol ")" :: ls) := by
  intro l hl
  exact ⟨.closing, by simpa [Mark.symbol] using hl.symm, le_refl _⟩

theorem reads_leaf (a : Literal) : (leaf a).Reads 4 := by
  intro fuel rest hfuel
  obtain ⟨fuel, rfl⟩ : ∃ f, fuel = f + 1 := ⟨fuel - 1, by simp [size, elements] at hfuel; omega⟩
  change Term.atom (fuel + 1) (.numeral a.found.numeral :: rest) = some (.literal a.value, rest)
  rw [Term.atom, a.means]
  rfl

theorem reads_group {t : Form Literal} (h : t.Reads 0) : (group t).Reads 4 := by
  intro fuel rest hfuel
  have hsize : (group t).size = t.size + 2 := by simp [size, elements]
  have hpos := t.size_pos
  obtain ⟨fuel, rfl⟩ : ∃ f, fuel = f + 3 := ⟨fuel - 3, by omega⟩
  have hlexemes : (group t).lexemes ++ rest = .symbol "(" ::
      (t.lexemes ++ .symbol ")" :: rest) := by
    simp [lexemes, elements, Element.lexeme, Mark.symbol]
  have hinner : Term.read fuel .either (t.lexemes ++ .symbol ")" :: rest) =
      some (t.term Literal.term, .symbol ")" :: rest) := h.either (stops_closing rest) (by omega)
  have hitems : Term.rowItems (fuel + 1) ")" (t.lexemes ++ .symbol ")" :: rest) =
      some ([t.term Literal.term], true, rest) := by
    rw [Term.rowItems, hinner]
    rfl
  have hrow : Term.row (fuel + 2) ")" (t.lexemes ++ .symbol ")" :: rest) =
      some ([t.term Literal.term], true, rest) := by
    rw [← hitems]
    obtain ⟨e, tail, helements, hstarts⟩ := elements_head t
    rw [lexemes, helements]
    cases e with
    | atom l => rfl
    | mark m =>
      cases m with
      | opening | plus | minus => rfl
      | closing | times | slash | power => cases hstarts
  rw [hlexemes, Term.atom, hrow]
  rfl

theorem reads_sign (s : Unary) {t : Form Literal} (h : t.Reads 2) : (sign s t).Reads 2 := by
  intro fuel rest hstop hfuel
  have hsize : (sign s t).size = t.size + 1 := by simp [size, elements]
  have hpos := t.size_pos
  obtain ⟨fuel, rfl⟩ : ∃ f, fuel = f + 1 := ⟨fuel - 1, by omega⟩
  have hread := h fuel rest hstop (by omega)
  have hlexemes : (sign s t).lexemes ++ rest = .symbol s.mark.symbol :: (t.lexemes ++ rest) := rfl
  rw [hlexemes]
  cases s <;> simp [Unary.mark, Mark.symbol, Term.read, hread, term, Unary.term]

theorem reads_pow (hl : l.Reads 4) (hr : r.Reads 2) : (binary .pow l r).Reads 3 := by
  intro fuel rest hstop hfuel
  have hsize : (binary .pow l r).size = l.size + r.size + 1 := by simp [size, elements]; omega
  obtain ⟨fuel, rfl⟩ : ∃ f, fuel = f + 2 := ⟨fuel - 2, by omega⟩
  have hlexemes : (binary .pow l r).lexemes ++ rest = l.lexemes ++
      .symbol "**" :: (r.lexemes ++ rest) := by
    simp [lexemes, elements, Element.lexeme, Operation.mark, Mark.symbol]
  have hpower : Stops 4 (.symbol "**" :: (r.lexemes ++ rest)) := fun x hx =>
    ⟨.power, by simpa [Mark.symbol] using hx.symm, le_refl _⟩
  rw [hlexemes, Term.read, hl (fuel + 1) _ (by omega)]
  simp only [Option.bind_eq_bind, Option.bind_some, trailers_stop hpower,
    hr (fuel + 1) rest hstop (by omega)]
  rfl

/-- A row of operands with operators of one level between them is joined from left to right. -/
theorem reads_joined {op : Operation} {level : Term.Level} {k slack : Nat} (hk : op.mark.level ≤ k)
    (hslack : slack ≤ 12) (hop : Term.joining? level (.symbol op.mark.symbol) =
      some (.binary op.op))
    (hl : ∀ fuel rest, Stops k rest → 16 * l.size ≤ fuel + slack → ∃ more, fuel ≤ more + l.size ∧
      Term.read fuel level (l.lexemes ++ rest) = Term.join more level (l.term Literal.term) rest)
    (hr : ∀ fuel rest, Stops k rest → 16 * r.size ≤ fuel + 12 →
      Term.read fuel level.tighter (r.lexemes ++ rest) = some (r.term Literal.term, rest))
    (fuel : Nat) (rest : List Lexeme) (hstop : Stops k rest)
    (hfuel : 16 * (binary op l r).size ≤ fuel + slack) :
    ∃ more, fuel ≤ more + (binary op l r).size ∧
      Term.read fuel level ((binary op l r).lexemes ++ rest) =
      Term.join more level ((binary op l r).term Literal.term) rest := by
  have hsize : (binary op l r).size = l.size + r.size + 1 := by simp [size, elements]; omega
  have hlexemes : (binary op l r).lexemes ++ rest = l.lexemes ++
      .symbol op.mark.symbol :: (r.lexemes ++ rest) := by
    simp [lexemes, elements, Element.lexeme]
  have hnext : Stops k (.symbol op.mark.symbol :: (r.lexemes ++ rest)) := by
    intro x hx
    exact ⟨op.mark, by simpa using hx.symm, hk⟩
  obtain ⟨more, hmore, hread⟩ := hl fuel _ hnext (by omega)
  have hpos := r.size_pos
  obtain ⟨more, rfl⟩ : ∃ f, more = f + 1 := ⟨more - 1, by omega⟩
  refine ⟨more, by omega, ?_⟩
  rw [hlexemes, hread, Term.join]
  simp only [hop, hr more rest hstop (by omega), Option.bind_eq_bind, Option.bind_some, term]

theorem reads_product {op : Operation} (hop : op = .mul ∨ op = .div) (hl : l.Reads 1)
    (hr : r.Reads 2) : (binary op l r).Reads 1 := by
  have hright : ∀ fuel rest, Stops 3 rest → 16 * r.size ≤ fuel + 12 →
      Term.read fuel .sign (r.lexemes ++ rest) = some (r.term Literal.term, rest) :=
    fun fuel rest hstop hfuel => hr fuel rest hstop (by omega)
  rcases hop with rfl | rfl <;> exact reads_joined (by decide) (le_refl _) rfl hl hright

theorem reads_sum {op : Operation} (hop : op = .add ∨ op = .sub) (hl : l.Reads 0) (hr : r.Reads 1) :
    (binary op l r).Reads 0 := by
  have hright : ∀ fuel rest, Stops 1 rest → 16 * r.size ≤ fuel + 12 →
      Term.read fuel .product (r.lexemes ++ rest) = some (r.term Literal.term, rest) :=
    fun fuel rest hstop hfuel => hr.product_stop hstop hfuel
  rcases hop with rfl | rfl <;> exact reads_joined (by decide) (by decide) rfl hl hright

/-- Every tree is read as it stands. -/
theorem reads (T : Form Literal) (hwf : T.WellFormed) : T.Reads T.rank := by
  induction T with
  | leaf a => exact reads_leaf a
  | group t ih => exact reads_group (Reads.of_rank hwf (ih hwf) (Nat.zero_le _))
  | sign s t ih => exact reads_sign s (Reads.of_rank hwf.2 (ih hwf.2) hwf.1)
  | binary op l r ihl ihr =>
    obtain ⟨hleft, hright, hl, hr⟩ := hwf
    have hreadl := Reads.of_rank hl (ihl hl) hleft
    have hreadr := Reads.of_rank hr (ihr hr) hright
    cases op with
    | add => exact reads_sum (.inl rfl) hreadl hreadr
    | sub => exact reads_sum (.inr rfl) hreadl hreadr
    | mul => exact reads_product (.inl rfl) hreadl hreadr
    | div => exact reads_product (.inr rfl) hreadl hreadr
    | pow => exact reads_pow hreadl hreadr

theorem readRow_elements (hwf : T.WellFormed) :
    Term.readRow (16 * (T.elements.length + 2)) (T.elements.map Element.lexeme) =
      some ([T.term Literal.term], true) := by
  have hsum : T.Reads 0 := Reads.of_rank hwf (T.reads hwf) (Nat.zero_le _)
  have hread : Term.read (16 * T.size + 31) .either (T.lexemes ++ []) =
      some (T.term Literal.term, []) :=
    hsum.either (by simp [Stops]) (by omega)
  rw [List.append_nil] at hread
  change Term.readRow (16 * T.size + 31 + 1) T.lexemes = _
  rw [Term.readRow, hread]
  rfl

end Form

def Term.result (t : Term) : Except Fault Float :=
  if Term.depthLimit < t.depth then .error .tooNested else t.value.bind Value.toFloat

/-- A text that spells a tree has the value of that tree, within the limits on nesting. -/
theorem evaluateInfix_spelled {T : Form Literal} (hwf : T.WellFormed) {cs : List Char}
    (h : Spells Literal.text T.elements cs) (hhead : ∀ c ∈ cs.head?, isSpacing c = false) :
    (T.nesting ≤ bracketLimit → evaluateInfix cs = (T.term Literal.term).result) ∧
      (¬ T.nesting ≤ bracketLimit → ∃ f, evaluateInfix cs = .error f) := by
  obtain ⟨e, tail, helements, -⟩ := T.elements_head
  have hnests : Nests 0 T.elements ↔ T.nesting ≤ bracketLimit := by
    have := T.nests_elements (Nat.zero_le bracketLimit) []
    rw [List.append_nil] at this
    simpa [Nests] using this
  obtain ⟨hread, hfail⟩ :=
    ofChars_spelled h (by rw [helements]; simp) T.elements_chain hhead (Form.readRow_elements hwf)
  rw [← hnests]
  constructor
  · intro hdeep
    rw [evaluateInfix, hread hdeep, Term.result]
    split <;> rfl
  · intro hdeep
    obtain ⟨f, hf⟩ := hfail hdeep
    exact ⟨f, by rw [evaluateInfix, hf]; rfl⟩

end Machining.Expression
