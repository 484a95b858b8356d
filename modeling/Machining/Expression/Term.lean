import Machining.Expression.Arithmetic
import Machining.Expression.Lexeme

namespace Machining.Expression

inductive Term where
  | literal (v : Value)
  | name (s : String)
  | list (ts : List Term)
  | tuple (ts : List Term)
  | plus (t : Term)
  | minus (t : Term)
  | binary (op : BinaryOp) (l r : Term)
  /-- A chain such as `a < b <= c`. -/
  | compare (first : Term) (rest : List (Comparison × Term))
  | negation (t : Term)
  | both (l r : Term)
  | either (l r : Term)
  | call (f : Term) (args : List Term)
  | index (t i : Term)
  deriving Repr

namespace Term

def compareOp? : Lexeme → Option Comparison
  | .symbol "==" => some .eq
  | .symbol "!=" => some .ne
  | .symbol "<" => some .lt
  | .symbol "<=" => some .le
  | .symbol ">" => some .gt
  | .symbol ">=" => some .ge
  | _ => none

/-- How tightly an operator between two operands binds. -/
inductive Level where
  | either | both | negation | comparison | exclusive | sum | product | sign | power
  deriving DecidableEq, Repr

/-- The operator that joins operands from left to right at a level. -/
def joining? (level : Level) (l : Lexeme) : Option (Term → Term → Term) :=
  match level, l with
  | .either, .name "or" => some either
  | .both, .name "and" => some both
  | .exclusive, .symbol "^" => some (binary .xor)
  | .sum, .symbol "+" => some (binary .add)
  | .sum, .symbol "-" => some (binary .sub)
  | .product, .symbol "*" => some (binary .mul)
  | .product, .symbol "/" => some (binary .div)
  | .product, .symbol "//" => some (binary .floorDiv)
  | .product, .symbol "%" => some (binary .mod)
  | _, _ => none

/-- The level of the operands. -/
def Level.tighter : Level → Level
  | .either => .both
  | .both => .negation
  | .negation => .comparison
  | .comparison => .exclusive
  | .exclusive => .sum
  | .sum => .product
  | .product => .sign
  | .sign => .power
  | .power => .power

def atomName? (s : String) : Option Term :=
  match s with
  | "True" => some (literal (.bool true))
  | "False" => some (literal (.bool false))
  | "None" => some (literal .nothing)
  | s => if reserved.contains s then none else some (name s)

def atomNumeral? : Numeral → Option Term
  | .real n => some (literal (.num n))
  | .imaginary x => some (literal (.complex ⟨0.0, x⟩))
  | .overlong _ => none

mutual

/-- A term of a level and the lexemes behind it. The fuel bounds the depth of the descent. -/
def read : Nat → Level → List Lexeme → Option (Term × List Lexeme)
  | 0, _, _ => none
  | fuel + 1, level, ls =>
    match level with
    | .negation =>
      match ls with
      | .name "not" :: ls => (read fuel .negation ls).map fun (t, ls) => (negation t, ls)
      | ls => read fuel .comparison ls
    | .comparison => do
      let (first, ls) ← read fuel .exclusive ls
      let (rest, ls) ← chain fuel ls
      return (if rest.isEmpty then first else compare first rest, ls)
    | .sign =>
      match ls with
      | .symbol "+" :: ls => (read fuel .sign ls).map fun (t, ls) => (plus t, ls)
      | .symbol "-" :: ls => (read fuel .sign ls).map fun (t, ls) => (minus t, ls)
      | ls => read fuel .power ls
    | .power => do
      let (base, ls) ← atom fuel ls
      let (base, ls) ← trailers fuel base ls
      match ls with
      | .symbol "**" :: ls =>
        let (exponent, ls) ← read fuel .sign ls
        return (binary .pow base exponent, ls)
      | ls => return (base, ls)
    | level => do
      let (first, ls) ← read fuel level.tighter ls
      join fuel level first ls

/-- Further operands of a level, joined from left to right. -/
def join : Nat → Level → Term → List Lexeme → Option (Term × List Lexeme)
  | 0, _, _, _ => none
  | fuel + 1, level, left, ls =>
    match ls with
    | l :: rest =>
      match joining? level l with
      | some op => do
        let (right, ls) ← read fuel level.tighter rest
        join fuel level (op left right) ls
      | none => some (left, ls)
    | [] => some (left, [])

/-- Further members of a comparison. -/
def chain : Nat → List Lexeme → Option (List (Comparison × Term) × List Lexeme)
  | 0, _ => none
  | fuel + 1, ls =>
    match ls with
    | l :: rest =>
      match compareOp? l with
      | some op => do
        let (t, ls) ← read fuel .exclusive rest
        let (more, ls) ← chain fuel ls
        return ((op, t) :: more, ls)
      | none => some ([], ls)
    | [] => some ([], [])

def atom : Nat → List Lexeme → Option (Term × List Lexeme)
  | 0, _ => none
  | fuel + 1, ls =>
    match ls with
    | .numeral n :: ls => (atomNumeral? n).map (·, ls)
    | .name s :: ls => (atomName? s).map (·, ls)
    | .symbol "(" :: ls => do
      let (ts, single, ls) ← row fuel ")" ls
      return (match ts, single with
        | [t], true => t
        | ts, _ => tuple ts, ls)
    | .symbol "[" :: ls => do
      let (ts, _, ls) ← row fuel "]" ls
      return (list ts, ls)
    | _ => none

/-- Terms up to a closing bracket; the flag tells that no comma stood among them. -/
def row : Nat → String → List Lexeme → Option (List Term × Bool × List Lexeme)
  | 0, _, _ => none
  | fuel + 1, close, ls =>
    match ls with
    | .symbol s :: rest => if s = close then some ([], false, rest) else rowItems fuel close ls
    | ls => rowItems fuel close ls

def rowItems : Nat → String → List Lexeme → Option (List Term × Bool × List Lexeme)
  | 0, _, _ => none
  | fuel + 1, close, ls => do
    let (t, ls) ← read fuel .either ls
    match ls with
    | .symbol "," :: ls =>
      let (ts, _, ls) ← row fuel close ls
      return (t :: ts, false, ls)
    | .symbol s :: ls => if s = close then return ([t], true, ls) else none
    | _ => none

/-- Arguments and subscripts behind a term. -/
def trailers : Nat → Term → List Lexeme → Option (Term × List Lexeme)
  | 0, _, _ => none
  | fuel + 1, t, ls =>
    match ls with
    | .symbol "(" :: ls => do
      let (args, _, ls) ← row fuel ")" ls
      trailers fuel (call t args) ls
    | .symbol "[" :: ls => do
      let (ts, single, ls) ← row fuel "]" ls
      match ts, single with
      | [], _ => none
      | [i], true => trailers fuel (index t i) ls
      | ts, _ => trailers fuel (index t (tuple ts)) ls
    | ls => some (t, ls)

end

/-- A term, or several with commas between them, up to the end. -/
def readRow : Nat → List Lexeme → Option (List Term × Bool)
  | 0, _ => none
  | fuel + 1, ls => do
    let (t, ls) ← read fuel .either ls
    match ls with
    | [] => return ([t], true)
    | [.symbol ","] => return ([t], false)
    | .symbol "," :: ls =>
      let (ts, _) ← readRow fuel ls
      return (t :: ts, false)
    | _ => none

mutual

/-- How deep the operators of a term nest. A chain of `and` or of `or` is one level. -/
def depth : Term → Nat
  | literal _ => 1
  | name _ => 1
  | list ts => depthOf ts + 1
  | tuple ts => depthOf ts + 1
  | plus t => depth t + 1
  | minus t => depth t + 1
  | binary _ l r => max (depth l) (depth r) + 1
  | compare first rest => max (depth first) (depthOfChain rest) + 1
  | negation t => depth t + 1
  | both (both l m) r => max (depth (both l m)) (depth r + 1)
  | both l r => max (depth l) (depth r) + 1
  | either (either l m) r => max (depth (either l m)) (depth r + 1)
  | either l r => max (depth l) (depth r) + 1
  | call f args => max (depth f) (depthOf args) + 1
  | index t i => max (depth t) (depth i) + 1

def depthOf : List Term → Nat
  | [] => 0
  | t :: ts => max (depth t) (depthOf ts)

def depthOfChain : List (Comparison × Term) → Nat
  | [] => 0
  | (_, t) :: rest => max (depth t) (depthOfChain rest)

end

/-- The only line of a text, without its end; none if there are more lines. -/
def onlyLine? : List Lexeme → Option (List Lexeme)
  | [] => none
  | .finish :: _ => some []
  | .lineEnd :: ls =>
    match onlyLine? ls with
    | some [] => some []
    | _ => none
  | l :: ls => (onlyLine? ls).map (l :: ·)

/-- The term that lexemes write. From loosest to tightest bind `or`, `and`, `not`, comparisons,
exclusive or, sums, products, signs and powers; a power takes a sign in its exponent. -/
def ofLexemes? (ls : List Lexeme) : Option Term := do
  let ls ← onlyLine? ls
  let (ts, single) ← readRow (16 * (ls.length + 2)) ls
  match ts, single with
  | [t], true => return t
  | ts, _ => return tuple ts

end Term
end Machining.Expression
