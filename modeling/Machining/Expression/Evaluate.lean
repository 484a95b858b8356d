import Machining.Expression.Builtin
import Machining.Expression.Diagnosis
import Machining.Expression.Term
import Machining.Text.Normal
import Machining.Text.Unit

namespace Machining.Expression

/-- What a name stands for, whichever way it is spelled. -/
def lookup (s : String) : Except Fault Value :=
  let s := Text.plainSpelling s
  if s = "__debug__" then .ok (.bool true)
  else if s = "__builtins__" then .ok .names
  else match Builtin.all.find? fun f => f.name = s with
    | some f => .ok (.builtin f)
    | none => .error (.unknownName s)

/-- A member of a row; negative positions count from its end. -/
def member (row : String) (vs : List Value) (i : Int) : Except Fault Value :=
  if twoTo 63 ≤ i ∨ i < -(twoTo 63 : Int) then .error .indexTooLarge
  else
    let i := if i < 0 then i + vs.length else i
    if i < 0 then .error (.memberOutOfRange row)
    else match vs[i.toNat]? with
      | some v => .ok v
      | none => .error (.memberOutOfRange row)

def memberAt (row : String) (vs : List Value) (i : Value) : Except Fault Value :=
  match i.whole? with
  | some n => member row vs n
  | none => .error (.notAnIndex row i.kind)

def subscript : Value → Value → Except Fault Value
  | .list vs, i => memberAt "list" vs i
  | .tuple vs, i => memberAt "tuple" vs i
  | .names, i =>
    match i.changeable? with
    | some kind => .error (.notAKey kind)
    | none => .error (.missingKey i.text)
  | v, _ => .error (.notSubscriptable v.kind)

def apply : Value → List Value → Except Fault Value
  | .builtin f, args => f.call args
  | v, _ => .error (.notCallable v.kind)

namespace Term

mutual

def value : Term → Except Fault Value
  | literal v => .ok v
  | name s => lookup s
  | list ts => return .list (← values ts)
  | tuple ts => return .tuple (← values ts)
  | plus t => do Expression.plus (← value t)
  | minus t => do Expression.negate (← value t)
  | binary op l r => do
    let a ← value l
    let b ← value r
    Expression.binary op a b
  | compare first rest => do compareAll (← value first) rest
  | negation t => return .bool (!(← value t).truth)
  | both l r => do
    let a ← value l
    if a.truth then value r else return a
  | either l r => do
    let a ← value l
    if a.truth then return a else value r
  | call f args => do
    let f ← value f
    let vs ← values args
    apply f vs
  | index t i => do
    let v ← value t
    let i ← value i
    subscript v i

def values : List Term → Except Fault (List Value)
  | [] => .ok []
  | t :: ts => do
    let v ← value t
    let vs ← values ts
    return v :: vs

/-- A chain holds if each of its comparisons does; the first that fails ends it. -/
def compareAll (left : Value) : List (Comparison × Term) → Except Fault Value
  | [] => .ok (.bool true)
  | (op, t) :: rest => do
    let right ← value t
    if ← comparison op left right then compareAll right rest else return .bool false

end

/-- Operators nest no deeper than this. -/
def depthLimit : Nat := 2980

/-- The term that a text writes. What is wrong with the text is found out only if it writes none. -/
def ofChars (cs : List Char) : Except Fault Term :=
  match Text.loneUnits? cs with
  | some (start, count, unit) => .error (.halfCharacters start count unit)
  | none =>
    if cs.any fun c => c.toNat = 0 then .error .textEndsEarly
    else
      let ls := lexemes cs
      match ofLexemes? (ls.map Placed.lexeme) with
      | some t => if depthLimit < t.depth then .error .tooNested else .ok t
      | none =>
        let c := diagnose ls.toArray
        .error (.malformed c.reason c.line)

end Term

/-- The number that an infix text stands for. The forms of `Term` are read and no others: texts with
strings, attributes, conditionals, membership, slices, keyword arguments, comprehensions or
operators on single bits are malformed here. -/
def evaluateInfix (cs : List Char) : Except Fault Float := do
  (← (← Term.ofChars cs).value).toFloat

/-- How infix texts are evaluated. An evaluation gives a number or a fault; the fault `endless`
means that it does not come back. What holds for every evaluator does not depend on the forms that
`evaluateInfix` reads. -/
class Evaluator where
  value : List Char → Except Fault Float

/-- Where nothing else is said, `evaluateInfix` evaluates. -/
instance Evaluator.standard : Evaluator := ⟨evaluateInfix⟩

end Machining.Expression
