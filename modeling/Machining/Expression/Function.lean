import Machining.Expression.Evaluate

namespace Machining.Expression

inductive Function where
  | abs | acos | asin | atan | cos | exp | fix | fup | ln | round | sin | sqrt | tan
  deriving DecidableEq, Repr

namespace Function

def all : List Function :=
  [abs, acos, asin, atan, cos, exp, fix, fup, ln, round, sin, sqrt, tan]

def name : Function → String
  | abs => "abs"
  | acos => "acos"
  | asin => "asin"
  | atan => "atan"
  | cos => "cos"
  | exp => "exp"
  | fix => "fix"
  | fup => "fup"
  | ln => "ln"
  | round => "round"
  | sin => "sin"
  | sqrt => "sqrt"
  | tan => "tan"

def ofName? (s : List Char) : Option Function := all.find? fun f => f.name.toList = s

/-- Results that are no number, or infinite, without the argument being so are faults. -/
def checked (infinite : Fault) (f : Float → Float) (x : Float) : Except Fault Number :=
  let r := f x
  if r.isNaN && !x.isNaN then .error .functionDomain
  else if r.isInf && !x.isInf && !x.isNaN then .error infinite
  else .ok (.float r)

/-- A whole number next to a finite argument. -/
def wholeNear (f : Float → Int) (x : Float) : Except Fault Number :=
  if x.isNaN then .error .nanToInteger
  else if x.isInf then .error .infinityToInteger
  else .ok (.int (f x))

/-- Angles are in radians; `fix` and `fup` round down and up. -/
def apply : Function → Float → Except Fault Number
  | abs, x => .ok (.float x.abs)
  | acos, x => checked .functionDomain Float.acos x
  | asin, x => checked .functionDomain Float.asin x
  | atan, x => checked .functionDomain Float.atan x
  | cos, x => checked .functionDomain Float.cos x
  | exp, x => checked .functionRange Float.exp x
  | fix, x => wholeNear Binary64.floor x
  | fup, x => wholeNear Binary64.ceil x
  | ln, x => checked .functionDomain Float.log x
  | round, x => wholeNear Binary64.roundEven x
  | sin, x => checked .functionDomain Float.sin x
  | sqrt, x => checked .functionDomain Float.sqrt x
  | tan, x => checked .functionDomain Float.tan x

end Function

/-- A call as written: small letters, then an argument in brackets that holds no closing one. -/
structure Call where
  name : List Char
  argument : List Char

def Call.text (c : Call) : List Char := c.name ++ '[' :: c.argument ++ [']']

def callAt? (cs : List Char) : Option Call :=
  let name := cs.takeWhile Char.isLower
  if name.isEmpty then none
  else match cs.drop name.length with
    | '[' :: rest =>
      let argument := rest.takeWhile (· ≠ ']')
      if argument.isEmpty || (rest.dropWhile (· ≠ ']')).isEmpty then none else some ⟨name, argument⟩
    | _ => none

/-- The written result of a call; calls of other names stay as they are. -/
def Call.replacement [Evaluator] (c : Call) : Except Fault (List Char) :=
  match Function.ofName? c.name with
  | some f => do
    let x ← Evaluator.value c.argument
    let r ← f.apply x
    return r.text.toList
  | none => .ok c.text

/-- One pass over the text; `skip` characters still belong to the call before. -/
def passFrom [Evaluator] : Nat → List Char → Except Fault (List Char)
  | _, [] => .ok []
  | skip + 1, _ :: cs => passFrom skip cs
  | 0, c :: cs =>
    match callAt? (c :: cs) with
    | some call => do
      let text ← call.replacement
      let rest ← passFrom (call.text.length - 1) cs
      return text ++ rest
    | none => do
      let rest ← passFrom 0 cs
      return c :: rest

def pass [Evaluator] (cs : List Char) : Except Fault (List Char) := passFrom 0 cs

def hasInfix (word : List Char) : List Char → Bool
  | [] => word.isEmpty
  | c :: cs => word.isPrefixOf (c :: cs) || hasInfix word cs

/-- Another pass is due while a bracket and the name of a function are left. -/
def pending (cs : List Char) : Bool :=
  cs.contains '[' && Function.all.any fun f => hasInfix f.name.toList cs

def settle [Evaluator] : Nat → List Char → Except Fault (List Char)
  | 0, cs => if pending cs then .error .endless else .ok cs
  | fuel + 1, cs => if pending cs then do settle fuel (← pass cs) else .ok cs

/-- Replace calls until none is due. A pass that changes anything uses up an opening bracket, so
after one pass more than there are brackets the text does not change any more. -/
def replaceFunctions [Evaluator] (cs : List Char) : Except Fault (List Char) :=
  settle (cs.count '[' + 1) cs

end Machining.Expression
