import Machining.Expression.Complex

namespace Machining.Expression

inductive Builtin where
  | abs | round | pow | min | max
  deriving DecidableEq, Repr

def Builtin.all : List Builtin := [.abs, .round, .pow, .min, .max]

def Builtin.name : Builtin → String
  | .abs => "abs"
  | .round => "round"
  | .pow => "pow"
  | .min => "min"
  | .max => "max"

inductive Value where
  | num (n : Number)
  | bool (b : Bool)
  | complex (c : Complex)
  | list (vs : List Value)
  | tuple (vs : List Value)
  | builtin (f : Builtin)
  /-- The table of names beside the built-in functions, which is empty. -/
  | names
  deriving Repr

namespace Value

def int (n : Int) : Value := num (.int n)

def float (x : Float) : Value := num (.float x)

def nothing : Value := num .missing

def kind : Value → String
  | num n => n.kind
  | bool _ => "bool"
  | complex _ => "complex"
  | list _ => "list"
  | tuple _ => "tuple"
  | builtin _ => "builtin_function_or_method"
  | names => "dict"

/-- The whole number that a truth value counts as. -/
def ofTruth (b : Bool) : Int := if b then 1 else 0

/-- The whole number that a value is. -/
def whole? : Value → Option Int
  | num (.int n) => some n
  | bool b => some (ofTruth b)
  | _ => none

/-- The real number that a value is. -/
def real? : Value → Option Number
  | num (.int n) => some (.int n)
  | num (.float x) => some (.float x)
  | bool b => some (.int (ofTruth b))
  | _ => none

/-- Zero, nothing and empty rows are false. -/
def truth : Value → Bool
  | num .missing => false
  | num n => !n.isZero
  | bool b => b
  | complex c => !c.isZero
  | list vs => !vs.isEmpty
  | tuple vs => !vs.isEmpty
  | builtin _ => true
  | names => false

/-- The number as which the result of an expression counts. -/
def toFloat (v : Value) : Except Fault Float :=
  match v.real? with
  | some n => n.toFloat
  | none => .error (.notReal v.kind)

/-- Whether a value is a number, real or complex. -/
def isNumber : Value → Bool
  | complex _ => true
  | v => v.real?.isSome

def toComplex : Value → Except Fault Complex
  | complex c => .ok c
  | v => v.toFloat.map .ofReal

mutual

/-- The written form. -/
def text : Value → String
  | num n => n.text
  | bool true => "True"
  | bool false => "False"
  | complex c => c.text
  | list vs => "[" ++ rowText vs ++ "]"
  | tuple [v] => "(" ++ text v ++ ",)"
  | tuple vs => "(" ++ rowText vs ++ ")"
  | builtin f => s!"<built-in function {f.name}>"
  | names => "\x7b\x7d"

def rowText : List Value → String
  | [] => ""
  | [v] => text v
  | v :: vs => text v ++ ", " ++ rowText vs

end

mutual

/-- The kind of the first value that cannot be a key of a table: keys are values that do not
change. -/
def changeable? : Value → Option String
  | list _ => some "list"
  | names => some "dict"
  | tuple vs => changeableIn? vs
  | _ => none

def changeableIn? : List Value → Option String
  | [] => none
  | v :: vs => (changeable? v).or (changeableIn? vs)

end

end Value
end Machining.Expression
