import Machining.Decimal.Layout
import Machining.Fault

namespace Machining

/-- Numbers as programs and their callers give them: whole numbers of any size, which stay exact
among themselves, and binary64 values. Where no number was given there is a missing one, which
takes part in no arithmetic. -/
inductive Number where
  | int (n : Int)
  | float (x : Float)
  | missing
  deriving Repr

inductive Comparison where
  | eq | ne | lt | le | gt | ge
  deriving DecidableEq, Repr

def Comparison.symbol : Comparison → String
  | .eq => "=="
  | .ne => "!="
  | .lt => "<"
  | .le => "<="
  | .gt => ">"
  | .ge => ">="

namespace Number

instance : Inhabited Number := ⟨.int 0⟩

/-- The written form. -/
def text : Number → String
  | int n => Decimal.intText n
  | float x => Decimal.text x
  | missing => "None"

def kind : Number → String
  | int _ => "int"
  | float _ => "float"
  | missing => "NoneType"

/-- The nearest binary64 value of a number within their range. -/
def toFloat : Number → Except Fault Float
  | int n => match Binary64.ofInt? n with
    | some x => .ok x
    | none => .error .integerTooLarge
  | float x => .ok x
  | missing => .error (.notReal "NoneType")

/-- Order by exact value; none when a side is no number. -/
def compare? : Number → Number → Option Ordering
  | int a, int b => some (compare a b)
  | float x, float y =>
    if x < y then some .lt else if y < x then some .gt else if x == y then some .eq else none
  | int a, float y =>
    if y.isNaN then none
    else if y.isInf then some (if y < 0.0 then .gt else .lt)
    else some (Binary64.compareInt a y)
  | float x, int b =>
    if x.isNaN then none
    else if x.isInf then some (if x < 0.0 then .lt else .gt)
    else some (Binary64.compareInt b x).swap
  | _, _ => none

/-- Equality of value; a value that is no number differs from itself. -/
def same : Number → Number → Bool
  | missing, missing => true
  | a, b => compare? a b == some .eq

instance : BEq Number := ⟨same⟩

/-- Whether two numbers are in an order. Missing ones have none, and are only equal or not. -/
def holds (op : Comparison) (a b : Number) : Except Fault Bool :=
  match op, a, b with
  | .eq, a, b => .ok (a == b)
  | .ne, a, b => .ok (!(a == b))
  | op, missing, b => .error (.incomparable op.symbol "NoneType" b.kind)
  | op, a, missing => .error (.incomparable op.symbol a.kind "NoneType")
  | .lt, a, b => .ok (compare? a b == some .lt)
  | .le, a, b => .ok (compare? a b == some .lt || compare? a b == some .eq)
  | .gt, a, b => .ok (compare? a b == some .gt)
  | .ge, a, b => .ok (compare? a b == some .gt || compare? a b == some .eq)

def isZero (a : Number) : Bool := same a (int 0)

/-- Whole numbers stay whole; with a binary64 value among the operands the result is one, and a
whole number beside it has to be in its range. -/
def combine (op : String) (whole : Int → Int → Int) (real : Float → Float → Float) (a b : Number) :
    Except Fault Number :=
  match a, b with
  | int a, int b => .ok (int (whole a b))
  | missing, b => .error (.operands op "NoneType" b.kind)
  | a, missing => .error (.operands op a.kind "NoneType")
  | a, b => do
    let x ← a.toFloat
    let y ← b.toFloat
    return float (real x y)

def add : Number → Number → Except Fault Number := combine "+" (· + ·) (· + ·)

def sub : Number → Number → Except Fault Number := combine "-" (· - ·) (· - ·)

def mul : Number → Number → Except Fault Number := combine "*" (· * ·) (· * ·)

def abs : Number → Except Fault Number
  | int a => .ok (int a.natAbs)
  | float x => .ok (float x.abs)
  | missing => .error (.operand "abs()" "NoneType")

/-- The integer part. -/
def truncate : Number → Except Fault Int
  | int n => .ok n
  | float x =>
    if x.isNaN then .error .nanToInteger
    else if x.isInf then .error .infinityToInteger
    else .ok (Binary64.truncate x)
  | missing => .error (.notWhole "NoneType")

/-- Powers of finite values that overflow have no result. -/
def powFloat (x y : Float) : Except Fault Float :=
  let r := Float.pow x y
  if r.isInf && !x.isInf && !y.isInf then .error .powerTooLarge else .ok r

/-- The second power; the exponent passes through the same conversion as any other. -/
def square : Number → Except Fault Number
  | int a => .ok (int (a * a))
  | float x => (powFloat x (Binary64.ofInt 2)).map float
  | missing => .error (.operands "** or pow()" "NoneType" "int")

/-- A list of numbers in brackets. -/
def listText (xs : List Number) : String :=
  "[" ++ String.intercalate ", " (xs.map text) ++ "]"

end Number
end Machining
