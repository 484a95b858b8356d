import Machining.Expression.Value

namespace Machining.Expression

/-- Floats lose the fraction of a quotient downwards, and its remainder has the sign of the
divisor. -/
def floatMod (x y : Float) : Float :=
  if x.isNaN || y.isNaN || x.isInf then Binary64.notANumber
  else
    let r := if y.isInf then x else Binary64.remainder x y
    if r == 0.0 then Binary64.withSign (Binary64.signBit y) 0.0
    else if (y < 0.0) != (r < 0.0) then r + y else r

def floatFloorDiv (x y : Float) : Float :=
  if x.isNaN || y.isNaN || x.isInf then Binary64.notANumber
  else
    let r := if y.isInf then x else Binary64.remainder x y
    let q := (x - r) / y
    let q := if !(r == 0.0) && (y < 0.0) != (r < 0.0) then q - 1.0 else q
    if q == 0.0 then Binary64.withSign (Binary64.signBit x != Binary64.signBit y) 0.0
    else
      let f := q.floor
      if 0.5 < q - f then f + 1.0 else f

def isOdd (x : Float) : Bool := Binary64.remainder x.abs 2.0 == 1.0

/-- A power of floats: real, complex for a fractional power of a negative base, or a fault. -/
def floatPow (x y : Float) : Except Fault Value :=
  if y == 0.0 then .ok (.float 1.0)
  else if x.isNaN then .ok (.float x)
  else if y.isNaN then .ok (.float (if x == 1.0 then 1.0 else y))
  else if y.isInf then
    let a := x.abs
    .ok (.float (if a == 1.0 then 1.0 else if (0.0 < y) == (1.0 < a) then y.abs else 0.0))
  else if x.isInf then
    .ok (.float (if 0.0 < y then (if isOdd y then x else x.abs)
      else if isOdd y then Binary64.withSign (Binary64.signBit x) 0.0 else 0.0))
  else if x == 0.0 then
    if y < 0.0 then .error .zeroToNegativePower else .ok (.float (if isOdd y then x else 0.0))
  else if x < 0.0 then
    if y == y.floor then
      if x == -1.0 then .ok (.float (if isOdd y then -1.0 else 1.0))
      else (Number.powFloat (-x) y).map fun r => .float (if isOdd y then -r else r)
    else ((Complex.ofReal x).pow (.ofReal y)).map .complex
  else if x == 1.0 then .ok (.float 1.0)
  else (Number.powFloat x y).map .float

/-- Exclusive or of whole numbers in two's complement: a negative number is the complement of one
less than its magnitude. -/
def intXor (a b : Int) : Int :=
  let bits := fun n : Int => if n < 0 then n.natAbs - 1 else n.natAbs
  let r := bits a ^^^ bits b
  if (a < 0) != (b < 0) then -(r + 1 : Nat) else r

/-- A natural power of a whole number. Zero and the units have all powers; those of other numbers
have no result from the limit on. -/
def intPow (a : Int) (n : Nat) : Except Fault Int :=
  if a.natAbs ≤ 1 then .ok (if n = 0 then 1 else if n % 2 = 0 then a * a else a)
  else if n < twoTo 32 then .ok (Int.pow a n)
  else .error .integerTooLarge

/-- The quotient of whole numbers, rounded once. -/
def intDiv (a b : Int) : Except Fault Float :=
  if b = 0 then .error .divisionByZero
  else match Binary64.nearest? ((a < 0) != (b < 0)) a.natAbs b.natAbs with
    | some x => .ok x
    | none => .error .quotientTooLarge

inductive BinaryOp where
  | add | sub | mul | div | floorDiv | mod | pow | xor
  deriving DecidableEq, Repr

def BinaryOp.symbol : BinaryOp → String
  | .add => "+"
  | .sub => "-"
  | .mul => "*"
  | .div => "/"
  | .floorDiv => "//"
  | .mod => "%"
  | .pow => "** or pow()"
  | .xor => "^"

def wholeArith (op : BinaryOp) (a b : Int) : Except Fault Value :=
  match op with
  | .add => .ok (.int (a + b))
  | .sub => .ok (.int (a - b))
  | .mul => .ok (.int (a * b))
  | .div => (intDiv a b).map .float
  | .floorDiv => if b = 0 then .error .floorDivisionByZero else .ok (.int (a.fdiv b))
  | .mod => if b = 0 then .error .moduloByZero else .ok (.int (a.fmod b))
  | .pow =>
    if 0 ≤ b then (intPow a b.toNat).map .int
    else do
      let x ← (Number.int a).toFloat
      let y ← (Number.int b).toFloat
      floatPow x y
  | .xor => .ok (.int (intXor a b))

def unsupported (op : BinaryOp) (a b : Value) : Except Fault Value :=
  .error (.operands op.symbol a.kind b.kind)

/-- Floats have no exclusive or. -/
def floatArith (op : BinaryOp) (x y : Float) : Except Fault Value :=
  match op with
  | .add => .ok (.float (x + y))
  | .sub => .ok (.float (x - y))
  | .mul => .ok (.float (x * y))
  | .div => if y == 0.0 then .error .floatDivisionByZero else .ok (.float (x / y))
  | .floorDiv =>
    if y == 0.0 then .error .floatFloorDivisionByZero else .ok (.float (floatFloorDiv x y))
  | .mod => if y == 0.0 then .error .floatModuloByZero else .ok (.float (floatMod x y))
  | .pow => floatPow x y
  | .xor => unsupported op (.float x) (.float y)

/-- Complex numbers have no floor, remainder or exclusive or. -/
def complexArith (op : BinaryOp) (a b : Complex) : Except Fault Value :=
  match op with
  | .add => .ok (.complex (a.add b))
  | .sub => .ok (.complex (a.sub b))
  | .mul => .ok (.complex (a.mul b))
  | .div => (a.div b).map .complex
  | .pow => (a.pow b).map .complex
  | op => unsupported op (.complex a) (.complex b)

def isComplexOp (op : BinaryOp) : Bool := [.add, .sub, .mul, .div, .pow].contains op

/-- The members of a row a whole number of times. -/
def repeated (vs : List Value) (count : Value) : Except Fault (List Value) :=
  match count.whole? with
  | none => .error (.repetition count.kind)
  | some n =>
    if twoTo 63 ≤ n ∨ n < -(twoTo 63 : Int) then .error .countTooLarge
    else if vs.isEmpty then .ok []
    else if twoTo 27 < vs.length * n.toNat then .error .rowTooLong
    else .ok (List.replicate n.toNat vs).flatten

/-- Rows are joined by a sum and repeated by a product. -/
def rowArith (op : BinaryOp) (a b : Value) : Except Fault Value :=
  match op, a, b with
  | .add, .list xs, .list ys => .ok (.list (xs ++ ys))
  | .add, .tuple xs, .tuple ys => .ok (.tuple (xs ++ ys))
  | .add, .list _, b => .error (.concatenation "list" b.kind)
  | .add, .tuple _, b => .error (.concatenation "tuple" b.kind)
  | .mul, .list xs, n => (repeated xs n).map .list
  | .mul, .tuple xs, n => (repeated xs n).map .tuple
  | .mul, n, .list xs => (repeated xs n).map .list
  | .mul, n, .tuple xs => (repeated xs n).map .tuple
  | op, a, b => unsupported op a b

/-- Numbers are joined as whole numbers, floats or complex numbers, whichever holds both. -/
def binary (op : BinaryOp) (a b : Value) : Except Fault Value :=
  match op, a, b with
  | .xor, .bool p, .bool q => .ok (.bool (p != q))
  | op, a, b =>
    match a.whole?, b.whole? with
    | some m, some n => wholeArith op m n
    | _, _ =>
      match a.real?, b.real? with
      | some m, some n =>
        if op = .xor then unsupported op a b
        else do
          let x ← m.toFloat
          let y ← n.toFloat
          floatArith op x y
      | _, _ =>
        if a.isNumber && b.isNumber then
          if isComplexOp op then do
            let x ← a.toComplex
            let y ← b.toComplex
            complexArith op x y
          else unsupported op a b
        else rowArith op a b

def negate (v : Value) : Except Fault Value :=
  match v, v.real? with
  | .complex c, _ => .ok (.complex c.neg)
  | _, some (.int n) => .ok (.int (-n))
  | _, some (.float x) => .ok (.float (-x))
  | v, _ => .error (.operand "unary -" v.kind)

def plus (v : Value) : Except Fault Value :=
  match v, v.real? with
  | .complex c, _ => .ok (.complex c)
  | _, some n => .ok (.num n)
  | v, none => .error (.operand "unary +" v.kind)

mutual

/-- Equality never fails: values of different kinds differ. -/
def equal : Value → Value → Bool
  | .list xs, .list ys => equalAll xs ys
  | .tuple xs, .tuple ys => equalAll xs ys
  | .builtin f, .builtin g => f = g
  | .names, .names => true
  | .complex a, .complex b => a.same b
  | .complex a, b => b.real?.any fun n => Number.float a.re == n && a.im == 0.0
  | a, .complex b => a.real?.any fun n => n == Number.float b.re && b.im == 0.0
  | .num .missing, .num .missing => true
  | a, b =>
    match a.real?, b.real? with
    | some m, some n => m == n
    | _, _ => false

def equalAll : List Value → List Value → Bool
  | [], [] => true
  | x :: xs, y :: ys => equal x y && equalAll xs ys
  | _, _ => false

end

mutual

/-- Order two values; rows are ordered by their first difference, then by length. -/
def order (op : Comparison) : Value → Value → Except Fault Bool
  | .list xs, .list ys => orderAll op xs ys
  | .tuple xs, .tuple ys => orderAll op xs ys
  | a, b =>
    match a.real?, b.real? with
    | some m, some n => m.holds op n
    | _, _ => .error (.incomparable op.symbol a.kind b.kind)

def orderAll (op : Comparison) : List Value → List Value → Except Fault Bool
  | x :: xs, y :: ys => if equal x y then orderAll op xs ys else order op x y
  | xs, ys => Number.holds op (.int xs.length) (.int ys.length)

end

def comparison (op : Comparison) (a b : Value) : Except Fault Bool :=
  match op with
  | .eq => .ok (equal a b)
  | .ne => .ok (!equal a b)
  | op => order op a b

end Machining.Expression
