import Machining.Number

namespace Machining.Expression

structure Complex where
  re : Float
  im : Float
  deriving Repr

namespace Complex

def ofReal (x : Float) : Complex := ⟨x, 0.0⟩

def one : Complex := ofReal 1.0

def isZero (a : Complex) : Bool := a.re == 0.0 && a.im == 0.0

def same (a b : Complex) : Bool := a.re == b.re && a.im == b.im

def add (a b : Complex) : Complex := ⟨a.re + b.re, a.im + b.im⟩

def sub (a b : Complex) : Complex := ⟨a.re - b.re, a.im - b.im⟩

def mul (a b : Complex) : Complex := ⟨a.re * b.re - a.im * b.im, a.re * b.im + a.im * b.re⟩

def neg (a : Complex) : Complex := ⟨-a.re, -a.im⟩

/-- The quotient, dividing by the larger part of the divisor first; none by zero. -/
def div? (a b : Complex) : Option Complex :=
  if b.im.abs ≤ b.re.abs then
    if b.re == 0.0 then none
    else
      let ratio := b.im / b.re
      let den := b.re + b.im * ratio
      some ⟨(a.re + a.im * ratio) / den, (a.im - a.re * ratio) / den⟩
  else if b.re.abs ≤ b.im.abs then
    let ratio := b.re / b.im
    let den := b.re * ratio + b.im
    some ⟨(a.re * ratio + a.im) / den, (a.im * ratio - a.re) / den⟩
  else some ⟨Binary64.notANumber, Binary64.notANumber⟩

def div (a b : Complex) : Except Fault Complex :=
  match div? a b with
  | some c => .ok c
  | none => .error .complexDivisionByZero

def abs (a : Complex) : Except Fault Float :=
  let r := Binary64.hypot a.re a.im
  if r.isInf && a.re.isFinite && a.im.isFinite then .error .magnitudeTooLarge else .ok r

/-- The product over the binary digits of a natural power, lowest digit first. -/
def powDigits : Nat → Complex → Nat → Complex → Complex
  | 0, result, _, _ => result
  | fuel + 1, result, n, square =>
    if n = 0 then result
    else powDigits fuel (if n % 2 = 1 then mul result square else result) (n / 2)
      (mul square square)

def powNat (a : Complex) (n : Nat) : Complex := powDigits (n.log2 + 1) one n a

/-- A whole power; none if it divides by zero. -/
def powInt? (a : Complex) (n : Int) : Option Complex :=
  if 0 < n then some (powNat a n.toNat) else div? one (powNat a n.natAbs)

/-- A power by length and angle; none for a power of zero that is not positive, and for an angle
beyond all numbers. -/
def powPolar? (a b : Complex) : Option Complex :=
  if a.isZero then
    if !(b.im == 0.0) || b.re < 0.0 then none else some (ofReal 0.0)
  else
    let size := Binary64.hypot a.re a.im
    let angle := Float.atan2 a.im a.re
    let length := Float.pow size b.re
    let phase := angle * b.re
    let length := if b.im == 0.0 then length else length / Float.exp (angle * b.im)
    let phase := if b.im == 0.0 then phase else phase + b.im * Float.log size
    if phase.isInf then none else some ⟨length * phase.cos, length * phase.sin⟩

/-- Exponents that are whole numbers up to a hundred are powers by multiplication. -/
def isSmallWhole (b : Complex) : Bool := b.im == 0.0 && b.re == b.re.floor && b.re.abs ≤ 100.0

def pow (a b : Complex) : Except Fault Complex :=
  match if b.isSmallWhole then powInt? a (Binary64.truncate b.re) else powPolar? a b with
  | none => .error .zeroToComplexPower
  | some c => if c.re.isInf || c.im.isInf then .error .complexPowerTooLarge else .ok c

/-- A part in its written form, whole values without a point. -/
def partText (x : Float) : String :=
  let cs := (Decimal.text x).toList
  String.ofList (if ['.', '0'].isSuffixOf cs then cs.take (cs.length - 2) else cs)

/-- The written form: both parts in parentheses, or the imaginary part alone beside a zero. -/
def text (a : Complex) : String :=
  let im := partText a.im
  if a.re == 0.0 && !Binary64.signBit a.re then im ++ "j"
  else
    let plus := if im.toList.head? = some '-' then "" else "+"
    "(" ++ partText a.re ++ plus ++ im ++ "j)"

end Complex
end Machining.Expression
