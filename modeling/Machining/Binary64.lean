namespace Machining

/-- Powers of two. -/
abbrev twoTo (n : Nat) : Nat := Nat.pow 2 n

/-- Powers of ten. -/
abbrev tenTo (n : Nat) : Nat := Nat.pow 10 n

namespace Binary64

/-- The magnitude of a finite value is `mantissa * 2 ^ exponent`. -/
structure Parts where
  negative : Bool
  mantissa : Nat
  exponent : Int
  deriving DecidableEq, Repr

def parts (x : Float) : Parts :=
  let bits : Nat := x.toBits.toNat
  let field : Nat := bits / twoTo 52 % twoTo 11
  let fraction : Nat := bits % twoTo 52
  if field = 0 then ⟨bits / twoTo 63 = 1, fraction, -1074⟩
  else ⟨bits / twoTo 63 = 1, fraction + twoTo 52, (field : Int) - 1075⟩

def posInf : Float := Float.ofBits 0x7FF0000000000000

def negInf : Float := Float.ofBits 0xFFF0000000000000

def notANumber : Float := Float.ofBits 0x7FF8000000000000

/-- The sign bit, also of zeros. -/
def signBit (x : Float) : Bool := x.toBits.toNat / twoTo 63 = 1

def withSign (negative : Bool) (x : Float) : Float := if negative then -x else x

/-- Scale a ratio by `2 ^ (-e)`. -/
def scaled (num den : Nat) (e : Int) : Nat × Nat :=
  if e < 0 then (num * twoTo (-e).toNat, den) else (num, den * twoTo e.toNat)

/-- A quotient of naturals rounded to the nearest whole number, a half to the even neighbour. -/
def roundDiv (num den : Nat) : Nat :=
  let q := num / den
  let r := num % den
  if den < 2 * r ∨ (2 * r = den ∧ q % 2 = 1) then q + 1 else q

/-- The exponent of the last place of the value nearest to `num / den`. -/
def lastPlace (num den : Nat) : Int :=
  let low : Int := (num.log2 : Int) - den.log2 - 53
  let (n, d) := scaled num den low
  max (if twoTo 53 ≤ n / d then low + 1 else low) (-1074)

/-- The encoding of the value nearest to `num / den`. Counting units of the last place from the
smallest encoding of that exponent carries into the next exponent by itself. -/
def nearestBits (num den : Nat) : Nat :=
  if num = 0 then 0
  else
    let e := lastPlace num den
    let (n, d) := scaled num den e
    (e + 1074).toNat * twoTo 52 + roundDiv n d

/-- The value nearest to a ratio, a tie going to the even mantissa; none beyond the largest
value. -/
def nearest? (negative : Bool) (num den : Nat) : Option Float :=
  let bits := nearestBits num den
  if bits < 0x7FF0000000000000 then
    some (withSign negative (Float.ofBits (UInt64.ofNat bits)))
  else none

def ofInt? (n : Int) : Option Float := nearest? (n < 0) n.natAbs 1

/-- Integers beyond the largest value count as infinite. -/
def ofInt (n : Int) : Float :=
  (ofInt? n).getD (if n < 0 then negInf else posInf)

/-- `m * 10 ^ e`; exponents far outside the format's range need no arithmetic. -/
def ofDecimal (negative : Bool) (m : Nat) (e : Int) : Float :=
  if m = 0 then withSign negative 0.0
  else if 400 < e then withSign negative posInf
  else if e < -(400 + (m.log2 + 1 : Nat) : Int) then withSign negative 0.0
  else
    let found := if e < 0 then nearest? negative m (tenTo (-e).toNat)
      else nearest? negative (m * tenTo e.toNat) 1
    found.getD (withSign negative posInf)

/-- The integer part of a finite value, dropping the fraction. -/
def truncate (x : Float) : Int :=
  let p := parts x
  let n : Nat := if p.exponent < 0 then p.mantissa / twoTo (-p.exponent).toNat
    else p.mantissa * twoTo p.exponent.toNat
  if p.negative then -(n : Int) else n

/-- A finite value as numerator and positive denominator. -/
def ratio (x : Float) : Int × Nat :=
  let p := parts x
  let (n, d) := scaled p.mantissa 1 (-p.exponent)
  (if p.negative then -(n : Int) else n, d)

def floor (x : Float) : Int := (ratio x).1.fdiv (ratio x).2

def ceil (x : Float) : Int := -((-(ratio x).1).fdiv (ratio x).2)

/-- The nearest whole number to a finite value, a half going to the even neighbour. -/
def roundEven (x : Float) : Int :=
  let (n, d) := ratio x
  let r := roundDiv n.natAbs d
  if n < 0 then -(r : Int) else r

/-- Compare a whole number with a finite value, exactly. -/
def compareInt (n : Int) (x : Float) : Ordering :=
  let (a, b) := ratio x
  compare (n * b) a

/-- The exact remainder of two finite values, with the sign of the first; the second is not zero. -/
def remainder (x y : Float) : Float :=
  let a := parts x
  let b := parts y
  let e := min a.exponent b.exponent
  let m := (a.mantissa * twoTo (a.exponent - e).toNat) % (b.mantissa * twoTo (b.exponent - e).toNat)
  let (n, d) := scaled m 1 (-e)
  (nearest? a.negative n d).getD 0.0

/-- The root of the sum of two squares, `a` being the larger magnitude, with one correction for what
rounding took from the squares. -/
def correctedHypot (a b : Float) : Float :=
  let h := (a * a + b * b).sqrt
  if h ≤ 2.0 * b then
    let d := h - b
    h - (a * (2.0 * d - a) + (d - 2.0 * (a - b)) * d) / (2.0 * h)
  else
    let d := h - a
    h - (2.0 * d * (a - 2.0 * b) + ((4.0 * d - b) * b + d * d)) / (2.0 * h)

/-- The length of a pair of coordinates. A magnitude too small to count beside the other is added to
it, and pairs whose squares leave the range are scaled by a power of two for the while. -/
def hypot (x y : Float) : Float :=
  let scale := Float.ofBits 0x1A70000000000000
  let epsilon := Float.ofBits 0x3C90000000000000
  let a := if x.abs < y.abs then y.abs else x.abs
  let b := if x.abs < y.abs then x.abs else y.abs
  if x.isInf || y.isInf then posInf
  else if x.isNaN || y.isNaN then notANumber
  else if Float.ofBits 0x5FE0000000000000 < a then
    if b ≤ a * epsilon then a + b else correctedHypot (a * scale) (b * scale) / scale
  else if b < Float.ofBits 0x2340000000000000 then
    if b / epsilon ≤ a then a + b else correctedHypot (a / scale) (b / scale) * scale
  else if b ≤ a * epsilon then a + b
  else correctedHypot a b

/-- Round the exact value of `x` to `places` decimal places, a half going to the even neighbour, and
take the nearest value; negative places count positions before the point. -/
def roundPlaces? (x : Float) (places : Int) : Option Float :=
  let (n, d) := ratio x
  if places < 0 then
    let unit := tenTo (-places).toNat
    nearest? (signBit x) (roundDiv n.natAbs (d * unit) * unit) 1
  else
    let unit := tenTo places.toNat
    nearest? (signBit x) (roundDiv (n.natAbs * unit) d) unit

end Binary64
end Machining
