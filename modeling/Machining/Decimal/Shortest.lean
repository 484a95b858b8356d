import Machining.Binary64

namespace Machining.Decimal

/-- `digits * 10 ^ exponent` -/
structure Digits where
  digits : Nat
  exponent : Int
  deriving DecidableEq, Repr

/-- A value and the midpoints to its neighbours, over one denominator. -/
structure Interval where
  low : Nat
  value : Nat
  high : Nat
  den : Nat
  closed : Bool

/-- Below a power of two the neighbours lie twice as close. -/
def Interval.around (m : Nat) (q : Int) : Interval :=
  let unit := if q < 0 then 1 else twoTo q.toNat
  let den := if q < 0 then twoTo (-q).toNat else 1
  let gap := if m = twoTo 52 ∧ -1074 < q then 1 else 2
  ⟨(4 * m - gap) * unit, 4 * m * unit, (4 * m + 2) * unit, 4 * den, m % 2 = 0⟩

/-- Count in units of `10 ^ s`. -/
def Interval.inUnits (i : Interval) (s : Int) : Interval :=
  if s < 0 then
    let k := tenTo (-s).toNat
    { i with low := i.low * k, value := i.value * k, high := i.high * k }
  else { i with den := i.den * tenTo s.toNat }

def Interval.contains (i : Interval) (c : Nat) : Bool :=
  if i.closed then i.low ≤ c * i.den && c * i.den ≤ i.high
  else i.low < c * i.den && c * i.den < i.high

/-- The whole number of units that reads back and lies nearest; a tie goes to the even one. -/
def Interval.pick? (i : Interval) : Option Nat :=
  let d := i.value / i.den
  let r := i.value % i.den
  match i.contains d, i.contains (d + 1) with
  | true, true => some (if 2 * r < i.den ∨ (2 * r = i.den ∧ d % 2 = 0) then d else d + 1)
  | true, false => some d
  | false, true => some (d + 1)
  | false, false => none

/-- The position of the leading digit: `10 ^ k ≤ value < 10 ^ (k + 1)`. -/
def Interval.leading (i : Interval) : Int :=
  let k := (((i.value.log2 : Int) - i.den.log2) * 30103).fdiv 100000
  if (i.inUnits k).value < (i.inUnits k).den then k - 1
  else if (i.inUnits (k + 1)).den ≤ (i.inUnits (k + 1)).value then k + 1
  else k

/-- Drop trailing zeros. -/
def Digits.trimZeros (d : Digits) : Digits :=
  go d.digits d
where
  go : Nat → Digits → Digits
    | 0, d => d
    | fuel + 1, d =>
      if d.digits ≠ 0 ∧ d.digits % 10 = 0 then go fuel ⟨d.digits / 10, d.exponent + 1⟩ else d

/-- Try `count` digits more, starting with `n`. -/
def search (i : Interval) (k : Int) (n : Nat) : Nat → Digits
  | 0 => ⟨(i.inUnits (k - n + 1)).value / (i.inUnits (k - n + 1)).den, k - n + 1⟩
  | count + 1 =>
    match (i.inUnits (k - n + 1)).pick? with
    | some d => Digits.trimZeros ⟨d, k - n + 1⟩
    | none => search i k (n + 1) count

/-- The shortest digits of a positive finite value; seventeen always suffice. A decimal reads back
if it lies between the midpoints to the neighbouring values, or on one if the mantissa is even. -/
def shortest (x : Float) : Digits :=
  let p := Binary64.parts x
  let i := Interval.around p.mantissa p.exponent
  search i i.leading 1 17

end Machining.Decimal
