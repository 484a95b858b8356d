import Machining.Decimal.Shortest

namespace Machining.Decimal

/-- The choices that fix the written form of a number. -/
structure Layout where
  /-- Positional notation serves leading digits from this position … -/
  lowest : Int
  /-- … up to, and without, this one. -/
  highest : Int
  /-- The least number of digits of an exponent. -/
  exponentWidth : Nat
  infinity : String
  notANumber : String

/-- Positional from four places after the point to sixteen before it, whole values keep `.0`, and an
exponent is signed and has two digits or more. -/
def Layout.standard : Layout := ⟨-4, 16, 2, "inf", "nan"⟩

def padLeft (width : Nat) (s : List Char) : List Char :=
  List.replicate (width - s.length) '0' ++ s

/-- The digits of a whole number. -/
def natDigits (n : Nat) : List Char := Nat.toDigits 10 n

def natText (n : Nat) : String := String.ofList (natDigits n)

def intText (n : Int) : String :=
  if n < 0 then "-" ++ natText n.natAbs else natText n.natAbs

/-- Digits with the point after the first `point` of them, filled up with zeros. -/
def positional (ds : List Char) (point : Int) : List Char :=
  if point ≤ 0 then
    '0' :: '.' :: (List.replicate (-point).toNat '0' ++ ds)
  else
    let whole := ds.take point.toNat
    let rest := ds.drop point.toNat
    whole ++ List.replicate (point.toNat - whole.length) '0' ++
      '.' :: (if rest.isEmpty then ['0'] else rest)

def scientific (layout : Layout) (ds : List Char) (leading : Int) : List Char :=
  let mantissa := match ds with
    | [] => []
    | [d] => [d]
    | d :: rest => d :: '.' :: rest
  mantissa ++ 'e' :: (if leading < 0 then '-' else '+') ::
    padLeft layout.exponentWidth (natDigits leading.natAbs)

/-- Write the digits of a positive value. -/
def Layout.write (layout : Layout) (d : Digits) : List Char :=
  let ds := natDigits d.digits
  let point := d.exponent + ds.length
  if layout.lowest ≤ point - 1 ∧ point - 1 < layout.highest then positional ds point
  else scientific layout ds (point - 1)

def Layout.text (layout : Layout) (x : Float) : String :=
  let magnitude : List Char :=
    if x == 0.0 then ['0', '.', '0'] else layout.write (shortest x)
  if x.isNaN then layout.notANumber
  else if x.isInf then (if x < 0.0 then "-" else "") ++ layout.infinity
  else String.ofList (if Binary64.signBit x then '-' :: magnitude else magnitude)

/-- The written form of a number, the shortest that reads back. -/
def text (x : Float) : String := Layout.standard.text x

/-- A finite value with a fixed number of places, rounded exactly, a half to the even neighbour. -/
def fixed (places : Nat) (x : Float) : String :=
  if x.isNaN then Layout.standard.notANumber
  else if x.isInf then (if x < 0.0 then "-" else "") ++ Layout.standard.infinity
  else
    let (n, d) := Binary64.ratio x
    let ds := padLeft (places + 1) (natDigits (Binary64.roundDiv (n.natAbs * tenTo places) d))
    let whole := ds.take (ds.length - places)
    let rest := ds.drop (ds.length - places)
    let body := if places = 0 then whole else whole ++ '.' :: rest
    String.ofList (if Binary64.signBit x then '-' :: body else body)

end Machining.Decimal
