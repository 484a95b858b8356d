import Machining.Binary64
import Machining.Text.Blank
import Machining.Text.Digit

namespace Machining.Decimal
open Machining.Text

/-- Blanks around a number; the information separators are not among them. -/
def isPadding (c : Char) : Bool := isBlank c && !(0x1C ≤ c.toNat && c.toNat ≤ 0x1F)

def unpad (cs : List Char) : List Char :=
  (((cs.dropWhile isPadding).reverse).dropWhile isPadding).reverse

/-- The digits that follow a digit, and the rest. -/
def moreDigits : List Char → List Char × List Char
  | [] => ([], [])
  | '_' :: d :: cs =>
    if isDigit d then
      let (ds, rest) := moreDigits cs
      (d :: ds, rest)
    else ([], '_' :: d :: cs)
  | d :: cs =>
    if isDigit d then
      let (ds, rest) := moreDigits cs
      (d :: ds, rest)
    else ([], d :: cs)

/-- A row of digits, possibly none, and the rest. -/
def digitRow : List Char → List Char × List Char
  | d :: cs => if isDigit d then
      let (ds, rest) := moreDigits cs
      (d :: ds, rest)
    else ([], d :: cs)
  | [] => ([], [])

/-- An optional sign; true for minus. -/
def sign : List Char → Bool × List Char
  | '+' :: cs => (false, cs)
  | '-' :: cs => (true, cs)
  | cs => (false, cs)

/-- The digits after a point, if there is one. -/
def fraction : List Char → List Char × List Char
  | '.' :: cs => digitRow cs
  | cs => ([], cs)

/-- An exponent that ends the text; none if something else follows. -/
def exponent? : List Char → Option Int
  | [] => some 0
  | e :: cs =>
    if e = 'e' ∨ e = 'E' then
      let (negative, cs) := sign cs
      match digitRow cs with
      | (d :: ds, []) =>
        some (if negative then -(digitsValue (d :: ds) : Int) else digitsValue (d :: ds))
      | _ => none
    else none

def unsigned? (negative : Bool) (cs : List Char) : Option Float :=
  let (whole, cs) := digitRow cs
  let (part, cs) := fraction cs
  if whole.isEmpty ∧ part.isEmpty then none
  else (exponent? cs).map fun e =>
    Binary64.ofDecimal negative (digitsValue (whole ++ part)) (e - part.length)

def lowerAscii (cs : List Char) : List Char := cs.map Char.toLower

def named? (negative : Bool) (cs : List Char) : Option Float :=
  let name := lowerAscii cs
  if name = "inf".toList ∨ name = "infinity".toList then
    some (Binary64.withSign negative Binary64.posInf)
  else if name = "nan".toList then some Binary64.notANumber
  else none

def ofChars? (cs : List Char) : Option Float :=
  let (negative, cs) := sign (unpad cs)
  (unsigned? negative cs).or (named? negative cs)

/-- The number a text stands for. -/
def ofText? (s : String) : Option Float := ofChars? s.toList

/-- The whole number a text stands for; it has no more digits than the limit. -/
def intOfText? (s : String) : Option Int :=
  let (negative, cs) := sign (unpad s.toList)
  match digitRow cs with
  | (d :: ds, []) =>
    let n : Int := digitsValue (d :: ds)
    if digitLimit < (d :: ds).length then none else some (if negative then -n else n)
  | _ => none

end Machining.Decimal
