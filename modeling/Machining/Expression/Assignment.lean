import Machining.Text.Blank
import Machining.Text.Digit

namespace Machining.Expression
open Machining.Text

structure Assignment where
  target : String
  expression : String
  deriving DecidableEq, Repr

/-- Whether a hash stands before the first equals sign. -/
def isAssignment (text : String) : Bool :=
  let cs := text.toList
  cs.contains '=' && (cs.takeWhile (· ≠ '=')).contains '#'

/-- The reference a text starts with, hash included; empty if there is none. -/
def targetPart : List Char → List Char
  | '#' :: '<' :: cs =>
    let name := cs.takeWhile (· ≠ '>')
    if name.isEmpty || (cs.dropWhile (· ≠ '>')).isEmpty then [] else '#' :: '<' :: name ++ ['>']
  | '#' :: cs =>
    let ds := cs.takeWhile isDigit
    if ds.isEmpty then [] else '#' :: ds
  | _ => []

/-- The expression reaches to the end of its line. -/
def Assignment.ofText? (text : String) : Option Assignment :=
  let cs := trim text.toList
  let target := targetPart cs
  if target.isEmpty then none
  else match trimStart (cs.drop target.length) with
    | '=' :: rest =>
      let expression := (trimStart rest).takeWhile (· ≠ '\n')
      if expression.isEmpty then none
      else some ⟨String.ofList target, String.ofList expression⟩
    | _ => none

end Machining.Expression
