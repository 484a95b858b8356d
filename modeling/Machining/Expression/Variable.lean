import Machining.Diagnostic
import Machining.Number
import Machining.Table
import Machining.Text.Digit

namespace Machining.Expression
open Machining.Text

/-- Values by reference; the key is a hash and the number or name. -/
abbrev Bindings := Table String Number

/-- The number or name of the reference that follows a hash, and the number of characters it
takes. -/
def referenceAt? (cs : List Char) : Option (List Char × Nat) :=
  let ds := cs.takeWhile isDigit
  if ds.isEmpty then
    match cs with
    | '<' :: rest =>
      let name := rest.takeWhile (· ≠ '>')
      if name.isEmpty || (rest.dropWhile (· ≠ '>')).isEmpty then none
        else some (name, name.length + 2)
    | _ => none
  else some (ds, ds.length)

/-- The text in place of a reference: zero, and a report, if there is no value. -/
def replacement (vars : Bindings) (line : Int) (name written : List Char) :
    List Char × List Diagnostic :=
  match vars.get? (String.ofList ('#' :: name)) with
  | some v => (v.text.toList, [])
  | none =>
    let spelling := String.ofList ('#' :: written)
    (['0'], [Diagnostic.onLine line .runtime s!"Undefined variable: {spelling}"])

/-- Substitute from here on; `skip` characters still belong to the reference before. -/
def substituteFrom (vars : Bindings) (line : Int) : Nat → List Char → List Char × List Diagnostic
  | _, [] => ([], [])
  | skip + 1, _ :: cs => substituteFrom vars line skip cs
  | 0, c :: cs =>
    match (if c = '#' then referenceAt? cs else none) with
    | some (name, size) =>
      let (text, reports) := replacement vars line name (cs.take size)
      let (rest, more) := substituteFrom vars line size cs
      (text ++ rest, reports ++ more)
    | none =>
      let (rest, more) := substituteFrom vars line 0 cs
      (c :: rest, more)

def substitute (vars : Bindings) (line : Int) (cs : List Char) : List Char × List Diagnostic :=
  substituteFrom vars line 0 cs

end Machining.Expression
