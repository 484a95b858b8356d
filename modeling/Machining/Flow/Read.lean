import Machining.Flow.Command
import Machining.Text.Case

namespace Machining.Flow
open Machining.Text
open Machining.Expression (Evaluator)

/-- The words of an O-word. -/
def parts (oWord : String) : List String := (fields oWord.toList).map String.ofList

/-- The command words and the kinds they belong to. -/
def commandKinds : List (String × CommandKind) :=
  [("sub", .sub), ("endsub", .sub), ("if", .conditional), ("else", .conditional),
    ("elseif", .conditional), ("endif", .conditional), ("while", .whileLoop),
    ("endwhile", .whileLoop), ("repeat", .repeatLoop), ("endrepeat", .repeatLoop), ("call", .call),
    ("return", .returnFrom),
    ("break", .breakLoop), ("continue", .continueLoop)]

def kind? (word : String) : Option CommandKind :=
  (commandKinds.find? fun e => e.1 = word).map (·.2)

/-- A leading O does not count; whole numbers are numbers. -/
def label (part : String) : Label :=
  let rest := match part.toList with
    | 'O' :: cs => String.ofList cs
    | 'o' :: cs => String.ofList cs
    | _ => part
  match Decimal.intOfText? rest with
  | some n => .number n
  | none => .name rest

/-- The text between a pair of brackets. -/
def bracketed? (s : String) : Option String :=
  match s.toList with
  | '[' :: cs => if cs.getLast? = some ']' then some (String.ofList cs.dropLast) else none
  | _ => none

/-- Why an O-word gives no command: a report was made, or evaluating an argument failed. -/
inductive Refusal where
  | reported
  | fault (f : Fault)

/-- The arguments of a call: numbers, or expressions in brackets. -/
def arguments [Evaluator] (line : Int) :
    Routine → List String → Routine × Except Refusal (List Number)
  | r, [] => (r, .ok [])
  | r, s :: rest =>
    match bracketed? s with
    | some text =>
      match r.evaluate text line with
      | (r, .error f) => (r, .error (.fault f))
      | (r, .ok x) =>
        let (r, more) := arguments line r rest
        (r, more.map (.float x :: ·))
    | none =>
      match Decimal.ofText? s with
      | some x =>
        let (r, more) := arguments line r rest
        (r, more.map (.float x :: ·))
      | none => (r.report (.onLine line .syntactic s!"Invalid argument: {s}"), .error .reported)

/-- Expression and arguments behind a command word. -/
def details [Evaluator] (line : Int) (word : String) (rest : List String) (r : Routine) :
    Routine × Except Refusal (Option String × List Number) :=
  if rest.isEmpty then (r, .ok (none, []))
  else if word = "if" ∨ word = "elseif" ∨ word = "while" then
    match bracketed? (String.intercalate " " rest) with
    | some e => (r, .ok (some e, []))
    | none =>
      (r.report (.onLine line .syntactic s!"Expression must be in brackets for {word}"),
        .error .reported)
  else if word = "call" then
    let (r, args) := arguments line r rest
    (r, args.map (none, ·))
  else if word = "return" then (r, .ok (bracketed? (String.intercalate " " rest), []))
  else (r, .ok (none, []))

/-- The command of a block, if its O-word gives one. -/
def readCommand [Evaluator] (b : Block Number) (r : Routine) :
    Routine × Except Fault (Option Command) :=
  match b.oWord with
  | none => (r, .ok none)
  | some oWord =>
    if oWord.isEmpty then (r, .ok none)
    else match parts oWord with
      | name :: word :: rest =>
        let word := lower word
        match kind? word with
        | none =>
          (r.report (.onLine b.line .syntactic s!"Unknown O-word command: {word}"), .ok none)
        | some kind =>
          match details b.line word rest r with
          | (r, .ok (expression, arguments)) =>
            (r, .ok (some ⟨kind, label name, expression, arguments, b.line⟩))
          | (r, .error .reported) => (r, .ok none)
          | (r, .error (.fault f)) => (r, .error f)
      | _ => (r.report (.onLine b.line .syntactic s!"Invalid O-word format: {oWord}"), .ok none)

/-- The command word of a command, looked up in the block that its line number points at. -/
def commandWord (f : Flow) (c : Command) : Except Fault String :=
  if c.line < f.blocks.size then
    match f.blockAt? c.line with
    | none => .error .indexOutOfRange
    | some b =>
      match b.oWord with
      | none => .error .missingOWord
      | some oWord =>
        match parts oWord with
        | _ :: word :: _ => .ok (lower word)
        | _ => .ok ""
  else .ok ""

end Machining.Flow
