import Machining.Flow.Read

namespace Machining.Flow
open Machining.Expression (Evaluator)

/-- The kinds of structure. -/
inductive Structure where
  | sub | conditional | whileLoop | repeatLoop
  deriving DecidableEq, Repr

namespace Structure

def opener : Structure → String
  | sub => "sub"
  | conditional => "if"
  | whileLoop => "while"
  | repeatLoop => "repeat"

def closer (s : Structure) : String := "end" ++ s.opener

def ofKind? : CommandKind → Option Structure
  | .sub => some sub
  | .conditional => some conditional
  | .whileLoop => some whileLoop
  | .repeatLoop => some repeatLoop
  | _ => none

end Structure

/-- A structure that is open, and where it was opened. -/
structure Opening where
  kind : Structure
  label : Label
  position : Int
  deriving DecidableEq, Repr

inductive Role where
  | opens | closes | other
  deriving DecidableEq, Repr

/-- Whatever ends in `sub` opens a subroutine. -/
def role (s : Structure) (word : String) : Role :=
  if s = .sub then
    if "sub".toList.isSuffixOf word.toList then .opens
    else if "endsub".toList.isSuffixOf word.toList then .closes
    else .other
  else if word = s.opener then .opens
  else if word = s.closer then .closes
  else .other

/-- The outcome of a check: the verdict, or a fault on the way. -/
structure Checked where
  flow : Flow
  reports : List Diagnostic
  verdict : Except Fault Bool

def mismatch (f : Flow) (s : Structure) (c : Command) : Checked :=
  ⟨f, [.onLine c.line .syntactic s!"Mismatched {s.closer} for O{c.label.text}"], .ok false⟩

/-- A subroutine that closes is defined from its opening to here. -/
def define (f : Flow) (s : Structure) (c : Command) (first last : Int) : Flow :=
  if s = .sub then { f with subroutines := f.subroutines.put c.label ⟨first, last⟩ } else f

/-- Check the commands from here on, given what is open, innermost first. -/
def checkFrom (f : Flow) : List Opening → List (Int × Command) → Checked
  | [], [] => ⟨f, [], .ok true⟩
  | o :: _, [] =>
    ⟨f, [.onLine o.position .syntactic s!"Unclosed {o.kind.opener} structure O{o.label.text}"],
      .ok false⟩
  | stack, (i, c) :: rest =>
    match Structure.ofKind? c.kind with
    | none => checkFrom f stack rest
    | some s =>
      match commandWord f c with
      | .error e => ⟨f, [], .error e⟩
      | .ok word =>
        match role s word with
        | .opens => checkFrom f (⟨s, c.label, i⟩ :: stack) rest
        | .other => checkFrom f stack rest
        | .closes =>
          match stack with
          | [] => mismatch f s c
          | o :: stack =>
            if o.kind = s ∧ o.label = c.label then
              checkFrom (define f s c o.position i) stack rest
            else mismatch f s c

/-- Check the structure of the program and define its subroutines. -/
def check (r : Routine) : Routine × Except Fault Bool :=
  let checked := checkFrom r.flow [] r.flow.commands.entries
  ({ r with flow := checked.flow, reports := r.reports ++ checked.reports }, checked.verdict)

/-- Read the commands of the blocks from position `i` on. -/
def readFrom [Evaluator] (i : Int) : List (Block Number) → Routine → Routine × Except Fault Unit
  | [], r => (r, .ok ())
  | b :: bs, r =>
    match readCommand b r with
    | (r, .error f) => (r, .error f)
    | (r, .ok none) => readFrom (i + 1) bs r
    | (r, .ok (some c)) =>
      readFrom (i + 1) bs { r with flow := { r.flow with commands := r.flow.commands.put i c } }

/-- Take in a program: read its commands and check their structure. -/
def prepare [Evaluator] (blocks : Array (Block Number)) (r : Routine) :
    Routine × Except Fault Bool :=
  let flow := { r.flow with blocks, commands := .empty, subroutines := .empty }
  match readFrom 0 blocks.toList { r with flow } with
  | (r, .error f) => (r, .error f)
  | (r, .ok ()) => check r

end Machining.Flow
