import Machining.Block
import Machining.Expression
import Machining.Parameter

namespace Machining

/-- Commands are told apart, and paired, by a number or a name. -/
inductive Label where
  | number (n : Int)
  | name (s : String)
  deriving DecidableEq, Repr

def Label.text : Label → String
  | number n => Decimal.intText n
  | name s => s

inductive CommandKind where
  | sub | conditional | whileLoop | repeatLoop | call | returnFrom | breakLoop | continueLoop
  deriving DecidableEq, Repr

structure Command where
  kind : CommandKind
  label : Label
  expression : Option String
  arguments : List Number
  line : Int
  deriving Repr

structure Subroutine where
  first : Int
  last : Int
  deriving DecidableEq, Repr

/-- An open call: where to go on, and what it was given. -/
structure Frame where
  label : Label
  returnTo : Int
  arguments : List Number
  deriving Repr

/-- An open loop. Only loops with a count have one. -/
structure Loop where
  kind : CommandKind
  label : Label
  first : Int
  last : Int
  condition : Option String
  count : Option Int
  iteration : Int
  deriving DecidableEq, Repr

structure Flow where
  blocks : Array (Block Number)
  commands : Table Int Command
  subroutines : Table Label Subroutine
  /-- Open calls and loops, innermost last. -/
  calls : List Frame
  loops : List Loop
  line : Int
  returned : Option Number
  deriving Repr

namespace Flow

def initial : Flow := ⟨#[], .empty, .empty, [], [], 0, none⟩

/-- A block by position; negative positions count from the end. -/
def blockAt? (f : Flow) (i : Int) : Option (Block Number) :=
  let i := if i < 0 then i + f.blocks.size else i
  if i < 0 then none else f.blocks[i.toNat]?

end Flow

/-- What control commands work on. -/
structure Routine where
  flow : Flow
  parameters : Parameters
  reports : List Diagnostic

namespace Routine

def initial : Routine := ⟨.initial, .initial, []⟩

def report (r : Routine) (d : Diagnostic) : Routine := { r with reports := r.reports ++ [d] }

def evaluate [Expression.Evaluator] (r : Routine) (text : String) (line : Int) :
    Routine × Except Fault Float :=
  let o := Expression.evaluate text r.parameters.bindings line
  ({ r with reports := r.reports ++ o.reports }, o.result)

end Routine
end Machining
