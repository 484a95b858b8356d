import Machining.Expression.Function
import Machining.Expression.Operator
import Machining.Expression.Variable
import Machining.Text.Blank

namespace Machining.Expression

/-- The outcome of an evaluation, with the reports on undefined variables. -/
structure Outcome where
  reports : List Diagnostic
  result : Except Fault Float

/-- The number that a text without variables stands for. -/
def evaluateClosed [Evaluator] (cs : List Char) : Except Fault Float := do
  Evaluator.value (replaceOperators (← replaceFunctions cs))

/-- An empty expression is zero. -/
def evaluate [Evaluator] (text : String) (vars : Bindings) (line : Int) : Outcome :=
  let cs := Text.trim text.toList
  if cs.isEmpty then ⟨[], .ok 0.0⟩
  else
    let (cs, reports) := substitute vars line cs
    ⟨reports, evaluateClosed cs⟩

end Machining.Expression
