import Machining.Auxiliary
import Machining.Axis
import Machining.Binary64
import Machining.Block
import Machining.Block.Check
import Machining.Block.OfTokens
import Machining.Decimal.Layout
import Machining.Decimal.Reading
import Machining.Decimal.Shortest
import Machining.Demo
import Machining.Diagnostic
import Machining.Expression
import Machining.Expression.Arithmetic
import Machining.Expression.Assignment
import Machining.Expression.Builtin
import Machining.Expression.Complex
import Machining.Expression.Diagnosis
import Machining.Expression.Evaluate
import Machining.Expression.Function
import Machining.Expression.Grammar
import Machining.Expression.Lexeme
import Machining.Expression.Numeral
import Machining.Expression.Operator
import Machining.Expression.Term
import Machining.Expression.Value
import Machining.Expression.Variable
import Machining.Fault
import Machining.Flow.Command
import Machining.Flow.Execute
import Machining.Flow.Read
import Machining.Flow.Structure
import Machining.Geometry.Point
import Machining.Geometry.Segment
import Machining.Geometry.Toolpath
import Machining.Interpreter
import Machining.Json
import Machining.Json.Read
import Machining.Machine
import Machining.Main
import Machining.Modal
import Machining.Motion
import Machining.Number
import Machining.Number.Sort
import Machining.Parameter
import Machining.Profile
import Machining.Proofs.BlockStep
import Machining.Proofs.Continuity
import Machining.Proofs.Layout
import Machining.Proofs.Lockstep
import Machining.Proofs.Movement
import Machining.Proofs.Program
import Machining.Proofs.Regular
import Machining.Proofs.Run
import Machining.Proofs.SignedZero
import Machining.Proofs.SinglePass
import Machining.Proofs.Spans
import Machining.Scalar
import Machining.Session
import Machining.Table
import Machining.Text.Blank
import Machining.Text.Case
import Machining.Text.Cased
import Machining.Text.Decomposition
import Machining.Text.Digit
import Machining.Text.Letter
import Machining.Text.Mark
import Machining.Text.Name
import Machining.Text.Normal
import Machining.Text.Printable
import Machining.Text.Unit
import Machining.Token
import Machining.Token.Scan
import Machining.Proofs.Carryover
import Machining.Proofs.Isolation
import Machining.Proofs.TwoMachines
import Machining.Proofs.Locality
import Machining.Proofs.Rounds
import Machining.Proofs.LineIndex
import Machining.Proofs.Reports
import Machining.Proofs.Numeral
import Machining.Proofs.Recorded
import Machining.Proofs.Order
import Machining.Proofs.MoveModes
import Machining.Proofs.ModeOrder
import Machining.Proofs.Nesting
import Machining.Proofs.Numbering
import Machining.Proofs.OpenLoops
import Machining.Proofs.Repetition
import Machining.Proofs.Substitution
import Machining.Proofs.Reals
import Machining.Proofs.Translation
import Machining.Proofs.Twins
import Machining.Proofs.ProgramEnd
import Machining.Proofs.Landing
import Machining.Proofs.Extended
import Machining.Proofs.Acceptance
import Machining.Proofs.WordOrder
import Machining.Proofs.LoneReference
import Machining.Proofs.ParameterHistory
import Machining.Proofs.Shadowing
import Machining.Proofs.WorkPosition
import Machining.Proofs.ArcPlanes
import Machining.Proofs.ArcLength
import Machining.Proofs.Failures
import Machining.Proofs.RefusedCodes
import Machining.Proofs.Drawing
import Machining.Proofs.Hull
import Machining.Proofs.Lengths
import Machining.Proofs.ParameterReads
import Machining.Proofs.ShownNames
import Machining.Proofs.Assignments
import Machining.Proofs.Forgetting
import Machining.Proofs.Calls
import Machining.Proofs.Profiles
import Machining.Proofs.LastText
import Machining.Proofs.CommentTags
import Machining.Proofs.WordwiseOperators
import Machining.Proofs.AssignmentText
