namespace Machining

inductive Category where
  | syntactic
  | semantic
  | runtime
  | warning
  deriving DecidableEq, Repr

def Category.text : Category → String
  | .syntactic => "syntax"
  | .semantic => "semantic"
  | .runtime => "runtime"
  | .warning => "warning"

inductive Severity where
  | warning
  | error
  | fatal
  deriving DecidableEq, Repr

def Severity.text : Severity → String
  | .warning => "warning"
  | .error => "error"
  | .fatal => "fatal"

/-- Columns `start` to `stop`, the latter excluded, of a line. -/
structure Diagnostic where
  line : Int
  start : Int
  stop : Int
  message : String
  category : Category
  severity : Severity
  deriving DecidableEq, Repr

namespace Diagnostic

def error (line start stop : Int) (category : Category) (message : String) : Diagnostic :=
  ⟨line, start, stop, message, category, .error⟩

/-- An error about a line as a whole. -/
def onLine (line : Int) (category : Category) (message : String) : Diagnostic :=
  error line 0 0 category message

def text (d : Diagnostic) : String := s!"Line {d.line}: {d.message}"

def isFatal (d : Diagnostic) : Bool := d.severity = .fatal

def isError (d : Diagnostic) : Bool := d.severity = .error || d.severity = .fatal

def isWarning (d : Diagnostic) : Bool := d.severity = .warning

def forLine (ds : List Diagnostic) (line : Int) : List Diagnostic := ds.filter (·.line = line)

def hasFatal (ds : List Diagnostic) : Bool := ds.any isFatal

def hasErrors (ds : List Diagnostic) : Bool := ds.any isError

/-- Program order: by line, then by column. -/
def before (a b : Diagnostic) : Bool :=
  a.line < b.line || (a.line = b.line && a.start ≤ b.start)

def insert (d : Diagnostic) : List Diagnostic → List Diagnostic
  | [] => [d]
  | e :: es => if before d e then d :: e :: es else e :: insert d es

/-- In program order; messages about the same column stay in the order they were added. -/
def sorted (ds : List Diagnostic) : List Diagnostic := ds.foldr insert []

end Diagnostic
end Machining
