import Machining.Session

namespace Machining.Demo

def program : String :=
  "\n" ++
  "G21 G90 G94  ; Metric, absolute, feed rate mode\n" ++
  "G0 X0 Y0 Z5  ; Rapid to start position\n" ++
  "G1 Z0 F1000  ; Plunge to work surface\n" ++
  "G1 X10 Y0    ; Linear move\n" ++
  "G2 X20 Y10 I10 J0  ; Clockwise arc\n" ++
  "G1 X30 Y10   ; Another linear move\n" ++
  "G0 Z5        ; Rapid retract\n" ++
  "M30          ; Program end\n"

def verdictText : Except Fault Bool → String
  | .ok true => "True"
  | .ok false => "False"
  | .error f => f.message

def errorLines (ds : List Diagnostic) : List String :=
  if ds.isEmpty then []
  else "" :: "Errors found:" :: ds.map fun d => s!"  {d.text}"

def lengthText (v : Number) : String :=
  match v.toFloat with
  | .ok x => Decimal.fixed 2 x
  | .error f => f.message

def summaryLines : Except Fault Session.Summary → List String
  | .error f => [f.message]
  | .ok s =>
    ["",
      "Toolpath summary:",
      s!"  Total length: {lengthText s.totalLength}",
      s!"  Feed length: {lengthText s.feedLength}",
      s!"  Rapid length: {lengthText s.rapidLength}",
      s!"  Bounding box: {Number.listText s.size.toList}"]

/-- The report on a program, with what the machine prints in between. -/
def report (text : String) : List String :=
  let (s, verdict) := Session.initial.process text
  ["Processing test G-code..."] ++ s.interpreter.station.printed ++
    [s!"Processing successful: {verdictText verdict}", s!"Errors: {s.reports.length}",
      s!"Geometry segments: {s.path.count}"] ++
    errorLines s.reports ++ summaryLines s.summary

end Machining.Demo
