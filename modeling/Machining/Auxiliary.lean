import Machining.Motion

namespace Machining

/-- The built-in M-codes. -/
inductive MCode where
  | pause | optionalPause | programEnd | programEndRewind | palletChange
  | spindleCw | spindleCcw | spindleStop
  | toolChange | setTool
  | mistOn | floodOn | coolantOff
  | overridesOn | overridesOff | feedOverride | spindleOverride | adaptiveFeed | feedStop
  deriving DecidableEq, Repr

namespace MCode

def all : List MCode :=
  [pause, optionalPause, programEnd, programEndRewind, palletChange, spindleCw, spindleCcw,
    spindleStop, toolChange, setTool, mistOn, floodOn, coolantOff, overridesOn,
    overridesOff, feedOverride,
    spindleOverride, adaptiveFeed, feedStop]

def number : MCode → Int
  | pause => 0
  | optionalPause => 1
  | programEnd => 2
  | programEndRewind => 30
  | palletChange => 60
  | spindleCw => 3
  | spindleCcw => 4
  | spindleStop => 5
  | toolChange => 6
  | setTool => 61
  | mistOn => 7
  | floodOn => 8
  | coolantOff => 9
  | overridesOn => 48
  | overridesOff => 49
  | feedOverride => 50
  | spindleOverride => 51
  | adaptiveFeed => 52
  | feedStop => 53

def ofNumber? (n : Number) : Option MCode := all.find? fun m => Number.int m.number == n

end MCode

/-- The M-code in force for spindle, coolant and overrides. -/
structure AuxModes where
  spindle : Number
  coolant : Number
  override : Number
  deriving Repr

def AuxModes.initial : AuxModes := ⟨.int 5, .int 9, .int 48⟩

/-- What the action of a custom code does to the machine, and its verdict or complaint. -/
structure ActionResult where
  machine : Machine Number
  reports : List Diagnostic
  verdict : Except String Bool

abbrev Action := Block Number → Machine Number → ActionResult

/-- A controller with its auxiliary functions, and what it prints for the operator. -/
structure Station where
  control : Controller Number
  modes : AuxModes
  actions : Table Number Action
  printed : List String

namespace Station

def initial : Station := ⟨.initial, .initial, .empty, []⟩

def report (s : Station) (d : Diagnostic) : Station := { s with control := s.control.report d }

def print (s : Station) (text : String) : Station := { s with printed := s.printed ++ [text] }

def setMachine (s : Station) (m : Machine Number) : Station :=
  { s with control := { s.control with machine := m } }

def machine (s : Station) : Machine Number := s.control.machine

end Station

namespace Auxiliary

structure Result where
  station : Station
  outcome : Except Fault Bool

def done (s : Station) : Result := ⟨s, .ok true⟩

def refuse (s : Station) (b : Block Number) (message : String) : Result :=
  ⟨s.report (.onLine b.line .semantic message), .ok false⟩

/-- Start the spindle at the block's speed, or at the one set before. -/
def startSpindle (code direction : String) (b : Block Number) (s : Station) : Result :=
  let s := match b.param .s with
    | some v => s.setMachine { s.machine with speed := v }
    | none => s
  match s.machine.speed.holds .le (.int 0) with
  | .error f => ⟨s, .error f⟩
  | .ok true => refuse s b s!"Spindle speed must be set before {code}"
  | .ok false => done (s.print s!"Spindle {direction} at {s.machine.speed.text} RPM ({code})")

def toolChange (b : Block Number) (s : Station) : Result :=
  let s := match b.tool with
    | some t => s.setMachine { s.machine with tool := t }
    | none => s
  done (s.print s!"Tool change to T{s.machine.tool.text} (M6)")

def setTool (b : Block Number) (s : Station) : Result :=
  match b.param .q with
  | none => refuse s b "M61 requires Q parameter for tool number"
  | some q =>
    match q.truncate with
    | .error f => ⟨s, .error f⟩
    | .ok n =>
      done ((s.setMachine { s.machine with tool := .int n }).print
        s!"Current tool set to T{n} (M61)")

/-- A switch that the P word turns on or off; without one nothing happens. -/
def switch (name code : String) (b : Block Number) (s : Station) : Result :=
  match b.param .p with
  | none => done s
  | some p =>
    let status := if p.isZero then "disabled" else "enabled"
    done (s.print s!"{name} {status} ({code})")

/-- The end of a program stops spindle and coolant. -/
def endProgram (text : String) (s : Station) : Result :=
  done ({ s with modes := { s.modes with spindle := .int 5, coolant := .int 9 } }.print text)

def perform (m : MCode) (b : Block Number) (s : Station) : Result :=
  match m with
  | .pause => done (s.print s!"Program paused at line {b.line} (M0)")
  | .optionalPause => done (s.print s!"Optional pause at line {b.line} (M1)")
  | .programEnd => endProgram s!"Program ended at line {b.line} (M2)" s
  | .programEndRewind => endProgram s!"Program ended and rewound at line {b.line} (M30)" s
  | .palletChange => done (s.print s!"Pallet change pause at line {b.line} (M60)")
  | .spindleCw => startSpindle "M3" "CW" b s
  | .spindleCcw => startSpindle "M4" "CCW" b s
  | .spindleStop => done (s.print "Spindle stopped (M5)")
  | .toolChange => toolChange b s
  | .setTool => setTool b s
  | .mistOn => done (s.print "Mist coolant on (M7)")
  | .floodOn => done (s.print "Flood coolant on (M8)")
  | .coolantOff => done (s.print "Coolant off (M9)")
  | .overridesOn => done (s.print "Override controls enabled (M48)")
  | .overridesOff => done (s.print "Override controls disabled (M49)")
  | .feedOverride => switch "Feed override" "M50" b s
  | .spindleOverride => switch "Spindle override" "M51" b s
  | .adaptiveFeed => switch "Adaptive feed" "M52" b s
  | .feedStop => switch "Feed stop" "M53" b s

/-- The code is in force from now on, in the spelling it was given. -/
def noteMode (m : MCode) (code : Number) (modes : AuxModes) : AuxModes :=
  match m with
  | .spindleCw | .spindleCcw | .spindleStop => { modes with spindle := code }
  | .mistOn | .floodOn | .coolantOff => { modes with coolant := code }
  | .overridesOn | .overridesOff | .feedOverride | .spindleOverride | .adaptiveFeed | .feedStop =>
    { modes with override := code }
  | _ => modes

/-- Whether a code is one of the custom ones, 100 to 199. -/
def isCustom (code : Number) : Except Fault Bool := do
  if ← Number.holds .le (.int 100) code then code.holds .le (.int 199) else return false

/-- Give a custom code an action. -/
def register (code : Number) (a : Action) (s : Station) : Except Fault Station := do
  if ← isCustom code then return { s with actions := s.actions.put code a }
    else .error .notACustomCode

/-- A custom code without an action is only warned about. -/
def executeCustom (code : Number) (b : Block Number) (s : Station) : Bool × Station :=
  match s.actions.get? code with
  | none =>
    (true, s.report ⟨b.line, 0, 0, s!"Custom M-code M{code.text} not implemented",
      .semantic, .warning⟩)
  | some a =>
    let r := a b s.machine
    let s := r.reports.foldl Station.report (s.setMachine r.machine)
    match r.verdict with
    | .ok ok => (ok, s)
    | .error text =>
      (false, s.report (.onLine b.line .runtime s!"Error in custom M{code.text}: {text}"))

/-- Carry out a built-in code; faults on the way are reported. -/
def executeBuiltin (m : MCode) (code : Number) (b : Block Number) (s : Station) : Bool × Station :=
  let r := perform m b s
  match r.outcome with
  | .ok ok => (ok, { r.station with modes := noteMode m code r.station.modes })
  | .error f =>
    (false, r.station.report
      (.onLine b.line .runtime s!"Error executing M{code.text}: {f.message}"))

/-- Carry out a code: the station after it and whether it succeeded. A code that is no number cannot
be told from a custom one, which is a fault. -/
def execute (code : Number) (b : Block Number) (s : Station) : Result :=
  match MCode.ofNumber? code with
  | some m =>
    let (ok, s) := executeBuiltin m code b s
    ⟨s, .ok ok⟩
  | none =>
    match isCustom code with
    | .error f => ⟨s, .error f⟩
    | .ok true =>
      let (ok, s) := executeCustom code b s
      ⟨s, .ok ok⟩
    | .ok false => refuse s b s!"Unsupported M-code: M{code.text}"

/-- Carry out codes until one fails. -/
def executeAll (b : Block Number) : List Number → Station → Result
  | [], s => done s
  | code :: rest, s =>
    match execute code b s with
    | ⟨s, .ok true⟩ => executeAll b rest s
    | r => r

end Auxiliary
end Machining
