import Machining.Auxiliary
import Machining.Block.OfTokens
import Machining.Flow.Execute
import Machining.Flow.Structure
import Machining.Number.Sort
import Machining.Token.Scan

namespace Machining

structure Interpreter where
  text : String
  tokens : List Token
  flow : Flow
  parameters : Parameters
  station : Station
  /-- The machine on which settings of blocks are noted. None until a program is started: then they
  are noted on the station's machine. -/
  display : Option (Machine Number)
  /-- The block to carry out next. -/
  position : Int

namespace Interpreter
open Expression (Evaluator)

def initial : Interpreter := ⟨"", [], .initial, .initial, .initial, none, 0⟩

def reports (t : Interpreter) : List Diagnostic := t.station.control.reports

def setReports (t : Interpreter) (ds : List Diagnostic) : Interpreter :=
  { t with station := { t.station with control := { t.station.control with reports := ds } } }

def path (t : Interpreter) : Toolpath Number := t.station.control.path

def blocks (t : Interpreter) : Array (Block Number) := t.flow.blocks

def machine (t : Interpreter) : Machine Number := t.display.getD t.station.machine

def modifyMachine (t : Interpreter) (f : Machine Number → Machine Number) : Interpreter :=
  match t.display with
  | some m => { t with display := some (f m) }
  | none => { t with station := t.station.setMachine (f t.station.machine) }

/-- The part that control commands work on. -/
def routine (t : Interpreter) : Routine := ⟨t.flow, t.parameters, t.reports⟩

def setRoutine (t : Interpreter) (r : Routine) : Interpreter :=
  { t with flow := r.flow, parameters := r.parameters }.setReports r.reports

/-- The text of a comment for the operator, unless it is empty. -/
def announcement (tag : String) (comment : Option String) : List String :=
  match comment with
  | some text => if text.isEmpty then [] else [s!"{tag}: {text}"]
  | none => []

def announcements (b : Block Number) : List String :=
  announcement "MSG" b.message ++ announcement "DEBUG" b.debug ++ announcement "PYTHON" b.script

/-- The feed mode that a block selects. -/
def feedMode? (b : Block Number) : Option Number :=
  [Number.int 93, .int 94, .int 95].find? b.g.contains

/-- Feed mode, feed, speed and tool of a block. -/
def note (b : Block Number) (m : Machine Number) : Machine Number :=
  let m := match feedMode? b with
    | some code => m.setMode .feedMode code
    | none => m
  { m with
    feed := (b.param .f).getD m.feed
    speed := (b.param .s).getD m.speed
    tool := b.tool.getD m.tool }

/-- The G-codes of a block in ascending order. -/
def runGCodes (b : Block Number) (s : Station) : Auxiliary.Result :=
  match Number.sort b.g.keys with
  | .error f => ⟨s, .error f⟩
  | .ok codes =>
    let (ok, control) := Motion.executeAll b codes s.control
    ⟨{ s with control }, .ok ok⟩

/-- The codes of a block: M-codes first, then G-codes, each in ascending order. -/
def runCodes (b : Block Number) (s : Station) : Auxiliary.Result :=
  match Number.sort b.m.keys with
  | .error f => ⟨s, .error f⟩
  | .ok codes =>
    match Auxiliary.executeAll b codes s with
    | ⟨s, .ok true⟩ => runGCodes b s
    | r => r

/-- Carry out a block: comments, settings, then codes. -/
def executeBlock (b : Block Number) (t : Interpreter) : Interpreter × Except Fault Bool :=
  let t := { t with station := (announcements b).foldl Station.print t.station }
  let t := t.modifyMachine (note b)
  let r := runCodes b t.station
  ({ t with station := r.station }, r.outcome)

/-- The position that the control command of a block leads to. -/
def follow [Evaluator] (b : Block Number) (t : Interpreter) :
    Interpreter × Except Fault (Option Int) :=
  match b.oWord with
  | none => (t, .ok none)
  | some oWord =>
    if oWord.isEmpty then (t, .ok none)
    else
      let (r, next) := Flow.execute t.position t.routine
      (t.setRoutine r, next)

/-- One block, or the end: the verdict, once there is one. A command that does not come back is the
last one. -/
def step [Evaluator] (t : Interpreter) : Interpreter × Option (Except Fault Bool) :=
  if t.position < t.blocks.size then
    match t.flow.blockAt? t.position with
    | none => (t, some (.error .indexOutOfRange))
    | some b =>
      match follow b t with
      | (t, .error f) => (t, some (.error f))
      | (t, .ok (some next)) => ({ t with position := next }, none)
      | (t, .ok none) =>
        match executeBlock b t with
        | (t, .error f) => (t, some (.error f))
        | (t, .ok ok) =>
          if !ok && Diagnostic.hasFatal t.reports then (t, some (.ok false))
          else ({ t with position := t.position + 1 }, none)
  else (t, some (.ok true))

/-- At most so many steps. -/
def run [Evaluator] : Nat → Interpreter → Interpreter × Except Fault Bool
  | 0, t => (t, .error .endless)
  | n + 1, t =>
    match t.step with
    | (t, some verdict) => (t, verdict)
    | (t, none) => run n t

/-- Carry out the blocks from the first one on. -/
def executeBlocks [Evaluator] (limit : Nat) (t : Interpreter) : Interpreter × Except Fault Bool :=
  run limit { t with position := 0 }

/-- Take in blocks in place of a text. -/
def load [Evaluator] (blocks : Array (Block Number)) (t : Interpreter) :
    Interpreter × Except Fault Bool :=
  let (r, verdict) := Flow.prepare blocks t.routine
  (t.setRoutine r, verdict)

/-- Forget reports, toolpath and program parameters; settings are noted on a new machine. -/
def clear (t : Interpreter) : Interpreter :=
  { t with
    station := { t.station with
      control := { t.station.control with path := .empty, reports := [] } }
    display := some .initial
    parameters := t.parameters.clearUser }

/-- Process a program. O-words of a text are single words, so there are no control commands and
every block is carried out once. -/
def process [Evaluator] (text : String) (t : Interpreter) : Interpreter × Except Fault Bool :=
  let (tokens, scanned) := Token.scan text
  let reading := Block.ofTokens tokens
  let t := { t.clear with text, tokens }.setReports (scanned ++ reading.reports)
  match reading.blocks? with
  | none => (t, .error .infinityToInteger)
  | some blocks =>
    match t.load blocks.toArray with
    | (t, .ok true) =>
      match t.executeBlocks (t.blocks.size + 1) with
      | (t, .ok ok) => (t, .ok (ok && !Diagnostic.hasFatal t.reports))
      | (t, .error f) => (t, .error f)
    | (t, verdict) => (t, verdict)

/-- Scan and read a text without carrying it out; only the reports are kept. -/
def validate (text : String) (t : Interpreter) : Interpreter × Except Fault Bool :=
  let (tokens, scanned) := Token.scan text
  let reading := Block.ofTokens tokens
  if reading.blocks?.isNone then (t, .error .infinityToInteger)
  else
    let ds := scanned ++ reading.reports
    (t.setReports ds, .ok (!Diagnostic.hasErrors ds))

/-- Forget the program. The station keeps its machine and modes. -/
def reset (t : Interpreter) : Interpreter :=
  { t.clear with
    text := ""
    tokens := []
    position := 0
    flow := { t.flow with blocks := #[], subroutines := .empty, calls := [], loops := [] } }

structure Statistics where
  lines : Nat
  blocks : Nat
  tokens : Nat
  errors : Nat
  warnings : Nat
  path : Toolpath.Statistics Number
  machine : Machine Number
  deriving Repr

def statistics (t : Interpreter) : Statistics where
  lines := (t.text.toList.filter (· = '\n')).length + 1
  blocks := t.blocks.size
  tokens := t.tokens.length
  errors := t.reports.length
  warnings := (t.reports.filter (·.isWarning)).length
  path := t.path.statistics
  machine := t.machine

end Interpreter
end Machining
