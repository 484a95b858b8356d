import Machining.Flow.Read

namespace Machining.Flow
open Machining.Expression (Evaluator)

/-- A command's effect: the state after it and the position to go on at, or a fault. -/
abbrev Effect := Routine × Except Fault (Option Int)

def goOn (r : Routine) : Effect := (r, .ok none)

def jump (r : Routine) (i : Int) : Effect := (r, .ok (some i))

def complain (r : Routine) (c : Command) (message : String) : Effect :=
  goOn (r.report (.onLine c.line .runtime message))

/-- The arguments of a call become the parameters from 1 on. -/
def passArguments (p : Parameters) : Int → List Number → Parameters
  | _, [] => p
  | i, v :: vs => passArguments ((p.setNumbered? i v).getD p) (i + 1) vs

def call (c : Command) (r : Routine) : Effect :=
  match r.flow.subroutines.get? c.label with
  | none => complain r c s!"Undefined subroutine: O{c.label.text}"
  | some s =>
    let frame : Frame := ⟨c.label, r.flow.line + 1, c.arguments⟩
    jump { r with
      parameters := passArguments r.parameters 1 c.arguments
      flow := { r.flow with calls := r.flow.calls ++ [frame] } } (s.first + 1)

/-- A command's expression, unless it is missing or empty. -/
def expression? (c : Command) : Option String := c.expression.filter (!·.isEmpty)

def returnFrom [Evaluator] (c : Command) (r : Routine) : Effect :=
  match r.flow.calls.getLast? with
  | none => complain r c "Return outside of subroutine"
  | some frame =>
    let back := fun (r : Routine) (v : Option Number) =>
      jump { r with flow := { r.flow with returned := v, calls := r.flow.calls.dropLast } }
        frame.returnTo
    match expression? c with
    | none => back r none
    | some text =>
      match r.evaluate text c.line with
      | (r, .error f) => (r, .error f)
      | (r, .ok x) => back r (some (.float x))

/-- A condition that fails goes on at the next position, past the block of the command itself. -/
def conditional [Evaluator] (c : Command) (word : String) (r : Routine) : Effect :=
  if word = "if" ∨ word = "elseif" then
    match expression? c with
    | none => goOn r
    | some text =>
      match r.evaluate text c.line with
      | (r, .error f) => (r, .error f)
      | (r, .ok x) => if x == 0.0 then jump r (r.flow.line + 1) else goOn r
  else goOn r

def openLoop (r : Routine) (l : Loop) : Effect :=
  goOn { r with flow := { r.flow with loops := r.flow.loops ++ [l] } }

/-- The innermost loop, if it has this label. -/
def innermost? (f : Flow) (label : Label) : Option Loop :=
  f.loops.getLast?.filter (·.label = label)

def closeLoop (r : Routine) : Routine :=
  { r with flow := { r.flow with loops := r.flow.loops.dropLast } }

def whileLoop [Evaluator] (c : Command) (word : String) (r : Routine) : Effect :=
  if word = "while" then
    match expression? c with
    | none => goOn r
    | some text =>
      match r.evaluate text c.line with
      | (r, .error f) => (r, .error f)
      | (r, .ok x) =>
        if x == 0.0 then jump r (r.flow.line + 1)
        else openLoop r ⟨.whileLoop, c.label, r.flow.line, r.flow.line, c.expression, none, 0⟩
  else if word = "endwhile" then
    match innermost? r.flow c.label with
    | none => goOn r
    | some l => jump (closeLoop r) l.first
  else goOn r

/-- Count another round of the innermost loop. -/
def countRound (r : Routine) (l : Loop) : Routine :=
  { r with flow := { r.flow with
      loops := r.flow.loops.dropLast ++ [{ l with iteration := l.iteration + 1 }] } }

def repeatLoop [Evaluator] (c : Command) (word : String) (r : Routine) : Effect :=
  if word = "repeat" then
    match expression? c with
    | none => goOn r
    | some text =>
      match r.evaluate text c.line with
      | (r, .error f) => (r, .error f)
      | (r, .ok x) =>
        if x ≤ 0.0 then jump r (r.flow.line + 1)
        else match (Number.float x).truncate with
          | .error f => (r, .error f)
          | .ok n =>
            openLoop r ⟨.repeatLoop, c.label, r.flow.line, r.flow.line, none, some n, 0⟩
  else if word = "endrepeat" then
    match innermost? r.flow c.label with
    | none => goOn r
    | some l =>
      match l.count with
      | none => (countRound r l, .error (.incomparable "<" "int" "NoneType"))
      | some n =>
        if l.iteration + 1 < n then jump (countRound r l) (l.first + 1) else goOn (closeLoop r)
  else goOn r

/-- The loops outside the innermost one with a label, and that one. -/
def findLoop? (loops : List Loop) (label : Label) : Option (List Loop × Loop) :=
  match loops.reverse.dropWhile (·.label ≠ label) with
  | [] => none
  | l :: outer => some (outer.reverse, l)

def breakLoop (c : Command) (r : Routine) : Effect :=
  match findLoop? r.flow.loops c.label with
  | none => complain r c s!"Break outside of loop O{c.label.text}"
  | some (outer, l) => jump { r with flow := { r.flow with loops := outer } } (l.last + 1)

def continueLoop (c : Command) (r : Routine) : Effect :=
  match r.flow.loops.reverse.find? fun l =>
      l.label = c.label && (l.kind = .whileLoop || l.kind = .repeatLoop) with
  | none => complain r c s!"Continue outside of loop O{c.label.text}"
  | some l => jump r (if l.kind = .whileLoop then l.first else l.last)

def perform [Evaluator] (c : Command) (r : Routine) : Effect :=
  let withWord := fun (next : String → Effect) =>
    match commandWord r.flow c with
    | .error f => (r, .error f)
    | .ok word => next word
  match c.kind with
  | .call => call c r
  | .returnFrom => returnFrom c r
  | .conditional => withWord fun word => conditional c word r
  | .whileLoop => withWord fun word => whileLoop c word r
  | .repeatLoop => withWord fun word => repeatLoop c word r
  | .breakLoop => breakLoop c r
  | .continueLoop => continueLoop c r
  | .sub => goOn r

/-- Carry out the command at a position, if there is one. Faults are reported, but from an
evaluation that does not come back there is no way on. -/
def execute [Evaluator] (i : Int) (r : Routine) : Effect :=
  match r.flow.commands.get? i with
  | none => goOn r
  | some c =>
    match perform c { r with flow := { r.flow with line := i } } with
    | (r, .ok next) => (r, .ok next)
    | (r, .error f) =>
      if f = .endless then (r, .error f)
      else complain r c s!"Error executing O-word: {f.message}"

end Machining.Flow
