import Machining.Decimal.Reading
import Machining.Diagnostic
import Machining.Number
import Machining.Table

namespace Machining

/-- How a program refers to a parameter. -/
inductive Reference where
  | numbered (n : Int)
  | named (name : String)
  deriving DecidableEq, Repr

/-- A hash and a whole number, or a hash and a name in angle brackets. -/
def Reference.ofText? (s : String) : Option Reference :=
  match s.toList with
  | '#' :: '<' :: cs =>
    if cs.getLast? = some '>' then some (.named (String.ofList cs.dropLast))
    else (Decimal.intOfText? (String.ofList ('<' :: cs))).map .numbered
  | '#' :: cs => (Decimal.intOfText? (String.ofList cs)).map .numbered
  | _ => none

/-- Numbered and named parameters belong to the program. System parameters, and the predefined
names that show some of them, are kept by the machine and only read by programs. -/
structure Parameters where
  numbered : Table Int Number
  locals : Table String Number
  globals : Table String Number
  system : Table Int Number
  predefined : Table String Number
  deriving Repr

namespace Parameters

/-- Position, tool, modes and the offsets of the nine coordinate systems. -/
def initialSystem : Table Int Number :=
  let position := (List.range 9).map fun i => ((5420 + i : Nat), Number.float 0.0)
  let tool := (List.range 12).map fun i => ((5400 + i : Nat), Number.int 0)
  let modes := [(5070, 1), (5080, 17), (5090, 90), (5100, 94), (5110, 21), (5120, 40), (5130, 49),
    (5140, 54), (5150, 64), (5160, 98)].map fun (n, code) => (n, Number.int code)
  let offsets := (List.range 9).flatMap fun i =>
    (List.range 9).map fun k => ((5200 + 20 * i + k : Nat), Number.float 0.0)
  ⟨(position ++ tool ++ modes ++ offsets).map fun (n, v) => (Int.ofNat n, v)⟩

def initialPredefined : Table String Number :=
  ⟨["_x", "_y", "_z", "_a", "_b", "_c", "_u", "_v", "_w"].map (·, Number.float 0.0) ++
    [("_motion", .int 1), ("_plane", .int 17), ("_distance", .int 90), ("_feed", .int 0),
      ("_speed", .int 0), ("_tool", .int 0)]⟩

def initial : Parameters := ⟨.empty, .empty, .empty, initialSystem, initialPredefined⟩

/-- Programs write the parameters 1 to 5399. -/
def setNumbered? (p : Parameters) (n : Int) (v : Number) : Option Parameters :=
  if 1 ≤ n ∧ n ≤ 5399 then some { p with numbered := p.numbered.put n v } else none

/-- System parameters hide the program's own; what was never set is zero. -/
def getNumbered (p : Parameters) (n : Int) : Number :=
  (p.system.get? n).getD ((p.numbered.get? n).getD (.float 0.0))

/-- One underscore in front marks a global name on writing. -/
def isGlobalName (name : String) : Bool :=
  match name.toList with
  | '_' :: '_' :: _ => false
  | '_' :: _ => true
  | _ => false

def startsWithUnderscore (name : String) : Bool := name.toList.head? = some '_'

def setNamed? (p : Parameters) (name : String) (v : Number) : Option Parameters :=
  if isGlobalName name then
    if p.predefined.contains name then none else some { p with globals := p.globals.put name v }
  else some { p with locals := p.locals.put name v }

/-- Every name with an underscore in front is looked for among the globals. -/
def getNamed (p : Parameters) (name : String) : Number :=
  match p.predefined.get? name with
  | some v => v
  | none =>
    let table := if startsWithUnderscore name then p.globals else p.locals
    (table.get? name).getD (.float 0.0)

/-- The predefined names that follow a system parameter. -/
def synced : List (String × Int) :=
  [("_x", 5420), ("_y", 5421), ("_z", 5422), ("_tool", 5400), ("_feed", 5410), ("_speed", 5411),
    ("_motion", 5070), ("_plane", 5080), ("_distance", 5090)]

def sync (p : Parameters) : Parameters :=
  { p with predefined := synced.foldl (fun t (name, n) =>
      match p.system.get? n with
      | some v => t.put name v
      | none => t) p.predefined }

/-- The machine's own write; unknown numbers are ignored. -/
def updateSystem (p : Parameters) (n : Int) (v : Number) : Parameters :=
  if p.system.contains n then sync { p with system := p.system.put n v } else p

def updatePredefined (p : Parameters) (name : String) (v : Number) : Parameters :=
  if p.predefined.contains name then { p with predefined := p.predefined.put name v } else p

def clearLocal (p : Parameters) : Parameters := { p with locals := .empty }

def clearUser (p : Parameters) : Parameters :=
  { p with numbered := .empty, locals := .empty, globals := .empty }

def numberKey (n : Int) : String := "#" ++ Decimal.intText n

def nameKey (name : String) : String := "#" ++ name

/-- All parameters by the key that expressions use; later kinds hide earlier ones. -/
def bindings (p : Parameters) : Table String Number :=
  .ofList <|
    p.numbered.entries.map (fun (n, v) => (numberKey n, v)) ++
    p.system.entries.map (fun (n, v) => (numberKey n, v)) ++
    p.locals.entries.map (fun (name, v) => (nameKey name, v)) ++
    p.globals.entries.map (fun (name, v) => (nameKey name, v)) ++
    p.predefined.entries.map (fun (name, v) => (nameKey name, v))

inductive Scope where
  | predefined | globalName | localName | system | user
  deriving DecidableEq, Repr

def Scope.text : Scope → String
  | .predefined => "predefined"
  | .globalName => "global"
  | .localName => "local"
  | .system => "system"
  | .user => "user"

def scope (p : Parameters) : Reference → Scope
  | .named name =>
    if p.predefined.contains name then .predefined
    else if startsWithUnderscore name then .globalName
    else .localName
  | .numbered n => if 5400 ≤ n then .system else .user

def get (p : Parameters) : Reference → Number
  | .named name => p.getNamed name
  | .numbered n => p.getNumbered n

def set? (p : Parameters) (r : Reference) (v : Number) : Option Parameters :=
  match r with
  | .named name => p.setNamed? name v
  | .numbered n => p.setNumbered? n v

def isReadOnly (s : Scope) : Bool := s = .predefined || s = .system

/-- A parameter in an overview. -/
structure Listed where
  reference : Reference
  value : Number
  readOnly : Bool
  deriving Repr

/-- The parameters of a scope, as an overview lists them. -/
def listing (p : Parameters) (s : Scope) : List Listed :=
  let byNumber := fun (t : Table Int Number) => t.entries.map fun e => (Reference.numbered e.1, e.2)
  let byName := fun (t : Table String Number) => t.entries.map fun e => (Reference.named e.1, e.2)
  let listed := match s with
    | .user => byNumber p.numbered
    | .system => byNumber p.system
    | .localName => byName p.locals
    | .globalName => byName p.globals
    | .predefined => byName p.predefined
  listed.map fun e => ⟨e.1, e.2, isReadOnly s⟩

/-- An assignment by a program: the parameters after it, whether it was made, and reports. -/
structure Assigned where
  parameters : Parameters
  done : Bool
  reports : List Diagnostic

def assign (p : Parameters) (ref : String) (v : Number) (line : Int) : Assigned :=
  match Reference.ofText? ref with
  | none => ⟨p, false, [Diagnostic.onLine line .syntactic s!"Invalid variable reference: {ref}"]⟩
  | some r =>
    if isReadOnly (p.scope r) then
      ⟨p, false, [Diagnostic.onLine line .semantic s!"Cannot assign to read-only variable: {ref}"]⟩
    else match p.set? r v with
      | some q => ⟨q, true, []⟩
      | none => ⟨p, false, []⟩

end Parameters
end Machining
