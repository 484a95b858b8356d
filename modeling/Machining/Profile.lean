import Machining.Fault
import Machining.Json.Read
import Machining.Text.Case

namespace Machining

/-- What a file says about a machine is taken as it stands, except that codes form sets. -/
structure Profile where
  name : Json
  machineType : Json
  axes : Json
  /-- Codes in ascending order, each once. -/
  gCodes : List Json
  mCodes : List Json
  maxFeed : Json
  maxSpindle : Json
  maxRapid : Json
  hasToolChanger : Json
  hasCoolant : Json
  hasSpindle : Json
  deriving Repr

namespace Profile

/-- The number that a code stands for; truth values count as one and zero. -/
def codeNumber? : Json → Option Number
  | .number n => some n
  | .bool b => some (.int (if b then 1 else 0))
  | _ => none

/-- A value that is no number comes last. -/
def compareNumbers (a b : Number) : Ordering :=
  match Number.compare? a b with
  | some o => o
  | none =>
    match a == a, b == b with
    | false, false => .eq
    | false, true => .gt
    | true, _ => .lt

/-- Numbers, then texts, then everything else. -/
def compareCodes (a b : Json) : Ordering :=
  match codeNumber? a, codeNumber? b with
  | some x, some y => compareNumbers x y
  | some _, none => .lt
  | none, some _ => .gt
  | none, none =>
    match a, b with
    | .string s, .string t => compare s t
    | .string _, _ => .lt
    | _, .string _ => .gt
    | _, _ => .eq

/-- Of equal codes the first one stays. -/
def insertCode (codes : List Json) (c : Json) : List Json :=
  match codes with
  | [] => [c]
  | d :: ds =>
    match compareCodes c d with
    | .lt => c :: d :: ds
    | .eq => d :: ds
    | .gt => d :: insertCode ds c

def codeSet (codes : List Json) : List Json := codes.foldl insertCode []

def isScalar : Json → Bool
  | .array _ | .object _ => false
  | _ => true

/-- The codes that a member of a file lists: items of an array, keys of an object, or characters. -/
def codes? : Json → Option (List Json)
  | .array items => if items.all isScalar then some (codeSet items) else none
  | .object members => some (codeSet (members.map fun m => .string m.1))
  | .string s => some (codeSet (s.toList.map fun c => .string c.toString))
  | _ => none

def float (x : Float) : Json := .number (.float x)

def texts (xs : List String) : Json := .array (xs.map .string)

def numbers (ns : List Int) : List Json := codeSet (ns.map .int)

def customCodes : List Int := (List.range 100).map fun i => Int.ofNat (100 + i)

/-- Limits and equipment where nothing else is said. -/
def standard (name machineType axes : Json) (gCodes mCodes : List Json) : Profile where
  name
  machineType
  axes
  gCodes
  mCodes
  maxFeed := float 10000.0
  maxSpindle := float 24000.0
  maxRapid := float 15000.0
  hasToolChanger := .bool true
  hasCoolant := .bool true
  hasSpindle := .bool true

def mill : Profile :=
  standard (.string "3-Axis Mill") (.string "mill") (texts ["X", "Y", "Z"])
    (numbers [0, 1, 2, 3, 17, 18, 19, 20, 21, 90, 91, 94, 54, 55, 56, 57, 58, 59, 43, 49, 80, 81,
      82, 83, 84, 85])
    (numbers ([0, 1, 2, 30, 3, 4, 5, 6, 7, 8, 9] ++ customCodes))

/-- A mill with two rotary axes. -/
def rotaryMill : Profile :=
  { mill with
    name := .string "5-Axis Mill"
    axes := texts ["X", "Y", "Z", "A", "B"]
    maxFeed := float 8000.0 }

def lathe : Profile :=
  { standard (.string "Lathe") (.string "lathe") (texts ["X", "Z"])
      (numbers [0, 1, 2, 3, 20, 21, 90, 91, 95, 54, 55, 56, 57, 58, 59, 96, 97])
      (numbers ([0, 1, 2, 30, 3, 4, 5, 6, 8, 9] ++ customCodes)) with
    maxFeed := float 3000.0
    maxSpindle := float 4000.0
    maxRapid := float 6000.0 }

/-- A plasma cutting table. -/
def plasma : Profile :=
  { standard (.string "Plasma Table") (.string "plasma") (texts ["X", "Y", "Z"])
      (numbers [0, 1, 2, 3, 20, 21, 90, 91, 94, 54, 55, 56])
      (numbers ([0, 1, 2, 30, 3, 5] ++ customCodes)) with
    maxFeed := float 6000.0
    maxSpindle := float 0.0
    maxRapid := float 12000.0
    hasToolChanger := .bool false
    hasCoolant := .bool false
    hasSpindle := .bool false }

/-- A preset by its name in any case; the mill stands in for unknown names. -/
def ofName (name : String) : Profile :=
  let presets :=
    [("mill", mill), ("mill_3axis", mill), ("mill_5axis", rotaryMill), ("lathe", lathe),
      ("plasma", plasma)]
  ((presets.find? fun e => e.1 = Text.lower name).map (·.2)).getD mill

def keys : List String :=
  ["name", "machine_type", "axes", "g_codes", "m_codes", "max_feed", "max_spindle", "max_rapid",
    "has_tool_changer", "has_coolant", "has_spindle"]

def toJson (p : Profile) : Json :=
  .object
    [("name", p.name), ("machine_type", p.machineType), ("axes", p.axes),
      ("g_codes", .array p.gCodes), ("m_codes", .array p.mCodes), ("max_feed", p.maxFeed),
      ("max_spindle", p.maxSpindle),
      ("max_rapid", p.maxRapid), ("has_tool_changer", p.hasToolChanger),
      ("has_coolant", p.hasCoolant), ("has_spindle", p.hasSpindle)]

def isKnown (j : Json) : Bool :=
  match j with
  | .object members => members.all fun m => keys.contains m.1
  | _ => false

/-- A profile names machine, axes and codes; it may state limits and equipment, and nothing else. -/
def ofJson? (j : Json) : Option Profile := do
  let gCodes ← codes? (← j.field? "g_codes")
  let mCodes ← codes? (← j.field? "m_codes")
  let base := standard (← j.field? "name") (← j.field? "machine_type")
    (← j.field? "axes") gCodes mCodes
  if isKnown j then
    some { base with
      maxFeed := (j.field? "max_feed").getD base.maxFeed
      maxSpindle := (j.field? "max_spindle").getD base.maxSpindle
      maxRapid := (j.field? "max_rapid").getD base.maxRapid
      hasToolChanger := (j.field? "has_tool_changer").getD base.hasToolChanger
      hasCoolant := (j.field? "has_coolant").getD base.hasCoolant
      hasSpindle := (j.field? "has_spindle").getD base.hasSpindle }
  else none

/-- The profile of a file; the mill stands in for files without one. -/
def load (text : String) : Profile := ((Json.ofText? text).bind ofJson?).getD mill

def save (p : Profile) : String := p.toJson.text (.lines 0)

def hasCode (codes : List Json) (code : Number) : Bool :=
  codes.any fun
    | .null => code == .missing
    | c => (codeNumber? c).any (· == code)

def supportsG (p : Profile) (code : Number) : Bool := hasCode p.gCodes code

def supportsM (p : Profile) (code : Number) : Bool := hasCode p.mCodes code

/-- Whether a text occurs in another. -/
def occursIn (s t : List Char) : Bool :=
  match t with
  | [] => s.isEmpty
  | c :: cs => s.isPrefixOf (c :: cs) || occursIn s cs

/-- What values without members are called. -/
def kindName : Json → String
  | .null => "null"
  | .bool _ => "truth value"
  | .number _ => "number"
  | .string _ => "text"
  | .array _ => "array"
  | .object _ => "object"

/-- Whether the machine has an axis, named in any case. The axes of a file may also be one text or
the keys of an object. -/
def hasAxis (p : Profile) (axis : String) : Except Fault Bool :=
  let name := Text.upper axis
  match p.axes with
  | .array items => .ok (items.any fun
    | .string s => s = name
    | _ => false)
  | .object members => .ok (members.any fun m => m.1 = name)
  | .string s => .ok (occursIn name.toList s.toList)
  | j => .error (.notIterable (kindName j))

end Profile
end Machining
