import Machining.Number
import Machining.Table
import Machining.Text.Unit

namespace Machining

inductive Json where
  | null
  | bool (b : Bool)
  | number (n : Number)
  | string (s : String)
  | array (items : List Json)
  | object (members : List (String × Json))
  deriving Repr, Inhabited

namespace Json

def int (n : Int) : Json := number (.int n)

def field? (j : Json) (key : String) : Option Json :=
  match j with
  | object members => (members.find? fun m => m.1 = key).map (·.2)
  | _ => none

def hexDigit (n : Nat) : Char := if n < 10 then Char.ofNat (0x30 + n) else Char.ofNat (0x57 + n)

/-- A code unit by its number. -/
def unitEscape (n : Nat) : List Char :=
  ['\\', 'u', hexDigit (n / 4096 % 16), hexDigit (n / 256 % 16), hexDigit (n / 16 % 16),
    hexDigit (n % 16)]

/-- A character beyond the first 65536 is a pair of units. -/
def pairEscape (c : Char) : List Char :=
  let n := c.toNat - 0x10000
  unitEscape (0xD800 + n / 1024) ++ unitEscape (0xDC00 + n % 1024)

/-- A character inside a string; everything but printable ASCII is escaped. -/
def escaped (c : Char) : List Char :=
  if c = '"' then ['\\', '"']
  else if c = '\\' then ['\\', '\\']
  else if c = '\n' then ['\\', 'n']
  else if c = '\r' then ['\\', 'r']
  else if c = '\t' then ['\\', 't']
  else if c.toNat = 0x08 then ['\\', 'b']
  else if c.toNat = 0x0C then ['\\', 'f']
  else if 0x20 ≤ c.toNat ∧ c.toNat < 0x7F then [c]
  else if c.toNat < 0x10000 then unitEscape c.toNat
  else match Text.loneUnit? c with
    | some n => unitEscape n
    | none => pairEscape c

def quoted (s : String) : List Char := '"' :: s.toList.flatMap escaped ++ ['"']

/-- Decimals keep their shortest form; the values that JSON has no digits for have names. -/
def numberText : Number → String
  | .int n => Decimal.intText n
  | .float x =>
    if x.isNaN then "NaN"
    else if x.isInf then (if x < 0.0 then "-Infinity" else "Infinity")
    else Decimal.text x
  | .missing => "null"

/-- How a value is spaced: without any blank, or with every item on a line of its own, two blanks in
for each bracket around it. -/
inductive Spacing where
  | close
  | lines (depth : Nat)

/-- The spacing inside a bracket. -/
def Spacing.inner : Spacing → Spacing
  | close => close
  | lines depth => lines (depth + 1)

/-- What stands before an item, and before the bracket that closes the last one. -/
def Spacing.gap : Spacing → List Char
  | close => []
  | lines depth => '\n' :: List.replicate (2 * depth) ' '

/-- What stands between a key and its value. -/
def Spacing.colon : Spacing → List Char
  | close => [':']
  | lines _ => [':', ' ']

mutual

def chars (s : Spacing) : Json → List Char
  | null => "null".toList
  | bool b => if b then "true".toList else "false".toList
  | number n => (numberText n).toList
  | string t => quoted t
  | array items => '[' :: itemChars s items ++ [']']
  | object members => '\x7b' :: memberChars s members ++ ['\x7d']

def itemChars (s : Spacing) : List Json → List Char
  | [] => []
  | [j] => s.inner.gap ++ (chars s.inner j ++ s.gap)
  | j :: js => s.inner.gap ++ (chars s.inner j ++ ',' :: itemChars s js)

def memberChars (s : Spacing) : List (String × Json) → List Char
  | [] => []
  | [(k, j)] => s.inner.gap ++ (quoted k ++ (s.colon ++ (chars s.inner j ++ s.gap)))
  | (k, j) :: ms =>
    s.inner.gap ++ (quoted k ++ (s.colon ++ (chars s.inner j ++ ',' :: memberChars s ms)))

end

def text (s : Spacing) (j : Json) : String := String.ofList (j.chars s)

end Json
end Machining
