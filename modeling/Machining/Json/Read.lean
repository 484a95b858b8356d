import Machining.Decimal.Reading
import Machining.Json

namespace Machining.Json

def isSpace (c : Char) : Bool := c = ' ' || c = '\t' || c = '\n' || c = '\r'

def skipSpaces (cs : List Char) : List Char := cs.dropWhile isSpace

def hexValue? (c : Char) : Option Nat :=
  let n := c.toNat
  if 0x30 ≤ n ∧ n ≤ 0x39 then some (n - 0x30)
  else if 0x41 ≤ n ∧ n ≤ 0x46 then some (n - 0x37)
  else if 0x61 ≤ n ∧ n ≤ 0x66 then some (n - 0x57)
  else none

/-- The number that four hexadecimal digits write. -/
def unit? (a b c d : Char) : Option Nat :=
  match hexValue? a, hexValue? b, hexValue? c, hexValue? d with
  | some a, some b, some c, some d => some (((a * 16 + b) * 16 + c) * 16 + d)
  | _, _, _, _ => none

def isHigh (n : Nat) : Bool := 0xD800 ≤ n && n < 0xDC00

def isLow (n : Nat) : Bool := 0xDC00 ≤ n && n < 0xE000

/-- The character of a unit that stands alone. -/
def unitChar (n : Nat) : Char := if isHigh n || isLow n then Text.loneUnit n else Char.ofNat n

def pairChar (high low : Nat) : Char :=
  Char.ofNat (0x10000 + (high - 0xD800) * 0x400 + (low - 0xDC00))

def shortEscape? : Char → Option Char
  | '"' => some '"'
  | '\\' => some '\\'
  | '/' => some '/'
  | 'b' => some (Char.ofNat 8)
  | 'f' => some (Char.ofNat 12)
  | 'n' => some '\n'
  | 'r' => some '\r'
  | 't' => some '\t'
  | _ => none

/-- Put a character before others. Two halves that meet are one character, and so are two of the
private characters that halves are kept as, even if no escape wrote them. -/
def push (c : Char) : List Char → List Char
  | [] => [c]
  | d :: s =>
    match Text.loneUnit? c, Text.loneUnit? d with
    | some high, some low =>
      if isHigh high && isLow low then push (pairChar high low) s else c :: d :: s
    | _, _ => c :: d :: s

/-- The characters up to the closing quote, and the rest. -/
def stringFrom : List Char → Option (List Char × List Char)
  | [] => none
  | '"' :: cs => some ([], cs)
  | '\\' :: 'u' :: a :: b :: c :: d :: cs =>
    match unit? a b c d with
    | none => none
    | some n => (stringFrom cs).map fun (s, rest) => (push (unitChar n) s, rest)
  | '\\' :: c :: cs =>
    match shortEscape? c with
    | none => none
    | some c => (stringFrom cs).map fun (s, rest) => (push c s, rest)
  | c :: cs =>
    if c.toNat < 0x20 ∨ c = '\\' then none
    else (stringFrom cs).map fun (s, rest) => (push c s, rest)

def digitsNat (ds : List Char) : Nat := ds.foldl (fun n c => 10 * n + (c.toNat - 0x30)) 0

/-- Digits after a point; the point belongs to the number only if a digit follows. -/
def fractionPart : List Char → List Char × List Char
  | '.' :: cs =>
    let ds := cs.takeWhile Char.isDigit
    if ds.isEmpty then ([], '.' :: cs) else (ds, cs.dropWhile Char.isDigit)
  | cs => ([], cs)

/-- An exponent belongs to the number only if a digit follows. -/
def exponentPart : List Char → Option Int × List Char
  | e :: cs =>
    if e = 'e' ∨ e = 'E' then
      let (negative, rest) := Decimal.sign cs
      let ds := rest.takeWhile Char.isDigit
      if ds.isEmpty then (none, e :: cs)
      else (some (if negative then -(digitsNat ds : Int) else digitsNat ds),
        rest.dropWhile Char.isDigit)
    else (none, e :: cs)
  | [] => (none, [])

/-- The digits before a point; a zero stands alone. -/
def wholeDigits : List Char → List Char
  | '0' :: _ => ['0']
  | cs => cs.takeWhile Char.isDigit

/-- A number without its sign: no zero leads other digits, and a point or an exponent makes it a
decimal. Whole numbers have no more digits than the limit. -/
def unsigned? (negative : Bool) (cs : List Char) : Option (Number × List Char) :=
  let ds := wholeDigits cs
  if ds.isEmpty then none
  else
    let (part, rest) := fractionPart (cs.drop ds.length)
    let (e, rest) := exponentPart rest
    if part.isEmpty && e.isNone then
      if Text.digitLimit < ds.length then none
      else some (.int (if negative then -(digitsNat ds : Int) else digitsNat ds), rest)
    else
      some (.float (Binary64.ofDecimal negative (digitsNat (ds ++ part)) (e.getD 0 - part.length)),
        rest)

def dropWord? (word : String) (cs : List Char) : Option (List Char) :=
  if word.toList.isPrefixOf cs then some (cs.drop word.length) else none

/-- The words that stand for a value. -/
def names : List (String × Json) :=
  [("null", null), ("true", bool true), ("false", bool false),
    ("NaN", number (.float Binary64.notANumber)), ("Infinity", number (.float Binary64.posInf)),
    ("-Infinity", number (.float Binary64.negInf))]

def named? (cs : List Char) : Option (Json × List Char) :=
  names.findSome? fun (word, j) => (dropWord? word cs).map (j, ·)

def scalar? (cs : List Char) : Option (Json × List Char) :=
  (named? cs).or <|
    (match cs with
      | '-' :: rest => unsigned? true rest
      | _ => unsigned? false cs).map fun (n, rest) => (number n, rest)

mutual

/-- A value and the rest. The fuel bounds nesting and length together. -/
def value : Nat → List Char → Option (Json × List Char)
  | 0, _ => none
  | fuel + 1, cs =>
    match cs with
    | '"' :: cs => (stringFrom cs).map fun (s, rest) => (string (String.ofList s), rest)
    | '[' :: cs =>
      match skipSpaces cs with
      | ']' :: rest => some (array [], rest)
      | cs => (itemsFrom fuel cs).map fun (js, rest) => (array js, rest)
    | '\x7b' :: cs =>
      match skipSpaces cs with
      | '\x7d' :: rest => some (object [], rest)
      | cs => (membersFrom fuel cs .empty).map fun (ms, rest) => (object ms.entries, rest)
    | cs => scalar? cs

def itemsFrom : Nat → List Char → Option (List Json × List Char)
  | 0, _ => none
  | fuel + 1, cs =>
    match value fuel cs with
    | none => none
    | some (j, rest) =>
      match skipSpaces rest with
      | ',' :: rest => (itemsFrom fuel (skipSpaces rest)).map fun (js, rest) => (j :: js, rest)
      | ']' :: rest => some ([j], rest)
      | _ => none

def membersFrom : Nat → List Char → Table String Json → Option (Table String Json × List Char)
  | 0, _, _ => none
  | fuel + 1, cs, members =>
    match cs with
    | '"' :: cs =>
      match stringFrom cs with
      | none => none
      | some (key, rest) =>
        match skipSpaces rest with
        | ':' :: rest =>
          match value fuel (skipSpaces rest) with
          | none => none
          | some (j, rest) =>
            let members := members.put (String.ofList key) j
            match skipSpaces rest with
            | ',' :: rest => membersFrom fuel (skipSpaces rest) members
            | '\x7d' :: rest => some (members, rest)
            | _ => none
        | _ => none
    | _ => none

end

/-- The value a text holds, with nothing but spaces around it. Of several members with one key the
last one counts. -/
def ofText? (s : String) : Option Json :=
  let cs := s.toList
  match value (2 * cs.length + 2) (skipSpaces cs) with
  | some (j, rest) => if (skipSpaces rest).isEmpty then some j else none
  | none => none

end Machining.Json
