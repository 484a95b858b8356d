import Machining.Number
import Machining.Text.Digit

namespace Machining.Expression

inductive Numeral where
  | real (n : Number)
  | imaginary (x : Float)
  /-- A whole number with more digits than one may be written with. -/
  | overlong (digits : Nat)
  deriving Repr

inductive Radix where
  | binary | octal | decimal | hexadecimal
  deriving DecidableEq, Repr

namespace Radix

def base : Radix → Nat
  | binary => 2
  | octal => 8
  | decimal => 10
  | hexadecimal => 16

def word : Radix → String
  | binary => "binary"
  | octal => "octal"
  | decimal => "decimal"
  | hexadecimal => "hexadecimal"

/-- The radix that a letter behind a leading zero announces. -/
def ofLetter? (c : Char) : Option Radix :=
  match c.toLower with
  | 'b' => some binary
  | 'o' => some octal
  | 'x' => some hexadecimal
  | _ => none

def digitOf (c : Char) : Nat := if c.isDigit then c.toNat - 0x30 else c.toLower.toNat - 0x57

def isDigit (r : Radix) (c : Char) : Bool :=
  (c.isDigit || (0x61 ≤ c.toLower.toNat && c.toLower.toNat ≤ 0x66)) && digitOf c < r.base

/-- What a row of digits counts for; underscores count for nothing. -/
def value (r : Radix) (ds : List Char) : Nat :=
  (ds.filter (· ≠ '_')).foldl (fun n c => r.base * n + digitOf c) 0

/-- The digits at the head of a text and the underscores between them. `due` tells that a digit has
to follow, and `free` that an underscore may. -/
def row (r : Radix) (due free : Bool) : List Char → Except String (List Char)
  | [] => if due then .error s!"invalid {r.word} literal" else .ok []
  | c :: cs =>
    if r.isDigit c then (row r false true cs).map (c :: ·)
    else if c.isDigit then .error s!"invalid digit '{c}' in {r.word} literal"
    else if free && c = '_' then (row r true false cs).map (c :: ·)
    else if due then .error s!"invalid {r.word} literal"
    else .ok []

end Radix

/-- A numeral and the number of characters it takes. -/
structure FoundNumeral where
  numeral : Numeral
  size : Nat

/-- A character that could go on a name. -/
def isWordLike (c : Char) : Bool := c = '_' || c.isAlphanum || 0x80 ≤ c.toNat

/-- Whether a text starts with a word, and the word ends there. -/
def startsWord (word : String) (cs : List Char) : Bool :=
  word.toList.isPrefixOf cs && !((cs.drop word.length).head?.any isWordLike)

/-- Words that may follow a numeral without a blank. -/
def mayFollow (cs : List Char) : Bool :=
  (["and", "else", "for", "or", "not"].any fun w => startsWord w cs)
    || ["if", "in", "is"].any fun w => w.toList.isPrefixOf cs

/-- A letter, a digit or an underscore must not follow a numeral. -/
def checkEnd (kind : String) (cs : List Char) : Except String Unit :=
  if mayFollow cs then .ok ()
  else match cs with
    | c :: _ => if c = '_' ∨ c.isAlphanum then .error s!"invalid {kind} literal" else .ok ()
    | [] => .ok ()

def exponentSign : List Char → List Char
  | '+' :: _ => ['+']
  | '-' :: _ => ['-']
  | _ => []

def startsDigit : List Char → Bool
  | d :: _ => d.isDigit
  | [] => false

/-- An exponent, empty if there is none. -/
def exponentRow : List Char → Except String (List Char)
  | e :: cs =>
    if e = 'e' ∨ e = 'E' then
      let sign := exponentSign cs
      let behind := cs.drop sign.length
      if startsDigit behind then
        (Radix.decimal.row true false behind).map fun ds => e :: sign ++ ds
      else if sign.isEmpty then (checkEnd "decimal" (e :: cs)).map fun _ => []
      else .error "invalid decimal literal"
    else .ok []
  | [] => .ok []

def exponentValue (cs : List Char) : Int :=
  let n : Int := Radix.decimal.value (cs.filter Char.isDigit)
  if cs.contains '-' then -n else n

/-- The point and the digits behind it, empty if there is no point. -/
def fractionRow : List Char → Except String (List Char)
  | '.' :: cs =>
    if startsDigit cs then (Radix.decimal.row true false cs).map ('.' :: ·) else .ok ['.']
  | _ => .ok []

/-- A whole number in decimal digits. -/
def wholeNumeral (ds : List Char) : Numeral :=
  let digits := ds.filter (· ≠ '_')
  if digits.all (· = '0') then .real (.int 0)
  else if Text.digitLimit < digits.length then .overlong digits.length
  else .real (.int (Radix.decimal.value digits))

/-- A decimal number, written with a fraction or an exponent if it is not whole. -/
def decimalValue (whole fraction exponent : List Char) : Float :=
  let places := fraction.filter Char.isDigit
  Binary64.ofDecimal false (Radix.decimal.value (whole ++ places))
    (exponentValue exponent - places.length)

/-- A zero stands before other digits of a whole number. Before a word with `e`, which might be an
exponent, it is let pass. -/
def hasLeadingZero (ds behind : List Char) : Bool :=
  ds.head? = some '0' && (ds.any fun c => c ≠ '0' ∧ c ≠ '_') && behind.head? ≠ some 'e'

def decimalNumeral (cs : List Char) : Except String FoundNumeral := do
  let whole ← if startsDigit cs then Radix.decimal.row true false cs else .ok []
  let fraction ← fractionRow (cs.drop whole.length)
  let exponent ← exponentRow (cs.drop (whole.length + fraction.length))
  let size := whole.length + fraction.length + exponent.length
  match cs.drop size with
  | c :: behind =>
    if c = 'j' ∨ c = 'J' then
      checkEnd "imaginary" behind
      return ⟨.imaginary (decimalValue whole fraction exponent), size + 1⟩
  | [] => pure ()
  if fraction.isEmpty ∧ exponent.isEmpty then
    if hasLeadingZero whole (cs.drop size) then
      .error ("leading zeros in decimal integer literals are not permitted; "
        ++ "use an 0o prefix for octal integers")
    else
      checkEnd "decimal" (cs.drop size)
      return ⟨wholeNumeral whole, size⟩
  else
    checkEnd "decimal" (cs.drop size)
    return ⟨.real (.float (decimalValue whole fraction exponent)), size⟩

/-- The numeral at the head of a text that starts with a digit, or with a point and a digit. -/
def numeral (cs : List Char) : Except String FoundNumeral :=
  match cs with
  | '0' :: l :: rest =>
    match Radix.ofLetter? l with
    | some r => do
      let ds ← r.row true true rest
      checkEnd r.word (rest.drop ds.length)
      return ⟨.real (.int (r.value ds)), 2 + ds.length⟩
    | none => decimalNumeral cs
  | _ => decimalNumeral cs

def startsNumeral : List Char → Bool
  | '.' :: cs => startsDigit cs
  | cs => startsDigit cs

end Machining.Expression
