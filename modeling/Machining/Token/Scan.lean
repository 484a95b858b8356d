import Machining.Diagnostic
import Machining.Text.Blank
import Machining.Text.Digit
import Machining.Text.Letter
import Machining.Token

namespace Machining.Token
open Machining.Text

/-- What scanning a line finds, from left to right. -/
inductive Item where
  | token (t : Token)
  | report (d : Diagnostic)

def Item.token? : Item → Option Token
  | token t => some t
  | report _ => none

def Item.report? : Item → Option Diagnostic
  | token _ => none
  | report d => some d

/-- The letter that a character at the head of a word stands for. Case does not count: besides the
ASCII letters this takes in the dotless i and the long s, which are small forms of `I` and `S`, and
the dotted capital i and the kelvin sign, which stand for themselves. -/
def wordLetter? (c : Char) : Option Char :=
  if c.isAlpha then some c.toUpper
  else match c.toNat with
    | 0x131 => some 'I'
    | 0x17F => some 'S'
    | 0x130 => some c
    | 0x212A => some c
    | _ => none

def signPart : List Char → List Char
  | '+' :: _ => ['+']
  | '-' :: _ => ['-']
  | _ => []

/-- Digits around an optional point, with at least one digit. -/
def mantissaPart (cs : List Char) : List Char :=
  let whole := cs.takeWhile isDigit
  match cs.dropWhile isDigit with
  | '.' :: rest =>
    let part := rest.takeWhile isDigit
    if whole.isEmpty && part.isEmpty then [] else whole ++ '.' :: part
  | _ => whole

def exponentPart : List Char → List Char
  | e :: cs =>
    if e = 'e' ∨ e = 'E' then
      let digits := (cs.drop (signPart cs).length).takeWhile isDigit
      if digits.isEmpty then [] else e :: signPart cs ++ digits
    else []
  | [] => []

/-- The longest numeral that a text starts with, empty if there is none. -/
def numeral (cs : List Char) : List Char :=
  let sign := signPart cs
  let mantissa := mantissaPart (cs.drop sign.length)
  if mantissa.isEmpty then []
  else sign ++ mantissa ++ exponentPart (cs.drop (sign.length + mantissa.length))

def isOperator (c : Char) : Bool := c = '+' || c = '-' || c = '*' || c = '/'

/-- Word characters, and operators that a word character follows. -/
def operands : List Char → List Char
  | [] => []
  | c :: cs =>
    if isWordChar c then c :: operands cs
    else if isOperator c && (match cs with | d :: _ => isWordChar d | [] => false)
      then c :: operands cs
    else []

/-- A variable, possibly joined to further operands; empty if there is none. -/
def reference : List Char → List Char
  | '#' :: d :: cs => if isWordChar d then '#' :: operands (d :: cs) else []
  | _ => []

/-- The value that follows the letter of a word. -/
def wordValue (cs : List Char) : List Char :=
  let n := numeral cs
  if n.isEmpty then reference cs else n

/-- Capital form, as far as the tags of comments are concerned. -/
def tagUpper (c : Char) : Char := if c.toNat = 0x17F then 'S' else c.toUpper

/-- The tags of comments and what they announce. -/
def tags : List (String × CommentKind) :=
  [("MSG,", .message), ("DEBUG,", .debug), ("PY,", .script)]

/-- The kind and the value of a closed comment. The tag is looked for behind leading blanks; the
value is the text less as many characters as the tag has. -/
def classify (body : List Char) : CommentKind × List Char :=
  let upper := (trim body).map tagUpper
  match tags.find? fun tag => tag.1.toList.isPrefixOf upper with
  | some (tag, kind) => (kind, trim (body.drop tag.length))
  | none => (.plain, body)

/-- The token or report that starts at a character, with the number of characters it takes; none
for the rest of the line. -/
structure Step where
  items : List Item
  /-- How many characters after the first one belong to it. -/
  more : Option Nat

def tokenAt (line : Nat) (kind : TokenKind) (value : List Char) (start stop : Nat) : Item :=
  .token ⟨kind, String.ofList value, line, start, stop⟩

def reportAt (line start stop : Nat) (message : String) : Item :=
  .report (Diagnostic.error line start stop .syntactic message)

/-- A comment in parentheses; `width` is the length of the whole line. -/
def comment (line width pos : Nat) (cs : List Char) : Step :=
  let body := cs.takeWhile (· ≠ ')')
  if (cs.dropWhile (· ≠ ')')).isEmpty then
    ⟨[reportAt line pos width "Unclosed parenthesis in comment",
      tokenAt line (.comment .plain) cs pos width], none⟩
  else
    let (kind, value) := classify body
    ⟨[tokenAt line (.comment kind) value pos (pos + body.length + 2)], none⟩

def unrecognized (line pos : Nat) (c : Char) : Step :=
  ⟨[reportAt line pos (pos + 1) s!"Unrecognized character: '{c}'"], some 0⟩

def bracketed (line pos : Nat) (cs : List Char) : Step :=
  let body := cs.takeWhile (· ≠ ']')
  if body.isEmpty || (cs.dropWhile (· ≠ ']')).isEmpty then unrecognized line pos '['
  else ⟨[tokenAt line .expression body pos (pos + body.length + 2)], some (body.length + 1)⟩

def word (line pos : Nat) (c letter : Char) (cs : List Char) : Step :=
  let value := wordValue cs
  if value.isEmpty then unrecognized line pos c
  else
    let stop := pos + value.length + 1
    match Letter.ofChar? letter with
    | some l => ⟨[tokenAt line (.word l) value pos stop], some value.length⟩
    | none => ⟨[reportAt line pos stop s!"Unknown G-code letter: {letter}"], some value.length⟩

def step (line width pos : Nat) (c : Char) (cs : List Char) : Step :=
  if isBlank c then ⟨[], some 0⟩
  else if c = '(' then comment line width pos cs
  else if c = ';' then ⟨[tokenAt line (.comment .plain) cs pos width], none⟩
  else if c = '[' then bracketed line pos cs
  else match wordLetter? c with
    | some letter => word line pos c letter cs
    | none => unrecognized line pos c

/-- Scan from a column on; `skip` characters still belong to the item before. -/
def scanFrom (line width : Nat) : Nat → Nat → List Char → List Item
  | _, _, [] => []
  | pos, skip + 1, _ :: cs => scanFrom line width (pos + 1) skip cs
  | pos, 0, c :: cs =>
    let s := step line width pos c cs
    s.items ++ match s.more with
      | some n => scanFrom line width (pos + 1) n cs
      | none => []

/-- Scan a line. Blanks at its ends belong to no token. A word is a letter and the longest
numeral, or the longest row of variable and operators, behind it. A comment ends its line, and a
character that starts no token is reported and skipped. -/
def scanLine (line : Nat) (cs : List Char) : List Item :=
  scanFrom line cs.length (cs.length - (trimStart cs).length) 0 (trim cs)

def lines (text : String) : List (List Char) := splitAt '\n' text.toList

def scanLines : Nat → List (List Char) → List Item
  | _, [] => []
  | line, cs :: rest =>
    scanLine line cs ++ tokenAt line .newline ['\n'] cs.length cs.length :: scanLines
      (line + 1) rest

/-- Scan a program; its last token marks the end of the text. -/
def scanText (text : String) : List Item :=
  scanLines 1 (lines text) ++ [.token ⟨.endOfText, "", (lines text).length, 0, 0⟩]

/-- The tokens of a program and the errors found on the way. -/
def scan (text : String) : List Token × List Diagnostic :=
  let items := scanText text
  (items.filterMap Item.token?, items.filterMap Item.report?)

end Machining.Token
