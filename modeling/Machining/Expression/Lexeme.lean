import Machining.Expression.Numeral
import Machining.Text.Name
import Machining.Text.Printable

namespace Machining.Expression
open Machining.Text

/-- What is wrong with a text, and on which line. -/
structure Complaint where
  reason : String
  line : Nat
  deriving Repr

inductive Lexeme where
  | numeral (n : Numeral)
  | name (s : String)
  | text
  | symbol (s : String)
  | lineEnd
  | indent
  | outdent
  /-- The end of the text. -/
  | finish
  /-- The text cannot be read on from here, and a bracket may be open still. The complaint counts if
  a reader gets here. `seen` tells that the lexeme before could be read only by looking this far. -/
  | stop (c : Complaint) (unclosed? : Option Complaint) (seen : Bool)
  /-- No lexeme starts here. The complaint counts before all that a reader may have. -/
  | broken (c : Complaint)
  deriving Repr

/-- Words that are no names. -/
def reserved : List String :=
  ["False", "None", "True", "and", "as", "assert", "async", "await", "break", "class", "continue",
    "def", "del", "elif", "else", "except", "finally", "for", "from", "global", "if", "import",
    "in", "is", "lambda", "nonlocal", "not", "or", "pass", "raise", "return", "try", "while",
    "with", "yield"]

/-- A lexeme, its line, and how many brackets are open behind it. -/
structure Placed where
  lexeme : Lexeme
  line : Nat
  depth : Nat
  deriving Repr

structure Bracket where
  opening : Char
  line : Nat

/-- A place in the text: its line, the brackets open there, innermost first, and the margins of the
lines that it is indented under. -/
structure Place where
  line : Nat
  brackets : List Bracket
  margins : List (Nat × Nat)

namespace Place

def depth (p : Place) : Nat := p.brackets.length

/-- A line starts behind a line end if the text goes on. -/
def nextLine (p : Place) (rest : List Char) : Place :=
  if rest.isEmpty then p else { p with line := p.line + 1 }

def put (p : Place) (l : Lexeme) : Placed := ⟨l, p.line, p.depth⟩

def unclosed? (p : Place) : Option Complaint :=
  p.brackets.head?.map fun b => ⟨s!"'{b.opening}' was never closed", b.line⟩

/-- The text cannot be read on from here. -/
def halt (p : Place) (reason : String) : Placed := p.put (.stop ⟨reason, p.line⟩ p.unclosed? false)

/-- The end of the text, which no bracket outlasts. -/
def ending (p : Place) (seen : Bool) : Placed :=
  match p.unclosed? with
  | some c => p.put (.stop c (some c) seen)
  | none => p.put .finish

/-- The text ends behind a backslash and a line end. -/
def cutShort (p : Place) : Placed :=
  match p.unclosed? with
  | some c => p.put (.stop c (some c) false)
  | none => p.halt "unexpected EOF while parsing"

/-- A backslash does not end its line. -/
def strayBackslash (p : Place) : Placed :=
  p.halt "unexpected character after line continuation character"

end Place

/-- Lexemes that end by themselves; where others end only the character behind them tells. -/
def Lexeme.endsItself : Lexeme → Bool
  | text => true
  | symbol s => 2 < s.length
  | _ => false

/-- A lexeme, the number of characters it takes and the place behind it. -/
structure Found where
  lexeme : Lexeme
  size : Nat
  behind : Place

/-- A code point in hexadecimal digits, four at least. -/
def codePoint (c : Char) : String :=
  let ds := (Nat.toDigits 16 c.toNat).map Char.toUpper
  String.ofList (List.replicate (4 - ds.length) '0' ++ ds)

/-- A character that no lexeme has. -/
def strange (c : Char) : String :=
  if isPrintable c then s!"invalid character '{c}' (U+{codePoint c})"
  else s!"invalid non-printable character U+{codePoint c}"

/-- The first character of a run that a name must not have there. -/
def strange? : List Char → Option Char
  | [] => none
  | c :: cs => if isNameStart c then cs.find? (!isNamePart ·) else some c

/-- The length of the letters before a quote that belong to the quoted text. -/
def quoteMarks (cs : List Char) : Option Nat :=
  let letters := cs.takeWhile Char.isAlpha
  let known := ["", "b", "u", "r", "f", "br", "rb", "fr", "rf"]
  match cs.drop letters.length with
  | q :: _ =>
    if (q.toNat = 0x22 ∨ q.toNat = 0x27) ∧
      known.contains (String.ofList (letters.map Char.toLower)) then
      some letters.length
    else none
  | [] => none

/-- How many characters a quoted text takes behind its opening quotes, `met` closing ones having
been met already, and how many lines it begins. Without closing quotes, the lines only. -/
def quotedRow (quote : Char) (quotes met lines size : Nat) : List Char → Except Nat (Nat × Nat)
  | [] => .error lines
  | c :: cs =>
    if quotes = 1 ∧ c = '\n' then .error lines
    else if c = quote then
      if met + 1 = quotes then .ok (size + 1, lines)
      else quotedRow quote quotes (met + 1) lines (size + 1) cs
    else if c = '\\' then
      match cs with
      | [] => .error lines
      | d :: rest =>
        let lines := if d = '\n' ∧ !rest.isEmpty then lines + 1 else lines
        quotedRow quote quotes 0 lines (size + 2) rest
    else
      let lines := if c = '\n' ∧ !cs.isEmpty then lines + 1 else lines
      quotedRow quote quotes 0 lines (size + 1) cs

/-- The quoted text at the head of a text, behind the letters that belong to it. -/
def quoted (p : Place) (letters : Nat) (cs : List Char) : Except Complaint Found :=
  match cs with
  | q :: rest =>
    let triple := [q, q].isPrefixOf rest
    let quotes := if triple then 3 else 1
    match quotedRow q quotes 0 0 0 (rest.drop (quotes - 1)) with
    | .ok (size, lines) =>
      .ok ⟨.text, letters + quotes + size, { p with line := p.line + lines }⟩
    | .error lines =>
      let kind := if triple then "triple-quoted string" else "string"
      .error ⟨s!"unterminated {kind} literal (detected at line {p.line + lines})", p.line⟩
  | [] => .ok ⟨.text, letters, p⟩

/-- The symbols, longer ones before those they start with. -/
def symbols : List String :=
  ["**=", "//=", ">>=", "<<=", "...", "!=", "%=", "&=", "**", "*=", "+=", "-=", "->", "//", "/=",
    ":=", "<<", "<=", "<>", "==", ">=", ">>", "@=", "^=", "|="]

/-- No more brackets than these may be open at a time. -/
def bracketLimit : Nat := 200

def closing (c : Char) : Char :=
  if c = '(' then ')' else if c = '[' then ']' else Char.ofNat 0x7D

/-- The place behind a character that may be a bracket. -/
def bracketed (p : Place) (c : Char) : Except Complaint Place :=
  if c = '(' ∨ c = '[' ∨ c.toNat = 0x7B then
    if p.depth < bracketLimit then .ok { p with brackets := ⟨c, p.line⟩ :: p.brackets }
    else .error ⟨"too many nested parentheses", p.line⟩
  else if c = ')' ∨ c = ']' ∨ c.toNat = 0x7D then
    match p.brackets with
    | [] => .error ⟨s!"unmatched '{c}'", p.line⟩
    | b :: outer =>
      if closing b.opening = c then .ok { p with brackets := outer }
      else
        let wrong := s!"closing parenthesis '{c}' does not match opening parenthesis '{b.opening}'"
        .error ⟨if b.line = p.line then wrong else s!"{wrong} on line {b.line}", p.line⟩
  else .ok p

/-- The symbol at the head of a text; a character that is none is a symbol that nothing reads. -/
def symbolAt (p : Place) (cs : List Char) : Except Complaint Found :=
  match symbols.find? fun s => s.toList.isPrefixOf cs with
  | some s => .ok ⟨.symbol s, s.length, p⟩
  | none =>
    match cs with
    | c :: _ => do
      let behind ← bracketed p c
      if isPrintable c then .ok ⟨.symbol c.toString, 1, behind⟩ else .error ⟨strange c, p.line⟩
    | [] => .ok ⟨.finish, 0, p⟩

def lexemeAt (p : Place) (cs : List Char) : Except Complaint Found :=
  match quoteMarks cs with
  | some letters => quoted p letters (cs.drop letters)
  | none =>
    if startsNumeral cs then
      match numeral cs with
      | .ok n => .ok ⟨.numeral n.numeral, n.size, p⟩
      | .error reason => .error ⟨reason, p.line⟩
    else
      let run := cs.takeWhile isWordLike
      if run.isEmpty then symbolAt p cs
      else match strange? run with
        | some c => .error ⟨strange c, p.line⟩
        | none => .ok ⟨.name (String.ofList run), run.length, p⟩

def isSpacing (c : Char) : Bool := c = ' ' || c = '\t' || c.toNat = 0xC

/-- The margin of a line: its width with tabs to every eighth column and with tabs one column wide,
and what comes behind it. `kept` is the width before the first backslash. -/
structure Margin where
  width : Nat
  narrow : Nat
  kept : Nat × Nat
  place : Place
  rest : List Char

/-- The margin at the head of a line; a lexeme instead if the text ends within. -/
def marginFrom (m : Margin) : List Char → Except Placed Margin
  | [] => .ok { m with rest := [] }
  | ' ' :: cs => marginFrom { m with width := m.width + 1, narrow := m.narrow + 1 } cs
  | '\t' :: cs => marginFrom { m with width := (m.width / 8 + 1) * 8, narrow := m.narrow + 1 } cs
  | '\\' :: '\n' :: cs =>
    if cs.isEmpty then .error m.place.cutShort
    else
      let kept := if m.kept.1 = 0 then (m.width, m.narrow) else m.kept
      marginFrom { m with kept, place := m.place.nextLine cs } cs
  | '\\' :: _ => .error m.place.strayBackslash
  | c :: cs =>
    if c.toNat = 0xC then marginFrom { m with width := 0, narrow := 0 } cs
    else .ok { m with rest := c :: cs }

def Margin.size (m : Margin) : Nat × Nat := if m.kept.1 = 0 then (m.width, m.narrow) else m.kept

/-- What a margin means after those before it: the lexemes for it and the place behind them. -/
def Margin.shift (m : Margin) : Except Placed (List Placed × Place) :=
  let p := m.place
  let current := p.margins.head?.getD (0, 0)
  let uneven := p.halt "inconsistent use of tabs and spaces in indentation"
  if m.size.1 = current.1 then if m.size.2 = current.2 then .ok ([], p) else .error uneven
  else if current.1 < m.size.1 then
    if m.size.2 ≤ current.2 then .error uneven
    else .ok ([p.put .indent], { p with margins := m.size :: p.margins })
  else
    let outer := p.margins.dropWhile fun margin => m.size.1 < margin.1
    let level := outer.head?.getD (0, 0)
    if level.1 ≠ m.size.1 then
      .error (p.halt "unindent does not match any outer indentation level")
    else if level.2 ≠ m.size.2 then .error uneven
    else .ok ([p.put .outdent], { p with margins := outer })

mutual

/-- Lexemes from here on. The fuel bounds the number of steps, which take a character or a
margin. -/
def lexemesFrom : Nat → Place → List Char → List Placed
  | 0, _, _ => []
  | _ + 1, p, [] => [p.ending false]
  | fuel + 1, p, c :: cs =>
    if isSpacing c then lexemesFrom fuel p cs
    else if c = '#' then lexemesFrom fuel p (cs.dropWhile (· ≠ '\n'))
    else if c = '\n' then
      if p.depth = 0 then p.put .lineEnd :: linesFrom fuel (p.nextLine cs) cs
      else lexemesFrom fuel (p.nextLine cs) cs
    else if c = '\\' then
      match cs with
      | ['\n'] => [p.cutShort]
      | '\n' :: cs => lexemesFrom fuel (p.nextLine cs) cs
      | _ => [p.strayBackslash]
    else
      match lexemeAt p (c :: cs) with
      | .error complaint => [p.put (.broken complaint)]
      | .ok found =>
        let rest := cs.drop (found.size - 1)
        ⟨found.lexeme, p.line, found.behind.depth⟩ ::
          if rest.isEmpty then [found.behind.ending !found.lexeme.endsItself]
          else lexemesFrom fuel found.behind rest

/-- Lexemes from the start of a line on. Lines with nothing but a comment do not count. -/
def linesFrom : Nat → Place → List Char → List Placed
  | 0, _, _ => []
  | fuel + 1, p, cs =>
    match marginFrom ⟨0, 0, (0, 0), p, []⟩ cs with
    | .error last => [last]
    | .ok m =>
      match m.rest with
      | '\n' :: cs => linesFrom fuel (m.place.nextLine cs) cs
      | '#' :: cs =>
        match cs.dropWhile (· ≠ '\n') with
        | _ :: cs => linesFrom fuel (m.place.nextLine cs) cs
        | [] => [m.place.ending false]
      | rest =>
        match m.shift with
        | .error last => [last]
        | .ok (shifts, p) => shifts ++ lexemesFrom fuel p rest

end

/-- Each of the ways to end a line counts as the one line end. -/
def unifyLineEnds : List Char → List Char
  | [] => []
  | '\r' :: '\n' :: cs => '\n' :: unifyLineEnds cs
  | c :: cs => (if c = '\r' then '\n' else c) :: unifyLineEnds cs

/-- The lexemes of a text. Blanks and tabs before it do not count. -/
def lexemes (cs : List Char) : List Placed :=
  let cs := unifyLineEnds (cs.dropWhile fun c => c = ' ' || c = '\t')
  linesFrom (2 * cs.length + 2) ⟨if cs.isEmpty then 0 else 1, [], []⟩ cs

end Machining.Expression
