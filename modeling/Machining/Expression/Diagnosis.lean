import Machining.Expression.Grammar

namespace Machining.Expression

/-- A piece of text: what it is, on which line it starts and which lexemes it takes. -/
structure Piece where
  shape : Shape
  line : Nat
  start : Nat
  stop : Nat

/-- Where a piece ends, and the piece if it is one that objections may be about. -/
structure Fit where
  stop : Nat
  piece? : Option Piece

inductive Attempt where
  | fits (f : Fit)
  | fails
  /-- A rule for a mistake fits and has nothing to say; its other alternatives are not tried. -/
  | drops

structure Reading where
  /-- How many lexemes were looked at. -/
  reached : Nat
  complaint? : Option Complaint
  /-- Whether the complaint came with a lexeme. -/
  final : Bool
  /-- What rules found, by where they started. -/
  kept : Array (List (Rule × Option Fit))

namespace Reading

def lineOf (ls : Array Placed) (i : Nat) : Nat := (ls[i]?.map Placed.line).getD 0

def complain (s : Reading) (c : Complaint) (final : Bool) : Reading :=
  { s with complaint? := some c, final }

/-- Look at a lexeme, which may be a complaint. -/
def look (ls : Array Placed) (i : Nat) (s : Reading) : Reading :=
  if i < s.reached then s
  else
    let s := { s with reached := i + 1 }
    match ls[i]?.map Placed.lexeme with
    | some (.stop c _ _) => s.complain c true
    | some (.broken c) => s.complain c true
    | _ => s

def remembered? (s : Reading) (r : Rule) (i : Nat) : Option (Option Fit) :=
  (s.kept[i]?.getD []).lookup r

def keep (s : Reading) (r : Rule) (i : Nat) (f : Option Fit) : Reading :=
  { s with kept := s.kept.modify i fun fs => (r, f) :: fs.filter fun e => e.1 ≠ r }

end Reading

/-- The shape of a lexeme that a rule may ask for. -/
def Wanted.shape? : Wanted → Lexeme → Option (Option Shape)
  | word s, .symbol t => if s = t then some none else none
  | word s, .name t => if s = t then some none else none
  | name, .name t => if reserved.contains t then none else some (some (.name t))
  | softWord, .name t => if ["_", "case", "match"].contains t then some none else none
  | numeral, .numeral _ => some (some .literal)
  | text, .text => some none
  | lineEnd, .lineEnd => some none
  | finish, .finish => some none
  | _, _ => none

/-- A whole number that is too long is complained about as soon as it is read. -/
def overlongComplaint? (l : Placed) : Option Complaint :=
  match l.lexeme with
  | .numeral (.overlong digits) =>
    let limit := s!"Exceeds the limit ({Text.digitLimit} digits) for integer string conversion: "
    let advice :=
      "use sys.set_int_max_str_digits() to increase the limit - Consider hexadecimal for "
      ++ "huge integer literals to avoid decimal conversion limits."
    some ⟨limit ++ s!"value has {digits} digits; " ++ advice, l.line⟩
  | _ => none

def tryLexeme (ls : Array Placed) (w : Wanted) (i : Nat) (s : Reading) : Attempt × Reading :=
  match ls[i]? with
  | none => (.fails, s)
  | some l =>
    match w.shape? l.lexeme, overlongComplaint? l with
    | some _, some c => (.fails, s.complain c false)
    | some shape?, none => (.fits ⟨i + 1, shape?.map (⟨·, l.line, i, i + 1⟩)⟩, s)
    | none, _ => (.fails, s)

def isCommand (s : String) : Bool := s = "print" || s = "exec"

def Piece.isCommand (p : Piece) : Bool :=
  match p.shape with
  | .name s => Expression.isCommand s
  | _ => false

/-- Whether two stars that stand for named arguments are in a row of arguments. -/
def Piece.hasDoubleStar (ls : Array Placed) (p : Piece) : Bool :=
  let depth := (ls[p.start - 1]?.map Placed.depth).getD 0
  (List.range (p.stop - p.start)).any fun k =>
    match ls[p.start + k]?, ls[p.start + k - 1]? with
    | some ⟨.symbol "**", _, d⟩, some ⟨.symbol before, _, _⟩ =>
      d = depth && (before = "," || before = "(")
    | _, _ => false

/-- What an objection says about a piece, the lexemes up to `stop` fitting its rule. -/
def Objection.reason? (ls : Array Placed) (stop : Nat) (p : Piece) : Objection → Option String
  | comma =>
    if p.isCommand || (ls[stop - 1]?.map Placed.depth).getD 0 = 0 then none
    else some "invalid syntax. Perhaps you forgot a comma?"
  | withoutElse => some "expected 'else' after 'if' expression"
  | command =>
    match p.shape with
    | .name s =>
      if isCommand s then some s!"Missing parentheses in call to '{s}'. Did you mean {s}(...)?"
      else none
    | _ => none
  | assignTo => some s!"cannot use assignment expressions with {p.shape.word}"
  | equalsName => some "invalid syntax. Maybe you meant '==' or ':=' instead of '='?"
  | equals => some s!"cannot assign to {p.shape.word} here. Maybe you meant '==' instead of '='?"
  | loneStar => some "Invalid star expression"
  | starred => some "cannot use starred expression here"
  | doubleStarred => some "cannot use double starred expression here"
  | starAfterDouble => some "iterable argument unpacking follows keyword argument unpacking"
  | positional =>
    if p.hasDoubleStar ls then some "positional argument follows keyword argument unpacking"
    else some "positional argument follows keyword argument"
  | assignConstant => some s!"cannot assign to {p.shape.word}"
  | assignArgument => some "expression cannot contain assignment, perhaps you meant \"==\"?"
  | colon => some "':' expected after dictionary key"
  | starredValue => some "cannot use a starred expression in a dictionary value"
  | noValue => some "expression expected after dictionary key and ':'"

/-- An objection is on the line where its piece starts; one about the order of arguments, or about a
star with nothing behind it, is on the line that the reading has come to. -/
def Objection.line (ls : Array Placed) (s : Reading) (p : Piece) : Objection → Nat
  | positional => Reading.lineOf ls (s.reached - 1)
  | loneStar => Reading.lineOf ls (s.reached - 1)
  | _ => p.line

def raise (ls : Array Placed) (o : Objection) (f : Fit) (s : Reading) : Attempt × Reading :=
  match f.piece? with
  | none => (.drops, s)
  | some p =>
    match o.reason? ls f.stop p with
    | some reason => (.fails, s.complain ⟨reason, o.line ls s p⟩ false)
    | none => (.drops, s)

mutual

/-- Try a pattern at a lexeme. `picky` tells whether the rules for mistakes are used, and the fuel
bounds how deep patterns nest. -/
def attempt (ls : Array Placed) :
    Nat → (picky : Bool) → Pattern → Nat → Reading → Attempt × Reading
  | 0, _, _, _, s => (.fails, s)
  | fuel + 1, picky, p, i, s =>
    if s.complaint?.isSome then (.fails, s)
    else match p with
      | .empty => (.fits ⟨i, none⟩, s)
      | .never => (.fails, s)
      | .lexeme w =>
        let s := s.look ls i
        if s.complaint?.isSome then (.fails, s) else tryLexeme ls w i s
      | .rule r => attemptRule ls fuel picky r i (s.look ls i)
      | .both p q =>
        match attempt ls fuel picky p i s with
        | (.fits f, s) =>
          match attempt ls fuel picky q f.stop s with
          | (.fits g, s) => (.fits ⟨g.stop, f.piece?.or g.piece?⟩, s)
          | other => other
        | other => other
      | .either p q =>
        match attempt ls fuel picky p i s with
        | (.fails, s) => attempt ls fuel picky q i s
        | other => other
      | .many p =>
        match attempt ls fuel picky p i s with
        | (.fits f, s) =>
          if f.stop ≤ i then (.fits ⟨i, none⟩, s)
          else match attempt ls fuel picky (.many p) f.stop s with
            | (.fits g, s) => (.fits ⟨g.stop, f.piece?.or g.piece?⟩, s)
            | (_, s) => (.fits f, s)
        | (_, s) => (.fits ⟨i, none⟩, s)
      | .ahead p =>
        match attempt ls fuel picky p i s with
        | (.fits _, s) => (.fits ⟨i, none⟩, s)
        | other => other
      | .without p =>
        match attempt ls fuel picky p i s with
        | (.fits _, s) => (.fails, s)
        | (_, s) => (.fits ⟨i, none⟩, s)
      | .shaped shape p =>
        match attempt ls fuel picky p i s with
        | (.fits f, s) => (.fits ⟨f.stop, some ⟨shape, Reading.lineOf ls i, i, f.stop⟩⟩, s)
        | other => other
      | .silent p =>
        match attempt ls fuel picky p i s with
        | (.fits f, s) => (.fits ⟨f.stop, none⟩, s)
        | other => other
      | .wrong p => if picky then attempt ls fuel picky p i s else (.fails, s)
      | .quiet p => attempt ls fuel false p i s
      | .object o p =>
        match attempt ls fuel picky p i s with
        | (.fits f, s) => if s.complaint?.isSome then (.fails, s) else raise ls o f s
        | other => other

def attemptRule (ls : Array Placed) :
    Nat → (picky : Bool) → Rule → Nat → Reading → Attempt × Reading
  | 0, _, _, _, s => (.fails, s)
  | fuel + 1, picky, r, i, s =>
    if r.kept then
      match s.remembered? r i with
      | some (some f) => (.fits f, s)
      | some none => (.fails, s)
      | none =>
        if r.grows then extend ls fuel picky r i none s
        else
          match attempt ls fuel picky r.pattern i s with
          | (.fits f, s) => (.fits f, s.keep r i (some f))
          | (_, s) => (.fails, s.keep r i none)
    else
      match attempt ls fuel picky r.pattern i s with
      | (.drops, s) => (.fails, s)
      | other => other

/-- Extend what a rule that starts with itself has found. -/
def extend (ls : Array Placed) :
    Nat → (picky : Bool) → Rule → Nat → Option Fit → Reading → Attempt × Reading
  | 0, _, _, _, _, s => (.fails, s)
  | fuel + 1, picky, r, i, best, s =>
    let found : Attempt := match best with
      | some f => .fits f
      | none => .fails
    let s := s.keep r i best
    match attempt ls fuel picky r.pattern i s with
    | (.fits f, s) =>
      if f.stop ≤ (best.map Fit.stop).getD i then (found, s)
      else extend ls fuel picky r i (some f) s
    | (_, s) => (found, s)

end

/-- Read a text as a whole, `reached` lexemes having been looked at before. -/
def readAs (ls : Array Placed) (picky : Bool) (reached : Nat) : Reading :=
  (attempt ls (512 * (ls.size + 2)) picky (.rule .whole) 0
    ⟨reached, none, false, Array.replicate (ls.size + 1) []⟩).2

/-- A complaint gives way to what is wrong with lexemes further on, and to a bracket that was opened
on a line before and is not closed at the end. -/
def overruled (ls : Array Placed) (s : Reading) (c : Complaint) : Complaint :=
  match ls.back?.map Placed.lexeme with
  | some (.broken other) => other
  | some (.stop _ (some other) _) =>
    if other.line < Reading.lineOf ls (s.reached - 1) then other else c
  | _ => c

/-- Whether the reading, or the lexeme that it came to, has seen the end of the text. -/
def Reading.seesEnd (ls : Array Placed) (s : Reading) : Bool :=
  match ls.back?.map Placed.lexeme with
  | some (.stop _ _ seen) => seen && s.reached + 1 = ls.size
  | _ => false

/-- A complaint of a reading is not overruled if the end has been seen. -/
def Reading.verdict (ls : Array Placed) (s : Reading) (c : Complaint) : Complaint :=
  if s.final || s.seesEnd ls then c else overruled ls s c

/-- What is wrong with a text that is no expression. It is read by the rules of the grammar, first
without those for mistakes. If that gives no complaint the rules for mistakes are tried, and if
they do not object either the text is wrong where the first reading came to. -/
def diagnose (ls : Array Placed) : Complaint :=
  let first := readAs ls false 0
  match first.complaint? with
  | some c => first.verdict ls c
  | none =>
    let second := readAs ls true first.reached
    match second.complaint? with
    | some c => second.verdict ls c
    | none =>
      match ls[first.reached - 1]? with
      | some ⟨.indent, _, _⟩ => ⟨"unexpected indent", Reading.lineOf ls (second.reached - 1)⟩
      | _ => overruled ls second ⟨"invalid syntax", Reading.lineOf ls (first.reached - 1)⟩

end Machining.Expression
