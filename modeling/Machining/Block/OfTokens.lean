import Machining.Block.Check

namespace Machining.Block

/-- The value of a tool or label word: a whole number, zero if the word holds none. -/
def wholeWord (value : String) : Except Fault Int :=
  match Decimal.ofText? value with
  | some x => (Number.float x).truncate
  | none => .ok 0

def addWord (b : Block Number) (l : Letter) (value : String) : Except Fault (Block Number) :=
  let number := (Decimal.ofText? value).map Number.float
  match l with
  | .g => .ok (match number with | some v => { b with g := b.g.put v v } | none => b)
  | .m => .ok (match number with | some v => { b with m := b.m.put v v } | none => b)
  | .o => .ok { b with oWord := some value }
  | .axis i => .ok { b with axes := b.axes.set i number }
  | .param d => .ok { b with params := b.params.set d number }
  | .t => (wholeWord value).map fun n => { b with tool := some (.int n) }
  | .n => (wholeWord value).map fun n => { b with label := some (.int n) }

/-- Record a token in its block. -/
def add (b : Block Number) (t : Token) : Except Fault (Block Number) :=
  let b := { b with tokens := b.tokens ++ [t] }
  match t.kind with
  | .word l => b.addWord l t.value
  | .comment .plain => .ok { b with comment := some t.value }
  | .comment .message => .ok { b with message := some t.value }
  | .comment .debug => .ok { b with debug := some t.value }
  | .comment .script => .ok { b with script := some t.value }
  | _ => .ok b

/-- The blocks of a program with the reports on them; no blocks if an infinite tool or label word
stopped the reading. -/
structure Reading where
  blocks? : Option (List (Block Number))
  reports : List Diagnostic

namespace Reading

def nothing : Reading := ⟨some [], []⟩

def stopped : Reading := ⟨none, []⟩

def report (ds : List Diagnostic) (r : Reading) : Reading := { r with reports := ds ++ r.reports }

/-- A block that ends before the rest: it is kept if it is valid. -/
def close (current : Option (Block Number)) (r : Reading) : Reading :=
  match current with
  | none => r
  | some b =>
    (if b.isValid then { r with blocks? := r.blocks?.map (b :: ·) } else r).report b.reports

end Reading

/-- Read on with the block that is open. A tool or label word that is no number is reported and
leaves its block as it was. -/
def readFrom : Option (Block Number) → List Token → Reading
  | _, [] => .nothing
  | current, t :: ts =>
    match t.kind with
    | .newline => .close current (readFrom none ts)
    | .endOfText => .close current .nothing
    | _ =>
      let b := current.getD (.empty t.line)
      match b.add t with
      | .ok b => readFrom (some b) ts
      | .error .infinityToInteger => .stopped
      | .error e =>
        .report [Diagnostic.error t.line t.start t.stop .syntactic e.message]
          (readFrom (some { b with tokens := b.tokens ++ [t] }) ts)

def ofTokens (ts : List Token) : Reading := readFrom none ts

end Machining.Block
