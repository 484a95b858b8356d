import Machining.Axis

namespace Machining

/-- The letters whose words carry a number for one block. -/
inductive Param where
  | i | j | k | l | p | q | r | h
  /-- Feed rate. -/
  | f
  /-- Spindle speed. -/
  | s
  deriving DecidableEq, Repr

namespace Param

def all : List Param := [i, j, k, l, p, q, r, h, f, s]

def letter : Param → Char
  | i => 'I' | j => 'J' | k => 'K' | l => 'L' | p => 'P'
  | q => 'Q' | r => 'R' | h => 'H' | f => 'F' | s => 'S'

end Param

/-- The letters that head words. -/
inductive Letter where
  | g
  | m
  /-- Control words. -/
  | o
  | axis (word : Axis)
  | param (word : Param)
  /-- Tool. -/
  | t
  /-- Line label. -/
  | n
  deriving DecidableEq, Repr

namespace Letter

def all : List Letter :=
  [g, m, o] ++ Axis.all.map axis ++ Param.all.map param ++ [t, n]

def char : Letter → Char
  | g => 'G'
  | m => 'M'
  | o => 'O'
  | axis word => word.letter
  | param word => word.letter
  | t => 'T'
  | n => 'N'

def ofChar? (c : Char) : Option Letter := all.find? fun l => l.char = c

end Letter

/-- Comments with a tag in front carry something for the operator, the log or a script. -/
inductive CommentKind where
  | plain
  | message
  | debug
  | script
  deriving DecidableEq, Repr

inductive TokenKind where
  | word (l : Letter)
  | number
  | reference
  | expression
  | comment (k : CommentKind)
  | newline
  | endOfText
  deriving DecidableEq, Repr

namespace TokenKind

def text : TokenKind → String
  | word l => l.char.toString
  | number => "NUMBER"
  | reference => "VARIABLE"
  | expression => "EXPRESSION"
  | comment .plain => "COMMENT"
  | comment .message => "MSG_COMMENT"
  | comment .debug => "DEBUG_COMMENT"
  | comment .script => "PYTHON_COMMENT"
  | newline => "NEWLINE"
  | endOfText => "EOF"

end TokenKind

/-- A token covers columns `start` to `stop`, the latter excluded, of its line. -/
structure Token where
  kind : TokenKind
  value : String
  line : Int
  start : Int
  stop : Int
  deriving DecidableEq, Repr

def Token.text (t : Token) : String := t.kind.text ++ ":" ++ t.value

end Machining
