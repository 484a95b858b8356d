import Machining.Text.Letter

namespace Machining.Expression
open Machining.Text

inductive Operator where
  | eq | ne | gt | ge | lt | le | and | or | xor | mod
  deriving DecidableEq, Repr

namespace Operator

def all : List Operator := [eq, ne, gt, ge, lt, le, and, or, xor, mod]

def word : Operator → String
  | eq => "EQ"
  | ne => "NE"
  | gt => "GT"
  | ge => "GE"
  | lt => "LT"
  | le => "LE"
  | and => "AND"
  | or => "OR"
  | xor => "XOR"
  | mod => "MOD"

def symbol : Operator → String
  | eq => "=="
  | ne => "!="
  | gt => ">"
  | ge => ">="
  | lt => "<"
  | le => "<="
  | and => " and "
  | or => " or "
  | xor => "^"
  | mod => "%"

end Operator

/-- Apply `f` to the maximal runs of word characters; `word` is the run so far, last character
first. -/
def mapWordsFrom (f : List Char → List Char) (word : List Char) : List Char → List Char
  | [] => if word.isEmpty then [] else f word.reverse
  | c :: cs =>
    if isWordChar c then mapWordsFrom f (c :: word) cs
    else (if word.isEmpty then [] else f word.reverse) ++ c :: mapWordsFrom f [] cs

def mapWords (f : List Char → List Char) (cs : List Char) : List Char := mapWordsFrom f [] cs

def Operator.replaceWord (op : Operator) (w : List Char) : List Char :=
  if w.map Char.toUpper = op.word.toList then op.symbol.toList else w

/-- Replace one operator wherever it stands as a word of its own. -/
def Operator.substitute (op : Operator) (cs : List Char) : List Char := mapWords op.replaceWord cs

def replaceOperators (cs : List Char) : List Char :=
  Operator.all.foldl (fun cs op => op.substitute cs) cs

end Machining.Expression
