import Machining.Expression.Lexeme

namespace Machining.Expression

/-- What a piece of an expression is. -/
inductive Shape where
  | name (s : String)
  | constant (s : String)
  | literal | operation | comparison | conditional | named | call | member | subscript | starred
  | tuple | list | dict | set | generator
  deriving Repr

def Shape.word : Shape → String
  | name _ => "name"
  | constant s => s
  | literal => "literal"
  | operation => "expression"
  | comparison => "comparison"
  | conditional => "conditional expression"
  | named => "named expression"
  | call => "function call"
  | member => "attribute"
  | subscript => "subscript"
  | starred => "starred"
  | tuple => "tuple"
  | list => "list"
  | dict => "dict literal"
  | set => "set display"
  | generator => "generator expression"

/-- What is said against a piece of text that fits the rule for a mistake. -/
inductive Objection where
  | comma | withoutElse | command | assignTo | equalsName | equals | loneStar | starred
  | doubleStarred | starAfterDouble | positional | assignConstant | assignArgument | colon
  | starredValue | noValue
  deriving DecidableEq, Repr

inductive Rule where
  | whole | expressions | expression | quietExpression | wrongExpression | command
  | starExpressions | starExpression | starItems | starItem | assignment | item | wrongItem
  | disjunction | conjunction | inversion | comparison | comparand
  | bitOr | bitXor | bitAnd | shift | sum | product | factor | power | primary
  | slices | slice | atom | group | wrongGroup | tuple | list | listFor | generator | wrongFor
  | dict | pairs | pair | keyed | wrongPairs | wrongPair | dictFor | set | setFor
  | arguments | wrongArguments | args | argument | keywords | starArgument | keyword | doubleKeyword
  | wrongKeyword
  deriving DecidableEq, Repr

/-- Kinds of lexemes that a rule asks for. -/
inductive Wanted where
  /-- A symbol or a reserved word. -/
  | word (s : String)
  | name | numeral | text | lineEnd | finish
  /-- A name that is a word of some other construct. -/
  | softWord
  deriving Repr

/-- Alternatives are tried in order, and the first that fits is taken. -/
inductive Pattern where
  | empty
  | never
  | lexeme (w : Wanted)
  | rule (r : Rule)
  | both (p q : Pattern)
  | either (p q : Pattern)
  | many (p : Pattern)
  | ahead (p : Pattern)
  | without (p : Pattern)
  /-- A piece of a shape of its own. -/
  | shaped (s : Shape) (p : Pattern)
  /-- A piece that an objection is not about. -/
  | silent (p : Pattern)
  /-- Used only when looking for what is wrong. -/
  | wrong (p : Pattern)
  /-- Without the rules for mistakes. -/
  | quiet (p : Pattern)
  | object (o : Objection) (p : Pattern)

namespace Pattern

def word (s : String) : Pattern := lexeme (.word s)

def row (ps : List Pattern) : Pattern := ps.foldr both empty

def choice (ps : List Pattern) : Pattern := ps.foldr either never

def maybe (p : Pattern) : Pattern := either p empty

def some (p : Pattern) : Pattern := both p (many p)

/-- One or more with commas between them. -/
def gather (p : Pattern) : Pattern := both p (many (both (word ",") p))

/-- Operands that an operator joins. -/
def joined (l : Rule) (op : String) (r : Rule) : Pattern :=
  shaped .operation (row [rule l, word op, rule r])

def opened : Pattern := word "\x7b"

def closed : Pattern := word "\x7d"

def constant (s : String) : Pattern := shaped (.constant s) (word s)

def constants : Pattern := choice [constant "True", constant "False", constant "None"]

def conditional : Pattern :=
  shaped .conditional
    (row [rule .disjunction, word "if", rule .disjunction, word "else", rule .expression])

/-- An expression that no assignment follows. -/
def plainItem : Pattern := row [rule .expression, without (word ":=")]

/-- The clauses of a generator, which no expression has here. -/
def clauses : Pattern := row [word "for", never]

end Pattern

open Pattern in
/-- What each rule asks for. -/
def Rule.pattern : Rule → Pattern
  | whole => row [rule expressions, many (lexeme .lineEnd), lexeme .finish]
  | expressions => choice [
      shaped .tuple (row [rule expression, some (row [word ",", rule expression]),
      maybe (word ",")]), shaped .tuple (row [rule expression, word ","]),
      rule expression]
  | expression => choice [
      wrong (rule wrongExpression), wrong (rule command), conditional, rule disjunction]
  | quietExpression => quiet (choice [conditional, rule disjunction])
  | wrongExpression => choice [
      object .comma (row [without (choice [row [lexeme .name, lexeme .text], lexeme .softWord]),
        rule disjunction, rule quietExpression]),
      object .withoutElse (row [rule disjunction, word "if", rule disjunction,
        without (choice [word "else", word ":"])])]
  | command => object .command (row [lexeme .name, without (word "("), rule starExpressions])
  | starExpressions => choice [
      shaped .tuple
        (row [rule starExpression, some (row [word ",", rule starExpression]), maybe (word ",")]),
      shaped .tuple (row [rule starExpression, word ","]),
      rule starExpression]
  | starExpression => choice [shaped .starred (row [word "*", rule bitOr]), rule expression]
  | starItems => row [gather (rule starItem), maybe (word ",")]
  | starItem => choice [shaped .starred (row [word "*", rule bitOr]), rule item]
  | assignment => shaped .named (row [lexeme .name, word ":=", rule expression])
  | item => choice [rule assignment, wrong (rule wrongItem), plainItem]
  | wrongItem => choice [
      object .assignTo (row [rule expression, word ":=", rule expression]),
      object .equalsName
        (row [lexeme .name, word "=", rule bitOr, without (choice [word "=", word ":="])]),
      object .equals (row [
        without (choice [rule list, rule tuple, rule generator, constants]),
        rule bitOr, word "=", rule bitOr, without (choice [word "=", word ":="])])]
  | disjunction => choice [
      shaped .operation (row [rule conjunction, some (row [word "or", rule conjunction])]),
      rule conjunction]
  | conjunction => choice [
      shaped .operation (row [rule inversion, some (row [word "and", rule inversion])]),
      rule inversion]
  | inversion => choice [shaped .operation (row [word "not", rule inversion]), rule comparison]
  | comparison => choice [
      shaped .comparison (row [rule bitOr, some (rule comparand)]),
      rule bitOr]
  | comparand => choice [
      row [word "==", rule bitOr], row [word "!=", rule bitOr], row [word "<=", rule bitOr],
      row [word "<", rule bitOr], row [word ">=", rule bitOr], row [word ">", rule bitOr],
      row [word "not", word "in", rule bitOr], row [word "in", rule bitOr],
      row [word "is", word "not", rule bitOr], row [word "is", rule bitOr]]
  | bitOr => choice [joined bitOr "|" bitXor, rule bitXor]
  | bitXor => choice [joined bitXor "^" bitAnd, rule bitAnd]
  | bitAnd => choice [joined bitAnd "&" shift, rule shift]
  | shift => choice [joined shift "<<" sum, joined shift ">>" sum, rule sum]
  | sum => choice [joined sum "+" product, joined sum "-" product, rule product]
  | product => choice [
      joined product "*" factor, joined product "/" factor, joined product "//" factor,
      joined product "%" factor, joined product "@" factor, rule factor]
  | factor => choice [
      shaped .operation (row [word "+", rule factor]),
      shaped .operation (row [word "-", rule factor]),
      shaped .operation (row [word "~", rule factor]), rule power]
  | power => choice [joined primary "**" factor, rule primary]
  | primary => choice [
      shaped .member (row [rule primary, word ".", lexeme .name]),
      shaped .call (row [rule primary, rule generator]),
      shaped .call (row [rule primary, word "(", maybe (rule arguments), word ")"]),
      shaped .subscript (row [rule primary, word "[", rule slices, word "]"]),
      rule atom]
  | slices => choice [
      row [rule slice, without (word ",")],
      shaped .tuple (row [gather (choice [rule slice, rule starArgument]), maybe (word ",")])]
  | slice => choice [
      row [maybe (rule expression), word ":", maybe (rule expression),
        maybe (row [word ":", maybe (rule expression)])],
      rule item]
  | atom => choice [
      lexeme .name, constants, shaped .literal (some (lexeme .text)), lexeme .numeral,
      row [ahead (word "("), choice [rule tuple, rule group, rule generator]],
      row [ahead (word "["), choice [rule list, rule listFor]],
      row [ahead opened, choice [rule dict, rule set, rule dictFor, rule setFor]],
      shaped (.constant "ellipsis") (word "...")]
  | group => choice [row [word "(", rule item, word ")"], wrong (rule wrongGroup)]
  | wrongGroup => choice [
      object .starred (row [word "(", rule starArgument, word ")"]),
      object .doubleStarred
        (row [word "(", shaped .starred (word "**"), rule expression, word ")"])]
  | tuple => shaped .tuple
      (row [word "(", maybe (row [rule starItem, word ",", maybe (rule starItems)]), word ")"])
  | list => shaped .list (row [word "[", maybe (rule starItems), word "]"])
  | listFor => choice [row [word "[", rule item, clauses], wrong (rule wrongFor)]
  | generator => choice [
      row [word "(", choice [rule assignment, plainItem], clauses], wrong (rule wrongFor)]
  | wrongFor => choice [
      row [choice [word "[", word "(", opened], rule starArgument, clauses],
      row [choice [word "[", opened], rule starItem, word ",", rule starItems, clauses],
      row [choice [word "[", opened], rule starItem, word ",", clauses]]
  | dict => choice [
      shaped .dict (row [opened, maybe (rule pairs), closed]),
      row [opened, rule wrongPairs, closed]]
  | pairs => row [gather (rule pair), maybe (word ",")]
  | pair => choice [row [word "**", rule bitOr], rule keyed]
  | keyed => row [rule expression, word ":", rule expression]
  | wrongPairs => choice [
      row [gather (rule pair), word ",", rule wrongPair],
      object .starredValue
        (row [silent (rule expression), word ":", shaped .starred (word "*"), rule bitOr]),
      object .noValue (row [silent (rule expression), shaped .starred (word ":"),
        ahead (choice [closed, word ","])])]
  | wrongPair => choice [
      object .colon (row [rule expression, without (word ":")]),
      object .starredValue
        (row [silent (rule expression), word ":", shaped .starred (word "*"), rule bitOr]),
      object .noValue (row [silent (rule expression), shaped .starred (word ":"),
        ahead (choice [closed, word ","])])]
  | dictFor => choice [
      row [opened, rule keyed, clauses],
      wrong (row [opened, word "**", rule bitOr, clauses])]
  | set => shaped .set (row [opened, rule starItems, closed])
  | setFor => choice [row [opened, rule item, clauses], wrong (rule wrongFor)]
  | arguments => choice [
      row [rule args, maybe (word ","), ahead (word ")")],
      wrong (rule wrongArguments)]
  | wrongArguments => choice [
      object .starAfterDouble (row [
        silent (choice [row [gather (rule argument), word ",", rule keywords], rule keywords]),
        shaped .starred (word ","), gather (row [rule starArgument, without (word "=")])]),
      row [rule expression, clauses],
      row [lexeme .name, word "=", rule expression, clauses],
      row [rule args, clauses],
      row [rule args, word ",", rule expression, clauses],
      object .positional (row [rule args, word ",", rule args])]
  | args => choice [
      shaped .call (row [gather (rule argument), maybe (row [word ",", rule keywords])]),
      shaped .call (rule keywords)]
  | argument => choice [
      rule starArgument,
      row [choice [rule assignment, plainItem], without (word "=")]]
  | keywords => choice [
      row [gather (rule keyword), word ",", gather (rule doubleKeyword)],
      gather (rule keyword),
      gather (rule doubleKeyword)]
  | starArgument => choice [
      shaped .starred (row [word "*", rule expression]),
      object .loneStar (shaped .starred (word "*"))]
  | keyword => choice [
      wrong (rule wrongKeyword),
      row [lexeme .name, word "=", rule expression],
      rule starArgument]
  | doubleKeyword => choice [
      wrong (rule wrongKeyword),
      row [lexeme .name, word "=", rule expression],
      row [word "**", rule expression]]
  | wrongKeyword => choice [
      object .assignConstant (row [constants, word "="]),
      row [lexeme .name, word "=", rule expression, clauses],
      object .assignArgument
        (row [without (row [lexeme .name, word "="]), rule expression, word "="])]

/-- Rules that start with themselves: what they find is extended as far as it goes. -/
def Rule.grows : Rule → Bool
  | bitOr | bitXor | bitAnd | shift | sum | product | primary => true
  | _ => false

/-- Rules whose findings are kept, whichever way they were come by. -/
def Rule.kept : Rule → Bool
  | expression | starExpression | wrongItem | disjunction | conjunction | inversion | factor
  | arguments => true
  | r => r.grows

end Machining.Expression
