namespace Machining.Text

/-- Blanks are the controls that move the carriage, the four information separators, the next-line
control and every space, line or paragraph separator. -/
def isBlank (c : Char) : Bool :=
  let n := c.toNat
  (0x9 ≤ n && n ≤ 0xD) || (0x1C ≤ n && n ≤ 0x20) || n = 0x85 || n = 0xA0 || n = 0x1680 ||
    (0x2000 ≤ n && n ≤ 0x200A) || n = 0x2028 || n = 0x2029 || n = 0x202F || n = 0x205F || n = 0x3000

def trimStart (cs : List Char) : List Char := cs.dropWhile isBlank

def trimEnd (cs : List Char) : List Char := (cs.reverse.dropWhile isBlank).reverse

def trim (cs : List Char) : List Char := trimEnd (trimStart cs)

/-- Split at every occurrence of `sep`; there is always at least one part. -/
def splitAt (sep : Char) : List Char → List (List Char)
  | [] => [[]]
  | c :: cs =>
    match splitAt sep cs with
    | [] => [[]]
    | p :: ps => if c = sep then [] :: p :: ps else (c :: p) :: ps

/-- The maximal runs of non-blank characters. -/
def fields (cs : List Char) : List (List Char) :=
  go [] cs
where
  go (part : List Char) : List Char → List (List Char)
    | [] => if part.isEmpty then [] else [part.reverse]
    | c :: cs =>
      if isBlank c then
        if part.isEmpty then go [] cs else part.reverse :: go [] cs
      else go (c :: part) cs

end Machining.Text
