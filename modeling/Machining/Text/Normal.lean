import Machining.Text.Decomposition

namespace Machining.Text

/-- Syllable blocks of the Korean script lie from here on, in the order of their parts: first
consonant, vowel and last consonant, the last being optional. -/
def syllableBase : Nat := 0xAC00

def firstConsonants : Nat := 0x1100

def vowels : Nat := 0x1161

/-- One before the first last consonant, so that the distance from here is zero if there is none. -/
def lastConsonants : Nat := 0x11A7

/-- The parts of a syllable block. -/
def syllableParts? (n : Nat) : Option (List Nat) :=
  if syllableBase ≤ n ∧ n < syllableBase + 19 * 21 * 28 then
    let i := n - syllableBase
    let head := [firstConsonants + i / 588, vowels + i % 588 / 28]
    some (if i % 28 = 0 then head else head ++ [lastConsonants + i % 28])
  else none

/-- A consonant and a vowel, or a block without last consonant and such a consonant. -/
def joinSyllable? (a b : Nat) : Option Nat :=
  if firstConsonants ≤ a ∧ a < firstConsonants + 19 ∧ vowels ≤ b ∧ b < vowels + 21 then
    some (syllableBase + ((a - firstConsonants) * 21 + (b - vowels)) * 28)
  else if syllableBase ≤ a ∧ a < syllableBase + 19 * 21 * 28 ∧ (a - syllableBase) % 28 = 0
      ∧ lastConsonants < b ∧ b < lastConsonants + 28 then
    some (a + (b - lastConsonants))
  else none

def plainForm (n : Nat) : List Nat :=
  if n < 0x80 then [n]
  else ((syllableParts? n).or (plainRow? n)).getD [n]

/-- Put a mark before those of higher class that stand at the head of the row. -/
def insertMark (m : Nat × Nat) : List (Nat × Nat) → List (Nat × Nat)
  | [] => [m]
  | x :: xs => if m.2 ≠ 0 ∧ m.2 < x.2 then x :: insertMark m xs else m :: x :: xs

/-- Characters with their classes, last one first, the marks in order of class. -/
def sortMarks (ns : List Nat) : List (Nat × Nat) :=
  ns.foldl (fun done n => insertMark (n, markClass n) done) []

def join? (a b : Nat) : Option Nat := (joinSyllable? a b).or (composition? a b)

/-- The characters behind a starting one, those that join it taken in. `kept` are those that do not,
last one first, and `previous` is the class of the last of them. -/
def joinBehind (start : Nat) (kept : List Nat) (previous : Nat) : List (Nat × Nat) → List Nat
  | [] => start :: kept.reverse
  | (n, k) :: rest =>
    match (if kept.isEmpty || previous < k then join? start n else none) with
    | some c => joinBehind c kept previous rest
    | none =>
      if k = 0 then start :: kept.reverse ++ joinBehind n [] 0 rest
      else joinBehind start (n :: kept) k rest

/-- Marks before the first starting character stay as they are. -/
def joinAll : List (Nat × Nat) → List Nat
  | [] => []
  | (n, k) :: rest => if k = 0 then joinBehind n [] 0 rest else n :: joinAll rest

/-- The plain spelling of a name: its characters are replaced by the rows they stand for, marks
behind a letter are put in the order of their classes, and what has a character of its own is
joined again. -/
def plainSpelling (s : String) : String :=
  if s.toList.all fun c => c.toNat < 0x80 then s
  else
    let plain := s.toList.flatMap fun c => plainForm c.toNat
    String.ofList ((joinAll (sortMarks plain).reverse).map Char.ofNat)

end Machining.Text
