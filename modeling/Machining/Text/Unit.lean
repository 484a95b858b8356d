namespace Machining.Text

/-- The character that a lone half is kept as, from U+10D800 to U+10DFFF. A text may hold one of
these private characters for its own sake, and it is then taken for the half. -/
def loneUnit (n : Nat) : Char := Char.ofNat (0x100000 + n)

/-- The half that a private character was kept for. -/
def loneUnit? (c : Char) : Option Nat :=
  if 0x10D800 ≤ c.toNat ∧ c.toNat < 0x10E000 then some (c.toNat - 0x100000) else none

/-- The first run of lone halves: its position, its length and its first half. -/
def loneUnits? (cs : List Char) : Option (Nat × Nat × Nat) :=
  let rest := cs.dropWhile fun c => (loneUnit? c).isNone
  (rest.head?.bind loneUnit?).map fun n =>
    (cs.length - rest.length, (rest.takeWhile fun c => (loneUnit? c).isSome).length, n)

end Machining.Text
