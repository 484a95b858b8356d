import Machining.Number

namespace Machining.Number

/-- Insert behind everything that is not greater, looking at the middle first. The count bounds the
halvings, for which the length is enough. -/
def insertWithin : Nat → Number → List Number → Except Fault (List Number)
  | 0, x, xs => .ok (x :: xs)
  | n + 1, x, xs =>
    let middle := xs.length / 2
    match xs[middle]? with
    | none => .ok [x]
    | some y => do
      if ← x.holds .lt y then return (← insertWithin n x (xs.take middle)) ++ xs.drop middle
      else return xs.take (middle + 1) ++ (← insertWithin n x (xs.drop (middle + 1)))

/-- Insert values one after the other. -/
def insertAll (sorted : List Number) : List Number → Except Fault (List Number)
  | [] => .ok sorted
  | x :: xs => do insertAll (← insertWithin sorted.length x sorted) xs

/-- Split off the leading stretch in which each value precedes the one before it, or does not, as
`falling` says. -/
def stretch (falling : Bool) (x : Number) : List Number → Except Fault (List Number × List Number)
  | [] => .ok ([x], [])
  | y :: ys => do
    if (← y.holds .lt x) = falling then
      let (run, rest) ← stretch falling y ys
      return (x :: run, rest)
    else return ([x], y :: ys)

/-- The leading stretch in ascending order, and the rest. -/
def leading (x y : Number) (ys : List Number) : Except Fault (List Number × List Number) := do
  if ← y.holds .lt x then
    let (run, rest) ← stretch true x (y :: ys)
    return (run.reverse, rest)
  else stretch false x (y :: ys)

/-- Where a value is no number the order depends on which pairs are compared: a leading stretch
that is in order, or strictly in reverse order, is kept as one piece, and every further value is
inserted by halves. -/
def sort : List Number → Except Fault (List Number)
  | x :: y :: ys => do
    let (run, rest) ← leading x y ys
    insertAll run rest
  | xs => .ok xs

end Machining.Number
