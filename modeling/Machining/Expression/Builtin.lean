import Machining.Expression.Arithmetic

namespace Machining.Expression

def absolute (v : Value) : Except Fault Value :=
  match v, v.real? with
  | .complex c, _ => c.abs.map .float
  | _, some n => n.abs.map .num
  | v, none => .error (.operand "abs()" v.kind)

/-- Round a whole number to a multiple of a power of ten, a half to the even neighbour. A number
below a tenth of that power is rounded to zero. -/
def roundInt (n places : Int) : Int :=
  if 0 ≤ places then n
  else if (n.natAbs.log2 + 2 : Int) < -3 * places then 0
  else
    let unit := tenTo (-places).toNat
    let r : Int := Binary64.roundDiv n.natAbs unit * unit
    if n < 0 then -r else r

/-- Places beyond the format's digits change nothing, places before them leave a zero. -/
def roundFloat (x : Float) (places : Int) : Except Fault Float :=
  if x.isNaN || x.isInf || 323 < places then .ok x
  else if places < -308 then .ok (Binary64.withSign (Binary64.signBit x) 0.0)
  else match Binary64.roundPlaces? x places with
    | some y => .ok y
    | none => .error .roundedTooLarge

/-- The nearest whole number, a half to the even neighbour. -/
def roundWhole (x : Float) : Except Fault Int :=
  if x.isNaN then .error .nanToInteger
  else if x.isInf then .error .infinityToInteger
  else .ok (Binary64.roundEven x)

/-- Round to the places that a value names. -/
def roundTo (v places : Value) : Except Fault Value :=
  match v.real? with
  | none => .error (.notRoundable v.kind)
  | some n =>
    match places.whole?, n with
    | none, _ => .error (.notWhole places.kind)
    | some places, .float x => (roundFloat x places).map .float
    | some places, .int n => .ok (.int (roundInt n places))
    | some _, .missing => .error (.notRoundable v.kind)

/-- Round to a whole number. -/
def roundOff (v : Value) : Except Fault Value :=
  match v.real? with
  | some (.int n) => .ok (.int n)
  | some (.float x) => (roundWhole x).map .int
  | _ => .error (.notRoundable v.kind)

def round : List Value → Except Fault Value
  | [] => .error (.arguments "round() missing required argument 'number' (pos 1)")
  | [v] | [v, .num .missing] => roundOff v
  | [v, places] => roundTo v places
  | vs => .error (.arguments s!"round() takes at most 2 arguments ({vs.length} given)")

/-- Greatest common divisor with the coefficient of the first number. -/
def gcdWith : Nat → Int → Int → Int → Int → Int × Int
  | 0, a, _, s, _ => (a, s)
  | fuel + 1, a, b, s, t =>
    if b = 0 then (a, s) else gcdWith fuel b (a.fmod b) t (s - a.fdiv b * t)

/-- The product over the binary digits of a natural power, lowest digit first. -/
def powModDigits (modulus : Int) : Nat → Int → Nat → Int → Int
  | 0, result, _, _ => result
  | fuel + 1, result, n, square =>
    if n = 0 then result
    else powModDigits modulus fuel (if n % 2 = 1 then (result * square).fmod modulus
      else result) (n / 2)
      ((square * square).fmod modulus)

def powMod (base modulus : Int) (n : Nat) : Int :=
  powModDigits modulus (n.log2 + 1) ((1 : Int).fmod modulus) n base

def powInt (a b m : Int) : Except Fault Int :=
  if m = 0 then .error .zeroModulus
  else if 0 ≤ b then .ok (powMod a m b.toNat)
  else
    let n := m.natAbs
    let (g, s) := gcdWith (n.log2 * 2 + 4) (a.fmod n) n 1 0
    if g.natAbs = 1 ∨ n = 1 then .ok (powMod (s * g) m b.natAbs) else .error .noInverse

/-- The sorts of number that have powers of their own. -/
inductive PowerSort where
  | whole | float | complex
  deriving DecidableEq

def powerSort? (v : Value) : Option PowerSort :=
  match v, v.real? with
  | .complex _, _ => some .complex
  | _, some (.int _) => some .whole
  | _, some (.float _) => some .float
  | _, _ => none

/-- What a sort of number says to a power to a modulus: only whole numbers have one, and only if all
three are. None if it leaves the answer to the others. -/
def powerModulo? (a b m : Value) : PowerSort → Option (Except Fault Value)
  | .whole =>
    match a.whole?, b.whole?, m.whole? with
    | some a, some b, some m => some ((powInt a b m).map .int)
    | _, _, _ => none
  | .float => some (.error .modulusNotAllowed)
  | .complex =>
    if a.isNumber && b.isNumber then
      some (do
        let _ ← a.toComplex
        let _ ← b.toComplex
        .error .complexModulus)
    else none

/-- The sorts of base, exponent and modulus are asked in turn. -/
def powerModulo (a b m : Value) : Except Fault Value :=
  (([a, b, m].filterMap powerSort?).findSome? (powerModulo? a b m)).getD
    (.error (.powerOperands a.kind b.kind m.kind))

def power : List Value → Except Fault Value
  | [] => .error (.arguments "pow() missing required argument 'base' (pos 1)")
  | [_] => .error (.arguments "pow() missing required argument 'exp' (pos 2)")
  | [a, b] | [a, b, .num .missing] => binary .pow a b
  | [a, b, m] => powerModulo a b m
  | vs => .error (.arguments s!"pow() takes at most 3 arguments ({vs.length} given)")

/-- The first value that no later one precedes. -/
def choose (op : Comparison) : Value → List Value → Except Fault Value
  | best, [] => .ok best
  | best, v :: vs => do choose op (if ← comparison op v best then v else best) vs

/-- Choose among the arguments, or among the members of a single row. -/
def extreme (name : String) (op : Comparison) : List Value → Except Fault Value
  | [] => .error (.arguments s!"{name} expected at least 1 argument, got 0")
  | [.list []] | [.tuple []] | [.names] => .error (.emptyChoice name)
  | [.list (v :: vs)] | [.tuple (v :: vs)] => choose op v vs
  | [v] => .error (.notIterable v.kind)
  | v :: vs => choose op v vs

def Builtin.call : Builtin → List Value → Except Fault Value
  | .abs, [v] => absolute v
  | .abs, vs => .error (.arguments s!"abs() takes exactly one argument ({vs.length} given)")
  | .round, vs => Expression.round vs
  | .pow, vs => power vs
  | .min, vs => extreme "min" .lt vs
  | .max, vs => extreme "max" .gt vs

end Machining.Expression
