namespace Machining

/-- Why a computation has no result. -/
inductive Fault where
  /-- The text is no expression: what is wrong with it, and on which of its lines. -/
  | malformed (reason : String) (line : Nat)
  /-- The text has a character that ends texts. -/
  | textEndsEarly
  /-- The text has lone halves of characters: where, how many, and the first of them. -/
  | halfCharacters (start count unit : Nat)
  /-- The computation never comes to an end, or not within the steps it was given. -/
  | endless
  | unknownName (name : String)
  /-- An operator between two kinds of value that it does not join. -/
  | operands (op left right : String)
  | powerOperands (base exponent modulus : String)
  | operand (op kind : String)
  | incomparable (op left right : String)
  /-- A row is only joined to a row of its own kind. -/
  | concatenation (row other : String)
  /-- A row is only repeated a whole number of times. -/
  | repetition (kind : String)
  | notReal (kind : String)
  | notWhole (kind : String)
  | notCallable (kind : String)
  | notSubscriptable (kind : String)
  | notIterable (kind : String)
  | notRoundable (kind : String)
  | notAnIndex (row kind : String)
  /-- A built-in function does not take so many arguments. -/
  | arguments (complaint : String)
  | emptyChoice (function : String)
  | divisionByZero
  | floatDivisionByZero
  | floorDivisionByZero
  | moduloByZero
  | floatFloorDivisionByZero
  | floatModuloByZero
  | complexDivisionByZero
  | zeroToNegativePower
  | zeroToComplexPower
  | noInverse
  | zeroModulus
  /-- Only whole numbers have powers to a modulus. -/
  | modulusNotAllowed
  | complexModulus
  | infinityToInteger
  | nanToInteger
  | integerTooLarge
  | quotientTooLarge
  | powerTooLarge
  | complexPowerTooLarge
  | magnitudeTooLarge
  | countTooLarge
  | rowTooLong
  | indexTooLarge
  | roundedTooLarge
  | functionRange
  | functionDomain
  | indexOutOfRange
  | memberOutOfRange (row : String)
  | missingKey (key : String)
  | notAKey (kind : String)
  /-- The operators of an expression nest too deep. -/
  | tooNested
  /-- A control command points at a block without an O-word. -/
  | missingOWord
  | notACustomCode
  deriving DecidableEq, Repr

def Fault.message : Fault → String
  | .malformed reason line => s!"{reason} (<string>, line {line})"
  | .textEndsEarly => "source code string cannot contain null bytes"
  | .halfCharacters start count unit =>
    if count = 1 then
      let digits := String.ofList (Nat.toDigits 16 unit)
      s!"'utf-8' codec can't encode character '\\u{digits}' in position {start}: " ++
        "surrogates not allowed"
    else
      s!"'utf-8' codec can't encode characters in position {start}-{start + count - 1}: " ++
        "surrogates not allowed"
  | .endless => "computation does not end"
  | .unknownName name => s!"name '{name}' is not defined"
  | .operands op l r => s!"unsupported operand type(s) for {op}: '{l}' and '{r}'"
  | .powerOperands b e m => s!"unsupported operand type(s) for ** or pow(): '{b}', '{e}', '{m}'"
  | .operand op k => s!"bad operand type for {op}: '{k}'"
  | .incomparable op l r => s!"'{op}' not supported between instances of '{l}' and '{r}'"
  | .concatenation row k => s!"can only concatenate {row} (not \"{k}\") to {row}"
  | .repetition k => s!"can't multiply sequence by non-int of type '{k}'"
  | .notReal k => s!"float() argument must be a string or a real number, not '{k}'"
  | .notWhole k => s!"'{k}' object cannot be interpreted as an integer"
  | .notCallable k => s!"'{k}' object is not callable"
  | .notSubscriptable k => s!"'{k}' object is not subscriptable"
  | .notIterable k => s!"'{k}' object is not iterable"
  | .notRoundable k => s!"type {k} doesn't define __round__ method"
  | .notAnIndex row k => s!"{row} indices must be integers or slices, not {k}"
  | .arguments complaint => complaint
  | .emptyChoice f => s!"{f}() arg is an empty sequence"
  | .divisionByZero => "division by zero"
  | .floatDivisionByZero => "float division by zero"
  | .floorDivisionByZero => "integer division or modulo by zero"
  | .moduloByZero => "integer modulo by zero"
  | .floatFloorDivisionByZero => "float floor division by zero"
  | .floatModuloByZero => "float modulo"
  | .complexDivisionByZero => "complex division by zero"
  | .zeroToNegativePower => "0.0 cannot be raised to a negative power"
  | .zeroToComplexPower => "0.0 to a negative or complex power"
  | .noInverse => "base is not invertible for the given modulus"
  | .zeroModulus => "pow() 3rd argument cannot be 0"
  | .modulusNotAllowed => "pow() 3rd argument not allowed unless all arguments are integers"
  | .complexModulus => "complex modulo"
  | .infinityToInteger => "cannot convert float infinity to integer"
  | .nanToInteger => "cannot convert float NaN to integer"
  | .integerTooLarge => "int too large to convert to float"
  | .quotientTooLarge => "integer division result too large for a float"
  | .powerTooLarge => "(34, 'Numerical result out of range')"
  | .complexPowerTooLarge => "complex exponentiation"
  | .magnitudeTooLarge => "absolute value too large"
  | .countTooLarge => "cannot fit 'int' into an index-sized integer"
  | .rowTooLong => ""
  | .indexTooLarge => "cannot fit 'int' into an index-sized integer"
  | .roundedTooLarge => "rounded value too large to represent"
  | .functionRange => "math range error"
  | .functionDomain => "math domain error"
  | .indexOutOfRange => "list index out of range"
  | .memberOutOfRange row => s!"{row} index out of range"
  | .missingKey key => key
  | .notAKey k => s!"unhashable type: '{k}'"
  | .tooNested => "maximum recursion depth exceeded during compilation"
  | .missingOWord => "'NoneType' object has no attribute 'strip'"
  | .notACustomCode => "Custom M-codes must be in range M100-M199"

/-- A computation in two parts has a result when both parts have one. -/
theorem bind_ok_iff {ε β γ : Type} {first : Except ε β} {next : β → Except ε γ} {z : γ} :
    first >>= next = .ok z ↔ ∃ y, first = .ok y ∧ next y = .ok z := by
  cases first <;> simp [bind, Except.bind]

theorem bind_error_iff {ε β γ : Type} {first : Except ε β} {next : β → Except ε γ} {e : ε} :
    first >>= next = .error e ↔ first = .error e ∨ ∃ y, first = .ok y ∧ next y = .error e := by
  cases first <;> simp [bind, Except.bind]

end Machining
