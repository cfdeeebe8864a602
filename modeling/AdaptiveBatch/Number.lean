/-!
# The numbers of the model

Costs, waits, rates and statistics are written once, over any type with the
operations below.  A running engine uses binary floating point; the laws of the
flush model and of the statistics are statements about exact rationals, and
reading the same definition over `Rat` is what makes them statements about it.
-/

namespace AdaptiveBatch

/-- The arithmetic that the flush model and the statistics are written in.
Comparisons answer `Bool`, since over floating point they are tests and not an
order: every comparison with an undefined number is false. -/
class Number (ν : Type) extends Add ν, Sub ν, Mul ν, Div ν, OfScientific ν where
  /-- The number of things counted. -/
  ofCount : Nat → ν
  less : ν → ν → Bool
  same : ν → ν → Bool
  /-- Neither infinite nor undefined. -/
  isFinite : ν → Bool
  isUndefined : ν → Bool
  /-- The nanoseconds of a time in seconds, rounded to the nearest and a half to
  the even one.  There is none for a negative or undefined time, nor for one of
  `2 ^ 64` seconds or more. -/
  nanoseconds? : ν → Option Nat
  /-- The text of a number inside a message. -/
  text : ν → String

/-- The one operation that the rationals lack. -/
class SquareRoot (ν : Type) where
  sqrt : ν → ν

namespace Number

variable {ν : Type} [Number ν]

/-- The lesser of two numbers; an undefined one gives way to the other. -/
def least (a b : ν) : ν :=
  if isUndefined a then b else if isUndefined b then a else if less b a then b else a

/-- The greater of two numbers; an undefined one gives way to the other. -/
def greatest (a b : ν) : ν :=
  if isUndefined a then b else if isUndefined b then a else if less a b then b else a

/-- A cost, a threshold or a probe answer may be zero, but neither negative nor
anything other than a real number. -/
def isCost (a : ν) : Bool := isFinite a && !less a (ofCount 0)

end Number

/-- The nearest integer to `num / den`; a half goes to the even neighbour. -/
def roundHalfEven (num den : Nat) : Nat :=
  let q := num / den
  let r := num % den
  if den < 2 * r then q + 1
  else if 2 * r = den then q + q % 2
  else q

end AdaptiveBatch
