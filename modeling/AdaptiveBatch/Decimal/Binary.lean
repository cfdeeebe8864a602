import AdaptiveBatch.Number
import AdaptiveBatch.Power

/-!
# Binary floating point as exact fractions

A finite 64-bit number is `± m · 2 ^ q` with `m < 2 ^ 53` and `q ≥ -1074`.
`Binary.ofFloat?` reads that form off the bits, and `nearest` goes back from any
fraction of natural numbers, rounding to the nearest representable number and a
tie to the even one.  Text of numbers is written and read through these two, so
nothing about it rests on floating point operations.
-/

namespace AdaptiveBatch
namespace Decimal

/-- A finite number, sign and magnitude apart, so that the two zeros differ. -/
structure Binary where
  negative : Bool
  significand : Nat
  exponent : Int
  deriving DecidableEq, Repr

namespace Binary

/-- The sign bit. -/
def signBit (x : Float) : Bool := twoPow 63 ≤ x.toBits.toNat

/-- The significand and exponent of a finite number. -/
def ofFloat? (x : Float) : Option Binary :=
  let bits : Nat := x.toBits.toNat
  let fraction : Nat := bits % twoPow 52
  let biased : Nat := bits / twoPow 52 % twoPow 11
  if biased = 2047 then none
  else if biased = 0 then some ⟨signBit x, fraction, -1074⟩
  else some ⟨signBit x, fraction + twoPow 52, (biased : Int) - 1075⟩

/-- Numerator of the magnitude as a fraction. -/
def num (b : Binary) : Nat := b.significand * twoPow b.exponent.toNat

/-- Denominator of the magnitude as a fraction. -/
def den (b : Binary) : Nat := twoPow (-b.exponent).toNat

end Binary

/-- The `l` with `2 ^ l ≤ num / den < 2 ^ (l + 1)`.  The difference `l` of the
logarithms of the two is right or one too large, since each is known to within
one binary digit, and the comparison decides which. -/
def floorLog2 (num den : Nat) : Int :=
  let l : Int := (num.log2 : Int) - den.log2
  if den * twoPow l.toNat ≤ num * twoPow (-l).toNat then l else l - 1

/-- The bits of the number nearest to `num / den`, a tie going to the even
significand.  With the unit in the last place `2 ^ q`, the rounded quotient is
`2 ^ 53` at most, and adding it to the exponent field as a plain number lets a
carry out of the fraction raise the exponent.  From `2 ^ 1024` on the answer is
infinity. -/
def nearestBits (num den : Nat) : Nat :=
  let q := max (-1074) (floorLog2 num den - 52)
  let m := roundHalfEven (num * twoPow (-q).toNat) (den * twoPow q.toNat)
  if m < twoPow 52 then m
  else min (2047 * twoPow 52) ((q + 1074).toNat * twoPow 52 + m)

/-- The floating point number nearest to `num / den`. -/
def nearest (num den : Nat) : Float :=
  if num = 0 then Float.ofBits 0 else Float.ofBits (nearestBits num den).toUInt64

/-- The same with a sign; a zero keeps it. -/
def signed (negative : Bool) (x : Float) : Float :=
  if negative then -x else x

/-- The number nearest to `± coefficient · 10 ^ exponent`.  What surely rounds to zero
or to infinity is cut off first, so that a short text with a huge exponent costs
no more than any other: a power of ten with a negative exponent `e` is below
`2 ^ (3 * e)`, and half of the least positive number is `2 ^ (-1075)`. -/
def ofScientific (negative : Bool) (coefficient : Nat) (exponent : Int) : Float :=
  signed negative <|
    if coefficient = 0 ∨ (coefficient.log2 : Int) + 3 * exponent < -1076 then Float.ofBits 0
    else if 400 < exponent then Float.ofBits 0x7FF0000000000000
    else nearest (coefficient * tenPow exponent.toNat) (tenPow (-exponent).toNat)

end Decimal

/-- The nanoseconds in `seconds`, a half going to the even neighbour. -/
def Decimal.Binary.nanoseconds? (b : Decimal.Binary) : Option Nat :=
  if b.negative && b.significand ≠ 0 then none
  else if wordCount * b.den ≤ b.num then none
  else some (roundHalfEven (b.num * 1000000000) b.den)

end AdaptiveBatch
