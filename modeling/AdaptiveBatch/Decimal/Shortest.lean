import AdaptiveBatch.Decimal.Binary
import AdaptiveBatch.Decimal.Digits

/-!
# The fewest digits that read back

The reals that round to a given number form an interval around it, with its two
ends in it exactly if the significand is even.  Among the decimals in that
interval `shortest` picks one with the fewest digits, and of those the nearest to
the number.  If a multiple of `10 ^ k` lies in an interval around `x`, then one of
the two multiples next to `x` does, so only those two are tried for each count of
digits, from one digit on.  Seventeen digits always suffice.
-/

namespace AdaptiveBatch
namespace Decimal

/-- A decimal magnitude `coefficient · 10 ^ exponent`. -/
structure Magnitude where
  coefficient : Nat
  exponent : Int
  deriving DecidableEq, Repr

/-- Which of two equally near decimals is taken. -/
inductive Tie where
  | up
  | even
  deriving DecidableEq, Repr

/-- The interval of reals that round to a positive number, in units of a quarter
of the last place: `low`, the number itself and `high`, all over the same
denominator.  Below a power of two the neighbour is only half as far away. -/
structure Rounding where
  low : Nat
  mid : Nat
  high : Nat
  den : Nat
  closed : Bool

def Rounding.ofBinary (b : Binary) : Rounding :=
  let unit := twoPow b.exponent.toNat
  let below := if b.significand = twoPow 52 ∧ -1074 < b.exponent then 1 else 2
  { low := (4 * b.significand - below) * unit
    mid := 4 * b.significand * unit
    high := (4 * b.significand + 2) * unit
    den := 4 * b.den
    closed := b.significand % 2 = 0 }

/-- Whether `n / d` rounds back to the number. -/
def Rounding.contains (r : Rounding) (n d : Nat) : Bool :=
  if r.closed then r.low * d ≤ n * r.den && n * r.den ≤ r.high * d
  else r.low * d < n * r.den && n * r.den < r.high * d

/-- The `k` with `10 ^ k ≤ num / den < 10 ^ (k + 1)`.  Below one it is the least
power of ten that brings the quotient up to one that counts. -/
def floorLog10 (num den : Nat) : Int :=
  if den ≤ num then (digits (num / den)).length - 1
  else -((digits ((den - 1) / num)).length : Int)

/-- The decimals with `count` digits next to the number, if one of them is in the
interval: the nearer one, or the only one. -/
def Rounding.onGrid? (r : Rounding) (tie : Tie) (top : Int) (count : Nat) : Option Magnitude :=
  let k := top - (count - 1 : Int)
  let up := tenPow (-k).toNat
  let down := tenPow k.toNat
  let d := r.mid * up / (r.den * down)
  -- Twice the distance from the lower neighbour, against one grid step.
  let twice := 2 * (r.mid * up - d * (r.den * down))
  let lower := r.contains (d * down) up
  let upper := r.contains ((d + 1) * down) up
  let nearUpper :=
    r.den * down < twice || (twice = r.den * down && (tie = .up || d % 2 = 1))
  if lower && upper then some ⟨if nearUpper then d + 1 else d, k⟩
  else if lower then some ⟨d, k⟩
  else if upper then some ⟨d + 1, k⟩
  else none

/-- The first grid, from `count` digits on, that has a decimal in the interval.
The last one is taken as it is. -/
def Rounding.search (r : Rounding) (tie : Tie) (top : Int) : Nat → Nat → Magnitude
  | 0, count => ⟨r.mid * tenPow (count - 1 - top).toNat / r.den, top - (count - 1 : Int)⟩
  | left + 1, count =>
    match r.onGrid? tie top count with
    | some m => m
    | none => r.search tie top left (count + 1)

/-- Without the zeros at the end of its digits; zero has none to lose. -/
def Magnitude.trim (m : Magnitude) : Magnitude :=
  if h : m.coefficient ≠ 0 ∧ m.coefficient % 10 = 0 then
    trim ⟨m.coefficient / 10, m.exponent + 1⟩
  else m
  termination_by m.coefficient
  decreasing_by exact Nat.div_lt_self (Nat.pos_of_ne_zero h.1) (by decide)

/-- The decimal with the fewest digits that reads back as the number. -/
def shortest (tie : Tie) (b : Binary) : Magnitude :=
  if b.significand = 0 then ⟨0, 0⟩
  else
    let r := Rounding.ofBinary b
    (r.search tie (floorLog10 r.mid r.den) 17 1).trim

end Decimal
end AdaptiveBatch
