import AdaptiveBatch.Decimal.Text

/-!
# The two kinds of number

Floating point, which runs, and the exact rationals, which laws are stated over.
-/

namespace AdaptiveBatch

instance : Number Float where
  ofCount := Float.ofNat
  less a b := decide (a < b)
  same a b := a == b
  isFinite := Float.isFinite
  isUndefined := Float.isNaN
  nanoseconds? x := (Decimal.Binary.ofFloat? x).bind Decimal.Binary.nanoseconds?
  text := Decimal.text

instance : SquareRoot Float where
  sqrt := Float.sqrt

/-- Every rational is finite and defined. -/
instance : Number Rat where
  ofCount n := (n : Rat)
  less a b := decide (a < b)
  same a b := decide (a = b)
  isFinite _ := true
  isUndefined _ := false
  nanoseconds? x :=
    if x.num < 0 ∨ wordCount * x.den ≤ x.num.toNat then none
    else some (roundHalfEven (x.num.toNat * 1000000000) x.den)
  text x :=
    if x.den = 1 then Decimal.intText x.num
    else Decimal.intText x.num ++ "/" ++ Decimal.natText x.den

end AdaptiveBatch
