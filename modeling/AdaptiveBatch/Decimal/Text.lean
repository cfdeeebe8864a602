import AdaptiveBatch.Decimal.Shortest

/-!
# Numbers as text

Three forms, all of them exact: the shortest digits written out without an
exponent, the same with an exponent for the very large and the very small, and a
fixed count of places.
-/

namespace AdaptiveBatch
namespace Decimal

/-- Digits and a point, never an exponent. -/
def Magnitude.positional (m : Magnitude) : List Char :=
  let ds := digits m.coefficient
  if 0 ≤ m.exponent then
    if m.coefficient = 0 then ds else ds ++ List.replicate m.exponent.toNat '0'
  else
    let places := (-m.exponent).toNat
    let padded := List.replicate (places + 1 - ds.length) '0' ++ ds
    padded.take (padded.length - places) ++ '.' :: padded.drop (padded.length - places)

/-- The same, with a zero behind the point of a whole number. -/
def Magnitude.pointed (m : Magnitude) : List Char :=
  if 0 ≤ m.exponent then m.positional ++ ['.', '0'] else m.positional

/-- One digit before the point, the others behind it, and a signed exponent. -/
def Magnitude.scientific (m : Magnitude) : List Char :=
  let ds := digits m.coefficient
  let e := m.exponent + ((ds.length : Int) - 1)
  let sign := if e < 0 then '-' else '+'
  let mantissa :=
    match ds with
    | [d] => [d]
    | d :: rest => d :: '.' :: rest
    | [] => []
  mantissa ++ 'e' :: sign :: digits e.natAbs

/-- The exponent of the first digit. -/
def Magnitude.leading (m : Magnitude) : Int :=
  m.exponent + (((digits m.coefficient).length : Int) - 1)

/-- How a number that is not finite is written, and how one that is. -/
structure Form where
  undefined : List Char
  infinite : List Char
  tie : Tie
  finite : Magnitude → List Char

/-- A number in a given form. -/
def Form.write (f : Form) (x : Float) : List Char :=
  match Binary.ofFloat? x with
  | some b =>
    let body := f.finite (shortest f.tie b)
    if b.negative then '-' :: body else body
  | none =>
    if x.isNaN then f.undefined
    else if Binary.signBit x then '-' :: f.infinite
    else f.infinite

/-- Numbers in messages and summaries: whole numbers without a point. -/
def plain : Form :=
  { undefined := "NaN".toList, infinite := "inf".toList, tie := .up
    finite := Magnitude.positional }

/-- A number inside a message. -/
def text (x : Float) : String := String.ofList (plain.write x)

/-- The number rounded to `places` digits behind the point.  What is rounded is
the exact binary value, a half goes to the even neighbour, and a negative number
that rounds to zero keeps its sign. -/
def fixed (places : Nat) (x : Float) : String :=
  match Binary.ofFloat? x with
  | some b =>
    let n := roundHalfEven (b.num * tenPow places) b.den
    let body := Magnitude.positional ⟨n, -(places : Int)⟩
    String.ofList (if b.negative then '-' :: body else body)
  | none => text x

end Decimal
end AdaptiveBatch
