/-!
# Decimal digits of a natural number

`digits` writes, `value` reads, and `takeDigits` splits a text after its digits.
-/

namespace AdaptiveBatch
namespace Decimal

/-- The character of a digit below ten. -/
def digit (d : Nat) : Char := Char.ofNat (48 + d)

def isDigit (c : Char) : Bool := '0' ≤ c && c ≤ '9'

/-- What a digit character stands for. -/
def digitValue (c : Char) : Nat := c.toNat - 48

/-- The digits of `n`, most significant first; zero has one. -/
def digits (n : Nat) : List Char :=
  if n < 10 then [digit n] else digits (n / 10) ++ [digit (n % 10)]
  termination_by n

/-- The number that a run of digits stands for; none stands for zero. -/
def value (cs : List Char) : Nat := cs.foldl (fun n c => n * 10 + digitValue c) 0

/-- The leading digits of a text and what follows them. -/
def takeDigits (cs : List Char) : List Char × List Char :=
  (cs.takeWhile isDigit, cs.dropWhile isDigit)

/-- The text of a natural number. -/
def natText (n : Nat) : String := String.ofList (digits n)

/-- The text of an integer. -/
def intText (i : Int) : String :=
  if i < 0 then "-" ++ natText i.natAbs else natText i.natAbs

end Decimal
end AdaptiveBatch
