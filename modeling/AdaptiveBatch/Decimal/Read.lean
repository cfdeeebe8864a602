import AdaptiveBatch.Decimal.Binary
import AdaptiveBatch.Decimal.Digits

/-!
# Reading decimal numbers

A numeral is split into its digits, with the point forgotten, and a power of ten;
only then is it rounded, once and to the nearest number.
-/

namespace AdaptiveBatch
namespace Decimal

/-- An unsigned numeral: the digits before and behind the point, and the exponent
as written. -/
structure Numeral where
  whole : List Char
  fraction : List Char
  exponent : Int
  deriving DecidableEq, Repr

/-- The nearest number, with a sign. -/
def Numeral.toFloat (negative : Bool) (n : Numeral) : Float :=
  ofScientific negative (value (n.whole ++ n.fraction)) (n.exponent - n.fraction.length)

/-- A sign, if there is one, and the rest.  The answer is whether it was a minus. -/
def takeSign : List Char → Bool × List Char
  | '-' :: r => (true, r)
  | '+' :: r => (false, r)
  | r => (false, r)

/-- What an exponent letter introduces: a signed run of digits up to the end. -/
def exponent? (cs : List Char) : Option Int :=
  let (negative, r) := takeSign cs
  if r.isEmpty || !r.all isDigit then none
  else some (if negative then -(value r : Int) else value r)

/-- The number a text stands for: a sign or none, then digits with at most one
point among or around them and an exponent or none, or one of the words for
infinity and for an undefined number, in small or capital letters. -/
def parse? (s : String) : Option Float :=
  let (negative, cs) := takeSign s.toList
  let word := String.ofList (cs.map Char.toLower)
  if word = "inf" ∨ word = "infinity" then
    some (signed negative (Float.ofBits 0x7FF0000000000000))
  else if word = "nan" then some (signed negative (Float.ofBits 0x7FF8000000000000))
  else
    let (whole, r) := takeDigits cs
    let (fraction, r) := match r with
      | '.' :: r => takeDigits r
      | r => ([], r)
    if whole.isEmpty && fraction.isEmpty then none
    else match r with
      | [] => some (Numeral.toFloat negative ⟨whole, fraction, 0⟩)
      | c :: r =>
        if c = 'e' ∨ c = 'E' then
          (exponent? r).map fun e => Numeral.toFloat negative ⟨whole, fraction, e⟩
        else none

end Decimal
end AdaptiveBatch
