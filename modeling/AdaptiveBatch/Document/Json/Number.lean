import AdaptiveBatch.Decimal.Digits
import AdaptiveBatch.Decimal.Text
import AdaptiveBatch.Document.Tree

/-!
# Numbers in JSON

A literal is a whole part, a fraction or none and an exponent or none.  What it
stands for is worked out in 64 bits: its digits are collected into a significand as
long as they fit, the significand becomes a floating point number, and that is
multiplied or divided by a power of ten.  Each of these steps rounds, so the answer
may be a neighbour of the number nearest to the literal.
-/

namespace AdaptiveBatch
namespace Json

structure Literal where
  negative : Bool
  whole : List Char
  /-- The digits behind the point, if there is a point. -/
  fraction : Option (List Char)
  /-- Whether the exponent is negative, and its digits. -/
  exponent : Option (Bool × List Char)
  deriving DecidableEq, Repr

/-- The whole part: a zero, or digits that do not begin with one. -/
def takeWhole? (cs : List Char) : Option (List Char × List Char) :=
  match Decimal.takeDigits cs with
  | ([], _) => none
  | ('0' :: _ :: _, _) => none
  | (ds, r) => some (ds, r)

/-- The fraction.  A point without digits is malformed. -/
def takeFraction? : List Char → Option (Option (List Char) × List Char)
  | '.' :: r =>
    match Decimal.takeDigits r with
    | ([], _) => none
    | (ds, r) => some (some ds, r)
  | r => some (none, r)

/-- The digits of an exponent, of which there has to be one. -/
def takeExponentDigits? (negative : Bool) (cs : List Char) :
    Option (Option (Bool × List Char) × List Char) :=
  match Decimal.takeDigits cs with
  | ([], _) => none
  | (ds, r) => some (some (negative, ds), r)

def takeExponent? : List Char → Option (Option (Bool × List Char) × List Char)
  | [] => some (none, [])
  | c :: r =>
    if c = 'e' ∨ c = 'E' then
      match r with
      | '-' :: r => takeExponentDigits? true r
      | '+' :: r => takeExponentDigits? false r
      | r => takeExponentDigits? false r
    else some (none, c :: r)

/-- The number literal at the head of a text. -/
def literal? (cs : List Char) : Option (Literal × List Char) := do
  let (negative, r) := match cs with
    | '-' :: r => (true, r)
    | r => (false, r)
  let (whole, r) ← takeWhole? r
  let (fraction, r) ← takeFraction? r
  let (exponent, r) ← takeExponent? r
  return ({ negative, whole, fraction, exponent }, r)

/-! ## Values -/

/-- Collects digits into a significand below `2 ^ 64`.  The answer has the number of
digits that were left over from the first one that did not fit. -/
def collect : Nat → List Char → Nat × Nat
  | n, [] => (n, 0)
  | n, d :: ds =>
    let next := n * 10 + Decimal.digitValue d
    if next < wordCount then collect next ds else (n, (d :: ds).length)

/-- A power of ten, rounded to the nearest number. -/
def powerOfTen (e : Nat) : Float := Decimal.ofScientific false 1 e

/-- Scales by a power of ten, at most `10 ^ 308` at a time.  There is no answer if
the number grows beyond all bounds. -/
def scale? (f : Float) (exponent : Int) : Option Float :=
  if _h : exponent < -308 then
    if f == 0.0 then some f else scale? (f / powerOfTen 308) (exponent + 308)
  else if exponent < 0 then some (f / powerOfTen exponent.natAbs)
  else if 308 < exponent then if f == 0.0 then some f else none
  else
    let g := f * powerOfTen exponent.natAbs
    if g.isInf then none else some g
  termination_by exponent.natAbs
  decreasing_by omega

/-- The floating point number `significand · 10 ^ exponent`. -/
def assemble? (negative : Bool) (significand : Nat) (exponent : Int) : Option Float :=
  (scale? (Decimal.nearest significand 1) exponent).map (Decimal.signed negative)

/-- The exponent as written, unless it is beyond 31 bits. -/
def smallExponent? (negative : Bool) (digits : List Char) : Option Int :=
  let e := Decimal.value digits
  if e < twoPow 31 then some (if negative then -(e : Int) else e) else none

/-- The value of a literal with a point, an exponent, or more digits than fit. -/
def Literal.real? (l : Literal) : Option Float :=
  let (n, extra) := collect 0 l.whole
  let fraction := l.fraction.getD []
  let (n, dropped) := collect n fraction
  let shift : Int := (extra : Int) - ((fraction.length - dropped : Nat) : Int)
  match l.exponent with
  | none => assemble? l.negative n shift
  | some (negative, ds) =>
    match smallExponent? negative ds with
    | some e => assemble? l.negative n (shift + e)
    | none =>
      if n ≠ 0 ∧ !negative then none
      else some (Decimal.signed l.negative (Float.ofBits 0))

/-- What a literal stands for.  A whole number is an integer if it is a positive one
below `2 ^ 64` or a negative one from `-2 ^ 63` on; minus zero is neither. -/
def Literal.value? (l : Literal) : Option Scalar :=
  match l.fraction, l.exponent with
  | none, none =>
    let n := Decimal.value l.whole
    if !l.negative ∧ n < wordCount then some (.integer n)
    else if l.negative ∧ 0 < n ∧ n ≤ twoPow 63 then some (.integer (-n))
    else l.real?.map .real
  | _, _ => l.real?.map .real

/-! ## Writing -/

/-- Small and large numbers have an exponent, and others at least one place.  There
is no text for a number that is not finite. -/
def numberForm : Decimal.Form :=
  { undefined := "null".toList
    infinite := "null".toList
    tie := .even
    finite := fun m =>
      if -5 ≤ m.leading ∧ m.leading ≤ 15 then m.pointed else m.scientific }

/-- The text of a floating point number. -/
def realText (x : Float) : List Char :=
  if x.isFinite then numberForm.write x else "null".toList

end Json
end AdaptiveBatch
