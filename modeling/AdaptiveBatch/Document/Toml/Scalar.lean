import AdaptiveBatch.Decimal.Read
import AdaptiveBatch.Decimal.Text
import AdaptiveBatch.Document.Toml.Moment
import AdaptiveBatch.Document.Toml.Quoted
import AdaptiveBatch.Document.Tree
import AdaptiveBatch.Text.Hex

/-!
# Scalars in TOML

What stands without quotes is a word, a number or a moment.  Digits may be grouped
by underscores, each with a digit on either side.
-/

namespace AdaptiveBatch
namespace Toml

/-- Characters that a scalar without quotes is made of. -/
def isScalarChar (c : Char) : Bool :=
  c.isAlphanum || c = '_' || c = '+' || c = '-' || c = '.' || c = ':'

/-- Grouped digits, without the underscores. -/
def ungroup? (ok : Char → Bool) : List Char → Option (List Char)
  | [] => none
  | [c] => if ok c then some [c] else none
  | c :: '_' :: r => if ok c then (ungroup? ok r).map (c :: ·) else none
  | c :: r => if ok c then (ungroup? ok r).map (c :: ·) else none

/-- Grouped digits that do not begin with a zero, unless that is all. -/
def wholeDigits? (cs : List Char) : Option (List Char) :=
  match ungroup? Decimal.isDigit cs with
  | some ('0' :: _ :: _) => none
  | ds => ds

/-- An integer has a value within 64 bits, signed or unsigned, and is well formed
within 128. -/
def integer? (i : Int) : Option Document :=
  if -(twoPow 63 : Int) ≤ i ∧ i < twoPow 64 then some (.scalar (.integer i))
  else if -(twoPow 127 : Int) ≤ i ∧ i < twoPow 128 then some .broken
  else none

/-- A number to a base, given by the values of its digits. -/
def radix? (base : Nat) (cs : List Char) : Option Document := do
  let ok (c : Char) : Bool := ((Text.hexDigit? c).map (decide <| · < base)).getD false
  let ds ← ungroup? ok cs
  integer? (ds.foldl (fun n c => n * base + (Text.hexDigit? c).getD 0) 0 : Nat)

/-- The exponent behind its letter. -/
def exponent? (cs : List Char) : Option Int := do
  let (negative, r) := Decimal.takeSign cs
  let ds ← ungroup? Decimal.isDigit r
  return if negative then -(Decimal.value ds : Int) else Decimal.value ds

def isExponentMark (c : Char) : Bool := c = 'e' || c = 'E'

/-- A number with a point or an exponent, which must not be too large. -/
def real? (negative : Bool) (cs : List Char) : Option Document := do
  let (whole, r) := cs.span fun c => c ≠ '.' && !isExponentMark c
  let whole ← wholeDigits? whole
  let (fraction, r) ← (match r with
    | '.' :: r =>
      let (fraction, r) := r.span fun c => !isExponentMark c
      (ungroup? Decimal.isDigit fraction).map (·, r)
    | r => some ([], r))
  let exponent ← (match r with
    | [] => some 0
    | _ :: r => exponent? r)
  let x := Decimal.Numeral.toFloat negative ⟨whole, fraction, exponent⟩
  if x.isInf then none else some (.scalar (.real x))

/-- A number behind its sign. -/
def unsigned? (negative : Bool) (cs : List Char) : Option Document :=
  if cs = "inf".toList then
    some (.scalar (.real (Decimal.signed negative (Float.ofBits 0x7FF0000000000000))))
  else if cs = "nan".toList then some (.scalar (.real (Float.ofBits 0x7FF8000000000000)))
  else
    match wholeDigits? cs with
    | some ds =>
      integer? (if negative then -(Decimal.value ds : Int) else Decimal.value ds)
    | none => real? negative cs

/-- What a scalar without quotes stands for. -/
def bare? (cs : List Char) : Option Document :=
  if cs = "true".toList then some (.scalar (.bool true))
  else if cs = "false".toList then some (.scalar (.bool false))
  else if isMoment cs then some .moment
  else
    match cs with
    | '0' :: 'x' :: r => radix? 16 r
    | '0' :: 'o' :: r => radix? 8 r
    | '0' :: 'b' :: r => radix? 2 r
    | cs =>
      let (negative, r) := Decimal.takeSign cs
      unsigned? negative r

/-- A scalar without quotes at the head of a text.  A blank may part a date from a
time. -/
def takeBare (cs : List Char) : List Char × List Char :=
  let (word, r) := cs.span isScalarChar
  match r with
  | ' ' :: d :: _ =>
    if Decimal.isDigit d ∧ afterDate? word = some [] then
      let (more, r) := (r.drop 1).span isScalarChar
      (word ++ ' ' :: more, r)
    else (word, r)
  | r => (word, r)

/-- The scalar at the head of a text. -/
def scalar? (cs : List Char) : Option (Document × List Char) :=
  match cs with
  | '"' :: _ | '\'' :: _ =>
    (quoted? cs).map fun (t, r) => (.scalar (.text (String.ofList t)), r)
  | cs =>
    let (word, r) := takeBare cs
    (bare? word).map (·, r)

/-! ## Writing -/

def realForm : Decimal.Form :=
  { undefined := "nan".toList
    infinite := "inf".toList
    tie := .up
    finite := Decimal.Magnitude.pointed }

/-- The text of a scalar.  Null has none. -/
def scalarText? : Scalar → Option (List Char)
  | .null => none
  | .bool true => some "true".toList
  | .bool false => some "false".toList
  | .integer i => some (Decimal.intText i).toList
  | .real x => some (realForm.write x)
  | .text s => some (quote s)

end Toml
end AdaptiveBatch
