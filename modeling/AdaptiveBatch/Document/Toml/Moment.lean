import AdaptiveBatch.Decimal.Digits

/-!
# Dates and times in TOML

A moment is a date, a time of day, or both with or without an offset.  Seconds may
be left out.
-/

namespace AdaptiveBatch
namespace Toml

/-- A run of exactly so many digits, as a number from `least` to `greatest`. -/
def field? (count least greatest : Nat) (cs : List Char) : Option (Nat × List Char) :=
  let ds := cs.take count
  let n := Decimal.value ds
  if ds.length = count ∧ ds.all Decimal.isDigit ∧ least ≤ n ∧ n ≤ greatest then
    some (n, cs.drop count)
  else none

/-- What follows a character that has to come next. -/
def after? (c : Char) : List Char → Option (List Char)
  | [] => none
  | d :: r => if d = c then some r else none

def isLeapYear (year : Nat) : Bool :=
  year % 4 = 0 && (year % 100 ≠ 0 || year % 400 = 0)

def daysOf (year month : Nat) : Nat :=
  if month = 2 then if isLeapYear year then 29 else 28
  else if month = 4 ∨ month = 6 ∨ month = 9 ∨ month = 11 then 30
  else 31

/-- What follows a date. -/
def afterDate? (cs : List Char) : Option (List Char) := do
  let (year, r) ← field? 4 0 9999 cs
  let r ← after? '-' r
  let (month, r) ← field? 2 1 12 r
  let r ← after? '-' r
  let (_, r) ← field? 2 1 (daysOf year month) r
  return r

/-- What follows a fraction of a second, which has at least one digit. -/
def afterFraction? : List Char → Option (List Char)
  | '.' :: r =>
    match Decimal.takeDigits r with
    | ([], _) => none
    | (_, r) => some r
  | r => some r

/-- What follows a time of day.  A minute may have a leap second. -/
def afterTime? (cs : List Char) : Option (List Char) := do
  let (_, r) ← field? 2 0 23 cs
  let r ← after? ':' r
  let (_, r) ← field? 2 0 59 r
  match r with
  | ':' :: r => do
    let (_, r) ← field? 2 0 60 r
    afterFraction? r
  | r => some r

/-- Whether a text is an offset, or nothing. -/
def isOffset : List Char → Bool
  | [] => true
  | c :: r =>
    if c = 'Z' ∨ c = 'z' then r.isEmpty
    else if c = '+' ∨ c = '-' then
      match (do
        let (_, r) ← field? 2 0 23 r
        let r ← after? ':' r
        let (_, r) ← field? 2 0 59 r
        return r : Option (List Char)) with
      | some r => r.isEmpty
      | none => false
    else false

def isMoment (cs : List Char) : Bool :=
  match afterDate? cs with
  | some [] => true
  | some (c :: r) =>
    (c = 'T' || c = 't' || c = ' ') &&
      match afterTime? r with
      | some r => isOffset r
      | none => false
  | none => afterTime? cs == some []

end Toml
end AdaptiveBatch
