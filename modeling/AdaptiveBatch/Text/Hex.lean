/-!
# Hexadecimal digits
-/

namespace AdaptiveBatch
namespace Text

/-- What a hexadecimal digit stands for. -/
def hexDigit? (c : Char) : Option Nat :=
  if '0' ≤ c ∧ c ≤ '9' then some (c.toNat - 48)
  else if 'a' ≤ c ∧ c ≤ 'f' then some (c.toNat - 87)
  else if 'A' ≤ c ∧ c ≤ 'F' then some (c.toNat - 55)
  else none

/-- The number that a run of hexadecimal digits stands for. -/
def hexValue? : List Char → Option Nat :=
  List.foldlM (fun n c => (hexDigit? c).map (n * 16 + ·)) 0

/-- The first `count` characters as a hexadecimal number, and what follows. -/
def takeHex? (count : Nat) (cs : List Char) : Option (Nat × List Char) :=
  let ds := cs.take count
  if ds.length < count then none else (hexValue? ds).map fun n => (n, cs.drop count)

/-- A small letter or a digit. -/
def lowerHex (d : Nat) : Char := Char.ofNat (if d < 10 then 48 + d else 87 + d)

/-- A capital letter or a digit. -/
def upperHex (d : Nat) : Char := Char.ofNat (if d < 10 then 48 + d else 55 + d)

/-- Four digits of a number below `2 ^ 16`. -/
def hex4 (digit : Nat → Char) (n : Nat) : List Char :=
  [digit (n / 4096 % 16), digit (n / 256 % 16), digit (n / 16 % 16), digit (n % 16)]

end Text
end AdaptiveBatch
