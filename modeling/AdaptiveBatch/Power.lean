/-!
# Powers

Powers of two and of ten, and the sizes of machine words.
-/

namespace AdaptiveBatch

/-- A power of two. -/
def twoPow (e : Nat) : Nat := Nat.pow 2 e

/-- A power of ten. -/
def tenPow (e : Nat) : Nat := Nat.pow 10 e

/-- How many words of 64 bits there are. -/
def wordCount : Nat := 0x10000000000000000

theorem tenPow_pos (e : Nat) : 0 < tenPow e := Nat.pow_pos (by decide)

end AdaptiveBatch
