import Mathlib.Algebra.Group.Nat.Defs
import AdaptiveBatch.Power

/-!
# Powers by their sign

The powers of the model are plain functions, so that nothing is computed where a number is
only compared with one.  Arithmetic needs them written with a sign.
-/

namespace AdaptiveBatch

theorem twoPow_eq (e : Nat) : twoPow e = 2 ^ e := rfl

theorem tenPow_eq (e : Nat) : tenPow e = 10 ^ e := rfl

theorem wordCount_eq : wordCount = 2 ^ 64 := by decide

end AdaptiveBatch
