import Mathlib.Data.Prod.Lex
import AdaptiveBatch.Decimal.Instance
import AdaptiveBatch.Proofs.Decimal.Arithmetic

/-!
# The order of floating point numbers

Where nothing is undefined the comparisons of floating point make up a linear order, and
patterns without a sign are in the order of their numbers.
-/

namespace AdaptiveBatch
namespace Decimal

open Float.Model

/-! ## Comparisons -/

/-- Either number compares with the other as the other does with it. -/
theorem compare_swap (a b : UnpackedFloat) :
    b.compare a = (a.compare b).map Ordering.swap := by
  cases a with
  | notANumber => cases b <;> rfl
  | infinity s =>
    cases b with
    | infinity t => cases s <;> cases t <;> rfl
    | _ => cases s <;> rfl
  | zero s =>
    cases b with
    | infinity t => cases t <;> rfl
    | finite t => cases t <;> rfl
    | _ => rfl
  | finite s m e hm =>
    cases b with
    | notANumber => cases s <;> rfl
    | infinity t => cases s <;> cases t <;> rfl
    | zero t => cases s <;> rfl
    | finite t k f hk =>
      cases s <;> cases t <;>
        simp [UnpackedFloat.compare, Ordering.swap_then, Int.compare_swap, Nat.compare_swap]

theorem compare_isSome {a b : UnpackedFloat} (ha : a.isNaN = false) (hb : b.isNaN = false) :
    (a.compare b).isSome = true := by
  cases a with
  | notANumber => cases ha
  | infinity s =>
    cases b with
    | notANumber => cases hb
    | _ => cases s <;> rfl
  | zero s =>
    cases b with
    | notANumber => cases hb
    | infinity t => cases t <;> rfl
    | zero t => rfl
    | finite t => cases t <;> rfl
  | finite s =>
    cases b with
    | notANumber => cases hb
    | infinity t => cases s <;> cases t <;> rfl
    | zero t => cases s <;> rfl
    | finite t => cases s <;> cases t <;> rfl

theorem decide_le (x y : Float) : decide (x ≤ y) = x.toModel.unpack.le y.toModel.unpack := by
  show decide (decide (x.toModel.unpack.le y.toModel.unpack = true) = true) = _
  rw [Bool.decide_eq_true, Bool.decide_eq_true]

theorem decide_le_eq_not {x y : Float} (hx : x.isNaN = false) (hy : y.isNaN = false) :
    decide (x ≤ y) = !decide (y < x) := by
  rw [decide_le, decide_lt, UnpackedFloat.le, UnpackedFloat.lt, compare_swap]
  obtain ⟨o, ho⟩ := Option.isSome_iff_exists.mp (compare_isSome hy hx)
  rw [ho]
  cases o <;> rfl

/-! ## Ranks -/

/-- Where a number stands: on which side of zero and how far from it, the exponent before the
significand.  What is undefined stands nowhere, and its rank means nothing. -/
def rank : UnpackedFloat → Int ×ₗ Int ×ₗ Int
  | .infinity .negative => toLex (-2, toLex (0, 0))
  | .finite .negative m e _ => toLex (-1, toLex (-e, -m))
  | .zero _ | .notANumber => toLex (0, toLex (0, 0))
  | .finite .positive m e _ => toLex (1, toLex (e, m))
  | .infinity .positive => toLex (2, toLex (0, 0))

theorem lt_iff_rank {a b : UnpackedFloat} (ha : a.isNaN = false) (hb : b.isNaN = false) :
    a.lt b = true ↔ rank a < rank b := by
  cases a with
  | notANumber => cases ha
  | infinity s =>
    cases b with
    | notANumber => cases hb
    | infinity t => cases s <;> cases t <;> decide
    | zero t => cases s <;> cases t <;> decide
    | finite t =>
      cases s <;> cases t <;>
        simp [UnpackedFloat.lt, UnpackedFloat.compare, rank, Prod.Lex.toLex_lt_toLex]
  | zero s =>
    cases b with
    | notANumber => cases hb
    | infinity t => cases s <;> cases t <;> decide
    | zero t => cases s <;> cases t <;> decide
    | finite t =>
      cases t <;> simp [UnpackedFloat.lt, UnpackedFloat.compare, rank, Prod.Lex.toLex_lt_toLex]
  | finite s m e hm =>
    cases b with
    | notANumber => cases hb
    | infinity t =>
      cases s <;> cases t <;>
        simp [UnpackedFloat.lt, UnpackedFloat.compare, rank, Prod.Lex.toLex_lt_toLex]
    | zero t =>
      cases s <;> simp [UnpackedFloat.lt, UnpackedFloat.compare, rank, Prod.Lex.toLex_lt_toLex]
    | finite t k f hk =>
      -- of two numbers on one side the exponents are compared first, and below zero the other way
      cases s <;> cases t <;>
        simp [UnpackedFloat.lt, UnpackedFloat.compare, rank, Prod.Lex.toLex_lt_toLex,
          Ordering.then_eq_lt, Ordering.swap_eq_lt, Ordering.then_eq_gt, Int.compare_eq_lt,
          Int.compare_eq_gt, Nat.compare_eq_lt, Nat.compare_eq_gt]

theorem lt_iff_rank_unpack {x y : Float} (hx : x.isNaN = false) (hy : y.isNaN = false) :
    decide (x < y) = true ↔ rank x.toModel.unpack < rank y.toModel.unpack := by
  rw [decide_lt]
  exact lt_iff_rank hx hy

theorem lt_asymm {x y : Float} (h : decide (x < y) = true) : decide (y < x) = false := by
  rw [decide_lt, UnpackedFloat.lt, beq_iff_eq] at h
  rw [decide_lt, UnpackedFloat.lt, compare_swap, h]
  rfl

/-! ## Patterns -/

theorem isNaN_of_isFinite {x : Float} (hx : x.isFinite = true) : x.isNaN = false := by
  have hunpacked : x.toModel.unpack.isFinite = true := hx
  show x.toModel.unpack.isNaN = false
  cases h : x.toModel.unpack with
  | notANumber =>
    rw [h] at hunpacked
    cases hunpacked
  | _ => rfl

theorem isNaN_number {n : Nat} (hn : n ≤ infinity) : (number false n).isNaN = false := by
  rcases Nat.lt_or_eq_of_le hn with hlt | rfl
  · exact isNaN_of_isFinite (isFinite_number false hlt)
  · rfl

/-- A cost is a pattern without a sign, or the negative zero. -/
theorem exists_cost {x : Float} (h : Number.isCost x = true) :
    x = number true 0 ∨ ∃ n < infinity, x = number false n := by
  obtain ⟨finite, above⟩ := Bool.and_eq_true_iff.mp h
  obtain ⟨negative, n, hn, rfl⟩ := exists_number finite
  cases negative with
  | false => exact .inr ⟨n, hn, rfl⟩
  | true =>
    have hbelow : (!decide (number true n < Float.ofNat 0)) = true := above
    rw [number_lt_zero hn] at hbelow
    obtain rfl : n = 0 := by simpa using hbelow
    exact .inl rfl

theorem lt_iff_lex (a b : Nat) :
    a < b ↔ shift a < shift b ∨ shift a = shift b ∧ significand a < significand b := by
  have ha := pattern_eq a
  have hb := pattern_eq b
  have hsa := significand_lt a
  have hsb := significand_lt b
  have hna := normal_or_unshifted a
  have hnb := normal_or_unshifted b
  omega

/-- The pattern of a larger number is larger. -/
theorem lt_number {a b : Nat} (ha : a < infinity) (hb : b < infinity) :
    decide (number false a < number false b) = decide (a < b) := by
  rw [decide_lt, unpack_number ha, unpack_number hb, UnpackedFloat.lt, unpacked, unpacked]
  by_cases hpos : 0 < a
  · rw [dif_pos hpos]
    by_cases hpos' : 0 < b
    · rw [dif_pos hpos']
      show (some ((compare ((shift a : Int) - 1074) ((shift b : Int) - 1074)).then
        (compare (significand a) (significand b))) == some .lt) = _
      rw [Bool.eq_iff_iff, decide_eq_true_eq, lt_iff_lex, beq_iff_eq, Option.some.injEq,
        Ordering.then_eq_lt, Nat.compare_eq_lt, Int.compare_eq_lt, Int.compare_eq_eq]
      omega
    · rw [dif_neg hpos', decide_eq_false (by omega)]
      rfl
  · rw [dif_neg hpos]
    by_cases hpos' : 0 < b
    · rw [dif_pos hpos', decide_eq_true (by omega)]
      rfl
    · rw [dif_neg hpos', decide_eq_false (by omega)]
      rfl

/-- A number that is neither below nor above any between two patterns is a pattern between
them. -/
theorem exists_between {a b : Nat} (ha : 0 < a ∧ a < infinity) (hb : b < infinity) {x : Float}
    (defined : x.isNaN = false) (hlow : decide (x < number false a) = false)
    (hhigh : decide (number false b < x) = false) :
    ∃ n, a ≤ n ∧ n ≤ b ∧ x = number false n := by
  have hbelow : x.toModel.unpack.lt (unpacked false a) = false := by
    rw [← unpack_number ha.2, ← decide_lt, hlow]
  have habove : (unpacked false b).lt x.toModel.unpack = false := by
    rw [← unpack_number hb, ← decide_lt, hhigh]
  rw [unpacked_pos ha.1] at hbelow
  have finite : x.isFinite = true := by
    show x.toModel.unpack.isFinite = true
    have hdefined : x.toModel.unpack.isNaN = false := defined
    cases hx : x.toModel.unpack with
    | notANumber =>
      rw [hx] at hdefined
      cases hdefined
    | infinity s =>
      rw [hx] at hbelow habove
      cases s with
      | positive =>
        rw [unpacked] at habove
        split at habove <;> cases habove
      | negative => cases hbelow
    | zero | finite => rfl
  obtain ⟨negative, n, hn, rfl⟩ := exists_number finite
  cases negative with
  | true =>
    rw [unpack_number hn, unpacked] at hbelow
    split at hbelow <;> cases hbelow
  | false =>
    rw [lt_number hn ha.2, decide_eq_false_iff_not, Nat.not_lt] at hlow
    rw [lt_number hb hn, decide_eq_false_iff_not, Nat.not_lt] at hhigh
    exact ⟨n, hlow, hhigh, rfl⟩

end Decimal
end AdaptiveBatch
