import Mathlib.Algebra.Order.Field.Rat
import Mathlib.Tactic.Linarith
import AdaptiveBatch.Decimal.Instance
import AdaptiveBatch.Flush.Decision

/-!
# The flush model over exact numbers

Read over the rationals the flush model is arithmetic, in which the denominators that
are guarded against zero are mostly not zero to begin with.
-/

namespace AdaptiveBatch
namespace Flush

theorem nonzero_of_ne {a : Rat} (h : a ≠ 0) : nonzero a = a := by
  have hsame : Number.same a (Number.ofCount 0) = false := decide_eq_false h
  rw [nonzero, hsame]
  rfl

theorem averageItem_eq {i : Inputs Rat} (filled : 0 < i.size) (itemCeiling : Rat)
    (projection : Projection) :
    (evaluate i itemCeiling projection).averageItem =
      (i.lost + i.wait + i.estimate.latency + i.size * i.estimate.perItem) / i.size := by
  have hsize : (i.size : Rat) ≠ 0 := by exact_mod_cast Nat.ne_of_gt filled
  show (i.lost + i.wait + i.estimate.latency + i.size * i.estimate.perItem) /
    nonzero (i.size : Rat) = _
  rw [nonzero_of_ne hsize]

/-- A tick that decides to wait finds no more time lost than the ceiling allows the items
that it finds. -/
theorem lost_le_of_waiting {i : Inputs Rat} {itemCeiling : Rat} {projection : Projection}
    (waiting : (evaluate i itemCeiling projection).shouldFlush = false) (filled : 0 < i.size)
    (latency : 0 ≤ i.estimate.latency) (perItem : 0 ≤ i.estimate.perItem) :
    i.lost + i.wait ≤ itemCeiling * i.size := by
  have hceiling : (evaluate i itemCeiling projection).reasons.ceiling = false := by
    simp only [Evaluation.shouldFlush, Reasons.any, Bool.or_eq_false_iff] at waiting
    exact waiting.1.2
  have haverage : ¬ itemCeiling < (evaluate i itemCeiling projection).averageItem :=
    of_decide_eq_false hceiling
  rw [averageItem_eq filled, not_lt] at haverage
  have hsize : (0 : Rat) < i.size := by exact_mod_cast filled
  have htotal : i.lost + i.wait + i.estimate.latency + i.size * i.estimate.perItem ≤
      itemCeiling * i.size := (div_le_iff₀ hsize).mp haverage
  have hitems : 0 ≤ (i.size : Rat) * i.estimate.perItem := mul_nonneg hsize.le perItem
  linarith

end Flush
end AdaptiveBatch
