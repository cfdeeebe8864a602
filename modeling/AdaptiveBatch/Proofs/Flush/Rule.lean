import Mathlib.Tactic.FieldSimp
import Mathlib.Tactic.Ring
import AdaptiveBatch.Proofs.Flush.Decision

/-!
# The rule of the flush model

Cleared of its quotients the flush model is four inequalities between products of what a
tick finds, and a tick waits if all four hold.  Of the denominators only the time since the
start can be zero where a tick has waited and items have come.
-/

namespace AdaptiveBatch
namespace Flush

/-! ## What a tick finds -/

/-- Something is buffered, no time runs backwards and nothing costs less than nothing. -/
structure Sound (i : Inputs Rat) : Prop where
  filled : 1 ≤ i.size
  wait : 0 ≤ i.wait
  lost : 0 ≤ i.lost
  latency : 0 ≤ i.estimate.latency
  perItem : 0 ≤ i.estimate.perItem
  total : 0 ≤ i.total
  elapsed : 0 ≤ i.elapsed

/-- There has been a wait, and what is buffered has come. -/
structure Lively (i : Inputs Rat) : Prop extends Sound i where
  waited : 0 < i.wait
  arrived : 1 ≤ i.total

namespace Inputs

/-- The waits since the last flush, with this one. -/
def waited (i : Inputs Rat) : Rat := i.lost + i.wait

/-- The items that come in a millisecond. -/
def rate (i : Inputs Rat) : Rat := i.total / (if i.elapsed = 0 then 1e-21 else i.elapsed)

/-- The time in which the last item goes if all go now. -/
def sendTime (i : Inputs Rat) : Rat :=
  i.waited + i.estimate.latency + i.size * i.estimate.perItem

/-- The items that are there one wait later. -/
def projectedSize (i : Inputs Rat) : Rat := i.size + i.wait * i.rate

/-- The time in which the last of those goes. -/
def projectedTime (i : Inputs Rat) : Rat :=
  i.waited + i.estimate.latency + i.wait + i.projectedSize * i.estimate.perItem

/-- The time per item that a projection expects one wait later. -/
def expected (i : Inputs Rat) : Projection → Rat
  | .reference => i.sendTime / i.projectedSize
  | .corrected => i.projectedTime / i.projectedSize

/-! ## What speaks for a wait -/

/-- A call takes no less time than an item takes to come. -/
def Arriving (i : Inputs Rat) : Prop := 1 ≤ i.rate * i.estimate.latency

/-- No more is buffered than comes in the time that the items have waited and a call takes. -/
def Filling (i : Inputs Rat) : Prop :=
  i.size ≤ i.rate * (i.waited + i.estimate.latency)

def Affordable (i : Inputs Rat) (itemCeiling : Rat) : Prop :=
  i.waited + i.estimate.latency + i.size * i.estimate.perItem ≤ itemCeiling * i.size

/-- One wait later an item takes less, and by more than a call costs. -/
def Gaining (i : Inputs Rat) : Projection → Prop
  | .reference =>
    i.estimate.latency * i.size * (i.size + i.wait * i.rate) ≤
      (i.waited + i.estimate.latency + i.size * i.estimate.perItem) * i.wait * i.rate
  | .corrected =>
    i.estimate.latency * i.size * (i.size + i.wait * i.rate) ≤
      i.wait * (i.rate * (i.waited + i.estimate.latency) - i.size)

end Inputs

/-! ## Denominators -/

theorem nonzero_eq (a : Rat) : nonzero a = if a = 0 then 1e-21 else a := by
  by_cases ha : a = 0
  · rw [if_pos ha, ha]
    show (0 : Rat) + 1e-21 = 1e-21
    rw [zero_add]
  · rw [if_neg ha, nonzero_of_ne ha]

theorem nonzero_pos {a : Rat} (ha : 0 ≤ a) : 0 < nonzero a := by
  rw [nonzero_eq]
  split
  · norm_num
  · rename_i hne
    exact lt_of_le_of_ne ha (Ne.symm hne)

theorem rate_eq (i : Inputs Rat) : i.rate = i.total / nonzero i.elapsed := by
  rw [Inputs.rate, nonzero_eq]

namespace Sound

variable {i : Inputs Rat} (h : Sound i)

include h

theorem size_pos : (0 : Rat) < i.size := by exact_mod_cast h.filled

theorem rate_nonneg : 0 ≤ i.rate := by
  rw [rate_eq]
  exact div_nonneg h.total (nonzero_pos h.elapsed).le

theorem projectedSize_pos : 0 < i.projectedSize :=
  add_pos_of_pos_of_nonneg h.size_pos (mul_nonneg h.wait h.rate_nonneg)

theorem sendTime_pos (waited : 0 < i.wait) : 0 < i.sendTime := by
  have hwaited : 0 < i.waited := add_pos_of_nonneg_of_pos h.lost waited
  have hitems := mul_nonneg h.size_pos.le h.perItem
  have hlatency := h.latency
  rw [Inputs.sendTime]
  linarith

theorem sendTime_le : i.sendTime ≤ i.projectedTime := by
  have hmore : (i.size : Rat) * i.estimate.perItem ≤ i.projectedSize * i.estimate.perItem :=
    mul_le_mul_of_nonneg_right
      (le_add_of_nonneg_right (mul_nonneg h.wait h.rate_nonneg)) h.perItem
  have hwait := h.wait
  rw [Inputs.sendTime, Inputs.projectedTime]
  linarith

end Sound

theorem Lively.rate_pos {i : Inputs Rat} (h : Lively i) : 0 < i.rate := by
  rw [rate_eq]
  exact div_pos (zero_lt_one.trans_le h.arrived) (nonzero_pos h.elapsed)

/-! ## The reasons, one by one -/

section Reasons

variable {i : Inputs Rat} {itemCeiling : Rat} {projection : Projection}

theorem arrivalSlower_iff (coming : 0 < i.rate) :
    (evaluate i itemCeiling projection).reasons.arrivalSlower = true ↔ ¬ i.Arriving := by
  have hflag : (evaluate i itemCeiling projection).reasons.arrivalSlower =
      decide (i.estimate.latency < 1.0 / nonzero i.rate) := by
    rw [rate_eq]
    rfl
  rw [hflag, decide_eq_true_iff, nonzero_of_ne coming.ne', lt_div_iff₀ coming, Inputs.Arriving,
    not_le, mul_comm]
  norm_num

theorem ceiling_iff (h : Sound i) :
    (evaluate i itemCeiling projection).reasons.ceiling = true ↔ ¬ i.Affordable itemCeiling := by
  have hflag : (evaluate i itemCeiling projection).reasons.ceiling =
      decide (itemCeiling < (evaluate i itemCeiling projection).averageItem) := rfl
  rw [hflag, decide_eq_true_iff, averageItem_eq h.filled, lt_div_iff₀ h.size_pos,
    Inputs.Affordable, not_le]
  rfl

theorem throughputDrop_eq :
    (evaluate i itemCeiling projection).reasons.throughputDrop =
      decide (i.projectedSize / nonzero i.projectedTime < i.size / nonzero i.sendTime) := by
  rw [Inputs.projectedTime, Inputs.projectedSize, rate_eq]
  rfl

theorem throughputDrop_iff (h : Sound i) (waited : 0 < i.wait) :
    (evaluate i itemCeiling projection).reasons.throughputDrop = true ↔ ¬ i.Filling := by
  have hnow := h.sendTime_pos waited
  have hnext := hnow.trans_le h.sendTime_le
  -- the cost of the items is on both sides, so it is of no account
  have hgap : i.size * i.projectedTime - i.projectedSize * i.sendTime =
      i.wait * (i.size - i.rate * (i.waited + i.estimate.latency)) := by
    rw [Inputs.projectedTime, Inputs.sendTime, Inputs.projectedSize]
    ring
  rw [throughputDrop_eq, decide_eq_true_iff, nonzero_of_ne hnow.ne', nonzero_of_ne hnext.ne',
    div_lt_div_iff₀ hnext hnow, ← sub_pos, hgap, mul_pos_iff_of_pos_left waited, sub_pos,
    Inputs.Filling, not_le]

/-- Where nothing has been waited for nothing is projected to change. -/
theorem throughputDrop_of_still (still : i.wait = 0) :
    (evaluate i itemCeiling projection).reasons.throughputDrop = false := by
  have hsize : i.projectedSize = i.size := by
    rw [Inputs.projectedSize, still, zero_mul, add_zero]
  have htime : i.projectedTime = i.sendTime := by
    rw [Inputs.projectedTime, Inputs.sendTime, hsize, still, add_zero]
  rw [throughputDrop_eq, hsize, htime]
  exact decide_eq_false (lt_irrefl _)

theorem nextAverageItem_eq (h : Sound i) :
    (evaluate i itemCeiling projection).nextAverageItem = i.expected projection := by
  have hsize := nonzero_of_ne h.projectedSize_pos.ne'
  cases projection with
  | reference =>
    rw [Inputs.expected, ← hsize, Inputs.projectedSize, rate_eq]
    rfl
  | corrected =>
    rw [Inputs.expected, ← hsize, Inputs.projectedTime, Inputs.projectedSize, rate_eq]
    rfl

theorem marginalGain_eq (h : Sound i) :
    (evaluate i itemCeiling projection).reasons.marginalGain =
      decide (i.sendTime / i.size - i.expected projection < i.estimate.latency) := by
  have hflag : (evaluate i itemCeiling projection).reasons.marginalGain =
      decide ((evaluate i itemCeiling projection).averageItem -
        (evaluate i itemCeiling projection).nextAverageItem < i.estimate.latency) := rfl
  rw [hflag, averageItem_eq h.filled, nextAverageItem_eq h]
  rfl

theorem marginalGain_iff (h : Sound i) :
    (evaluate i itemCeiling projection).reasons.marginalGain = true ↔ ¬ i.Gaining projection := by
  have hsize := h.size_pos
  have hprojected := h.projectedSize_pos
  have hboth := mul_pos hsize hprojected
  have hne := hsize.ne'
  have hne' := hprojected.ne'
  rw [marginalGain_eq h, decide_eq_true_iff]
  cases projection with
  | reference =>
    have hsaving : i.sendTime / i.size - i.expected .reference =
        i.sendTime * i.wait * i.rate / (i.size * i.projectedSize) := by
      rw [Inputs.expected]
      field_simp
      rw [Inputs.projectedSize]
      ring
    rw [hsaving, div_lt_iff₀ hboth, Inputs.Gaining, not_le, ← mul_assoc]
    rfl
  | corrected =>
    have hsaving : i.sendTime / i.size - i.expected .corrected =
        i.wait * (i.rate * (i.waited + i.estimate.latency) - i.size) /
          (i.size * i.projectedSize) := by
      rw [Inputs.expected]
      field_simp
      rw [Inputs.projectedTime, Inputs.sendTime, Inputs.projectedSize]
      ring
    rw [hsaving, div_lt_iff₀ hboth, Inputs.Gaining, not_le, ← mul_assoc]
    rfl

end Reasons

/-! ## The rule -/

/-- What decides whether a tick waits. -/
structure Rules (i : Inputs Rat) (itemCeiling : Rat) (projection : Projection) : Prop where
  waits : (evaluate i itemCeiling projection).shouldFlush = false ↔
    i.Arriving ∧ i.Filling ∧ i.Affordable itemCeiling ∧ i.Gaining projection
  arrivalSlower :
    (evaluate i itemCeiling projection).reasons.arrivalSlower = true ↔ ¬ i.Arriving
  throughputDrop :
    (evaluate i itemCeiling projection).reasons.throughputDrop = true ↔ ¬ i.Filling
  ceiling :
    (evaluate i itemCeiling projection).reasons.ceiling = true ↔ ¬ i.Affordable itemCeiling
  marginalGain :
    (evaluate i itemCeiling projection).reasons.marginalGain = true ↔ ¬ i.Gaining projection
  /-- The throughput is the same to all ticks that differ in how the time waited is made up
  of this wait and those before, and in what an item costs. -/
  blind : ∀ {j : Inputs Rat}, Lively j → j.size = i.size → j.waited = i.waited →
    j.total = i.total → j.elapsed = i.elapsed → j.estimate.latency = i.estimate.latency →
    ∀ otherCeiling otherProjection,
      (evaluate j otherCeiling otherProjection).reasons.throughputDrop =
        (evaluate i itemCeiling projection).reasons.throughputDrop

theorem filling_congr {i j : Inputs Rat} (size : j.size = i.size) (waited : j.waited = i.waited)
    (total : j.total = i.total) (elapsed : j.elapsed = i.elapsed)
    (latency : j.estimate.latency = i.estimate.latency) : j.Filling ↔ i.Filling := by
  rw [Inputs.Filling, Inputs.Filling, Inputs.rate, Inputs.rate, size, waited, total, elapsed,
    latency]

theorem shouldFlush_eq_false {ν : Type} (e : Evaluation ν) :
    e.shouldFlush = false ↔
      (¬ e.reasons.arrivalSlower = true ∧ ¬ e.reasons.throughputDrop = true ∧
        ¬ e.reasons.ceiling = true ∧ ¬ e.reasons.marginalGain = true) ∧
        e.reasons.draining = false := by
  simp only [Evaluation.shouldFlush, Reasons.any, Bool.or_eq_false_iff, Bool.not_eq_true]
  tauto

/-- A tick that has waited, finds items and does not drain waits on if four inequalities
hold, and each reason to flush is that one of them fails. -/
theorem rules_of_lively {i : Inputs Rat} (h : Lively i) (running : i.draining = false)
    (itemCeiling : Rat) (projection : Projection) : Rules i itemCeiling projection := by
  have hslower : (evaluate i itemCeiling projection).reasons.arrivalSlower = true ↔
      ¬ i.Arriving := arrivalSlower_iff h.rate_pos
  have hdrop : (evaluate i itemCeiling projection).reasons.throughputDrop = true ↔
      ¬ i.Filling := throughputDrop_iff h.toSound h.waited
  have hceiling : (evaluate i itemCeiling projection).reasons.ceiling = true ↔
      ¬ i.Affordable itemCeiling := ceiling_iff h.toSound
  have hgain : (evaluate i itemCeiling projection).reasons.marginalGain = true ↔
      ¬ i.Gaining projection := marginalGain_iff h.toSound
  refine ⟨?_, hslower, hdrop, hceiling, hgain, ?_⟩
  · have hdraining : (evaluate i itemCeiling projection).reasons.draining = false := running
    rw [shouldFlush_eq_false, hslower, hdrop, hceiling, hgain, hdraining]
    simp only [not_not, and_true]
  · intro j hj size waited total elapsed latency otherCeiling otherProjection
    rw [Bool.eq_iff_iff, throughputDrop_iff hj.toSound hj.waited, hdrop,
      filling_congr size waited total elapsed latency]

/-- Two items after a tick of a millisecond, where a hundred come in each. -/
def busyTick : Inputs Rat :=
  { wait := 1, size := 2, lost := 0, total := 10000, elapsed := 100
    estimate := { latency := 1, perItem := 0.1 }, draining := false }

theorem lively_busyTick : Lively busyTick := by
  constructor
  · constructor <;> decide +kernel
  · decide +kernel
  · decide +kernel

/-- Here all four hold under the one projection, and one fails under the other. -/
theorem rules_of_busyTick :
    Lively busyTick ∧ busyTick.draining = false ∧
      (evaluate busyTick 5 .reference).shouldFlush = false ∧ Rules busyTick 5 .reference ∧
      (evaluate busyTick 5 .corrected).shouldFlush = true ∧ Rules busyTick 5 .corrected :=
  ⟨lively_busyTick, rfl, by decide +kernel, rules_of_lively lively_busyTick rfl 5 .reference,
    by decide +kernel, rules_of_lively lively_busyTick rfl 5 .corrected⟩

end Flush
end AdaptiveBatch
