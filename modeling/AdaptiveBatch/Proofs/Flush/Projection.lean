import AdaptiveBatch.Proofs.Flush.Rule

/-!
# The two projections

The corrected projection expects the items that come during a wait to cost time as well, so
it expects less of a wait than the reference does and flushes whenever the reference does.
Under it the throughput is no test of its own: where it would drop, a wait saves nothing.
-/

namespace AdaptiveBatch
namespace Flush

/-- Whatever calls for a flush in `r` does so in `q`. -/
structure Reasons.Within (r q : Reasons) : Prop where
  arrivalSlower : r.arrivalSlower = true → q.arrivalSlower = true
  throughputDrop : r.throughputDrop = true → q.throughputDrop = true
  marginalGain : r.marginalGain = true → q.marginalGain = true
  ceiling : r.ceiling = true → q.ceiling = true
  draining : r.draining = true → q.draining = true

theorem Reasons.Within.any {r q : Reasons} (h : r.Within q) (hr : r.any = true) :
    q.any = true := by
  simp only [Reasons.any, Bool.or_eq_true] at hr ⊢
  rcases hr with (((hr | hr) | hr) | hr) | hr
  · exact .inl (.inl (.inl (.inl (h.arrivalSlower hr))))
  · exact .inl (.inl (.inl (.inr (h.throughputDrop hr))))
  · exact .inl (.inl (.inr (h.marginalGain hr)))
  · exact .inl (.inr (h.ceiling hr))
  · exact .inr (h.draining hr)

section Gaining

variable {i : Inputs Rat} (h : Sound i)

include h

/-- A wait that pays with the cost of the new items counted pays without it. -/
theorem gaining_reference (gaining : i.Gaining .corrected) : i.Gaining .reference := by
  have hitems : 0 ≤ i.wait * i.size + i.size * i.estimate.perItem * i.wait * i.rate := by
    have hcost := mul_nonneg (mul_nonneg (mul_nonneg h.size_pos.le h.perItem) h.wait) h.rate_nonneg
    exact add_nonneg (mul_nonneg h.wait h.size_pos.le) hcost
  have hgap : (i.waited + i.estimate.latency + i.size * i.estimate.perItem) * i.wait * i.rate -
      i.wait * (i.rate * (i.waited + i.estimate.latency) - i.size) =
        i.wait * i.size + i.size * i.estimate.perItem * i.wait * i.rate := by
    ring
  rw [Inputs.Gaining] at gaining
  rw [Inputs.Gaining]
  linarith

/-- Where more is buffered than comes, a wait saves nothing. -/
theorem filling_of_gaining (waited : 0 < i.wait) (gaining : i.Gaining .corrected) : i.Filling := by
  have hcall : 0 ≤ i.estimate.latency * i.size * (i.size + i.wait * i.rate) :=
    mul_nonneg (mul_nonneg h.latency h.size_pos.le) h.projectedSize_pos.le
  rw [Inputs.Gaining] at gaining
  have hsaved := nonneg_of_mul_nonneg_right (hcall.trans gaining) waited
  rw [Inputs.Filling]
  linarith

end Gaining

/-! ## The projections side by side -/

/-- How the evaluations of one tick under the two projections compare. -/
structure Hastens (i : Inputs Rat) (itemCeiling : Rat) : Prop where
  within : (evaluate i itemCeiling .reference).reasons.Within
    (evaluate i itemCeiling .corrected).reasons
  flushes : (evaluate i itemCeiling .reference).shouldFlush = true →
    (evaluate i itemCeiling .corrected).shouldFlush = true
  /-- They differ in what is expected of an item one wait later, and in what follows. -/
  same : evaluate i itemCeiling .corrected =
    { evaluate i itemCeiling .reference with
      nextAverageItem := (evaluate i itemCeiling .corrected).nextAverageItem
      reasons :=
        { (evaluate i itemCeiling .reference).reasons with
          marginalGain := (evaluate i itemCeiling .corrected).reasons.marginalGain } }
  attended : (evaluate i itemCeiling .corrected).reasons.throughputDrop = true →
    (evaluate i itemCeiling .corrected).reasons.marginalGain = true
  still : i.wait = 0 → ∀ projection,
    (evaluate i itemCeiling projection).reasons.throughputDrop = false

/-- The corrected projection has every reason to flush that the reference has. -/
theorem hastens_of_sound {i : Inputs Rat} (h : Sound i) (itemCeiling : Rat) :
    Hastens i itemCeiling := by
  have hwithin : (evaluate i itemCeiling .reference).reasons.Within
      (evaluate i itemCeiling .corrected).reasons := by
    refine ⟨id, id, ?_, id, id⟩
    rw [marginalGain_iff h, marginalGain_iff h]
    exact mt (gaining_reference h)
  refine ⟨hwithin, hwithin.any, rfl, ?_, fun still _ => throughputDrop_of_still still⟩
  intro dropping
  have waited : 0 < i.wait := by
    refine lt_of_le_of_ne h.wait ?_
    intro still
    rw [throughputDrop_of_still still.symm] at dropping
    cases dropping
  rw [throughputDrop_iff h waited] at dropping
  rw [marginalGain_iff h]
  exact mt (filling_of_gaining h waited) dropping

/-- A tick that has waited for nothing, at the very start, with a sink that costs nothing. -/
def instantTick : Inputs Rat :=
  { wait := 0, size := 1, lost := 0, total := 0, elapsed := 0
    estimate := { latency := 0, perItem := 0 }, draining := false }

/-- A tick that finds less coming than is buffered. -/
def slackTick : Inputs Rat :=
  { wait := 1, size := 3, lost := 0, total := 3, elapsed := 4
    estimate := { latency := 2, perItem := 0 }, draining := false }

/-- Every denominator is zero in the first tick.  In the second both projections see the
throughput drop. -/
theorem hastens_of_instantTick :
    Sound instantTick ∧ Hastens instantTick 5 ∧ Sound slackTick ∧
      (evaluate slackTick 5 .reference).reasons.throughputDrop = true ∧ Hastens slackTick 5 := by
  have instant : Sound instantTick := by constructor <;> decide +kernel
  have slack : Sound slackTick := by constructor <;> decide +kernel
  exact ⟨instant, hastens_of_sound instant 5, slack, by decide +kernel, hastens_of_sound slack 5⟩

end Flush
end AdaptiveBatch
