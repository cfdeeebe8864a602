import AdaptiveBatch.Duration
import AdaptiveBatch.Proofs.Decimal.Order

/-!
# Spans of floating point milliseconds

Dividing and rounding keep the order of numbers, so what is shorter than a span is a span
too, and no longer than the other.
-/

namespace AdaptiveBatch
namespace Decimal

/-- The magnitude of a pattern as a fraction. -/
theorem binary_value (negative : Bool) (n : Nat) :
    (⟨negative, significand n, (shift n : Int) - 1074⟩ : Binary).num * unitCount =
      units n * (⟨negative, significand n, (shift n : Int) - 1074⟩ : Binary).den := by
  rw [Binary.num, Binary.den, twoPow_eq, twoPow_eq, units, Nat.mul_assoc, Nat.mul_assoc,
    two_pow_mul_unitCount rfl, ← pow_add]
  have hexponents : ((shift n : Int) - 1074).toNat + 1074 =
      shift n + (-((shift n : Int) - 1074)).toNat := by omega
  rw [hexponents]

theorem nanoseconds?_number {n : Nat} (hn : n < infinity) :
    Number.nanoseconds? (number false n) =
      if wordCount * unitCount ≤ units n then none
      else some (roundHalfEven (units n * 1000000000) unitCount) := by
  have hvalue := binary_value false n
  have hden : 0 < (⟨false, significand n, (shift n : Int) - 1074⟩ : Binary).den := by
    rw [Binary.den, twoPow_eq]
    exact Nat.two_pow_pos _
  show (Binary.ofFloat? (number false n)).bind Binary.nanoseconds? = _
  rw [ofFloat?_number hn, Option.bind_some, Binary.nanoseconds?, Bool.false_and, if_neg nofun]
  generalize (⟨false, significand n, (shift n : Int) - 1074⟩ : Binary) = b at *
  have hiff : wordCount * b.den ≤ b.num ↔ wordCount * unitCount ≤ units n := by
    rw [← Nat.mul_le_mul_right_iff unitCount_pos, hvalue, Nat.mul_right_comm,
      Nat.mul_le_mul_right_iff hden]
  have hround : roundHalfEven (b.num * 1000000000) b.den =
      roundHalfEven (units n * 1000000000) unitCount := by
    refine roundHalfEven_congr hden unitCount_pos ?_
    rw [Nat.mul_right_comm, hvalue, Nat.mul_right_comm]
  rw [hround]
  simp only [hiff]

theorem nanoseconds?_infinity : Number.nanoseconds? (number false infinity) = none := by
  decide +kernel

/-- The pattern of a thousand. -/
def thousand : Nat := 1032 * 2 ^ 52 + 4292493394837504

theorem thousand_eq : (1000.0 : Float) = number false thousand := by
  decide +kernel

theorem ofMillis?_number {n : Nat} (hn : 0 < n ∧ n < infinity) :
    ∃ k, RoundsTo (units n) (units thousand) k ∧
      Duration.ofMillis? (number false n) =
        (Number.nanoseconds? (number false (min infinity k))).map Duration.mk := by
  obtain ⟨k, hk, hdiv⟩ := div_number hn (b := thousand) (by decide)
  refine ⟨k, hk, ?_⟩
  rw [Duration.ofMillis?, thousand_eq, hdiv]

/-- What is shorter than a span is a span, and no longer. -/
theorem ofMillis?_le {a b : Nat} (ha : 0 < a) (hab : a ≤ b) (hb : b < infinity) {d : Duration}
    (h : Duration.ofMillis? (number false b) = some d) :
    ∃ d', Duration.ofMillis? (number false a) = some d' ∧ d'.nanoseconds ≤ d.nanoseconds := by
  obtain ⟨k, hk, ha'⟩ := ofMillis?_number ⟨ha, hab.trans_lt hb⟩
  obtain ⟨l, hl, hb'⟩ := ofMillis?_number ⟨ha.trans_le hab, hb⟩
  have hkl : k ≤ l := hk.mono hl (units_pos (by decide)) (units_strictMono.monotone hab)
  have hfinite : l < infinity := by
    by_contra hlarge
    rw [hb', Nat.min_eq_left (Nat.le_of_not_lt hlarge), nanoseconds?_infinity] at h
    cases h
  rw [hb', Nat.min_eq_right hfinite.le, nanoseconds?_number hfinite] at h
  rw [ha', Nat.min_eq_right (hkl.trans hfinite.le), nanoseconds?_number (hkl.trans_lt hfinite)]
  have hunits : units k ≤ units l := units_strictMono.monotone hkl
  split at h
  · cases h
  · rename_i hspan
    obtain rfl := Option.some.inj h
    rw [if_neg (fun hlong => hspan (hlong.trans hunits))]
    exact ⟨_, rfl, roundHalfEven_mono _ (Nat.mul_le_mul_right _ hunits)⟩

end Decimal
end AdaptiveBatch
