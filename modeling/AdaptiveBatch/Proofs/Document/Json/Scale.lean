import AdaptiveBatch.Document.Json.Number
import AdaptiveBatch.Proofs.Decimal.Shortest
import AdaptiveBatch.Proofs.Decimal.Whole

/-!
# Significands scaled by powers of ten

A number read from its significand and its power of ten is at most two patterns away
from the nearest one.  If neither of the two has more than 53 digits, it is the nearest.
-/

namespace AdaptiveBatch
namespace Json

open Decimal

/-! ## Steps -/

theorem powerOfTen_eq {e n : Nat} (h : Rounds (10 ^ e) n) : powerOfTen e = number false n := by
  refine ofScientific_of_roundsTo h.pos h.finite ?_
  have hone : Magnitude.RoundsTo ⟨1, e⟩ n = RoundsTo (1 * 10 ^ e) 1 n := by
    unfold Magnitude.RoundsTo
    dsimp only
    rw [Int.toNat_natCast, Int.toNat_neg_natCast]
    rfl
  rw [hone, Nat.one_mul]
  exact h.nearest

theorem scale?_up {f : Float} {e : Nat} (he : e ≤ 308)
    (finite : (f * powerOfTen e).isInf = false) :
    scale? f e = some (f * powerOfTen e) := by
  rw [scale?, dif_neg (by omega), if_neg (by omega), if_neg (by omega), Int.natAbs_natCast]
  dsimp only
  rw [finite, if_neg Bool.false_ne_true]

theorem scale?_down {f : Float} {e : Nat} (hpos : 0 < e) (he : e ≤ 308) :
    scale? f (-(e : Int)) = some (f / powerOfTen e) := by
  rw [scale?, dif_neg (by omega), if_pos (by omega), Int.natAbs_neg, Int.natAbs_natCast]

theorem scale?_far {f : Float} {e : Nat} (hf : (f == 0.0) = false) (he : 0 < e) :
    scale? f (-((308 + e : Nat) : Int)) = scale? (f / powerOfTen 308) (-(e : Int)) := by
  have hrest : -((308 + e : Nat) : Int) + 308 = -(e : Int) := by omega
  rw [scale?, dif_pos (by omega), hf, if_neg Bool.false_ne_true, hrest]

/-! ## Drift -/

/-- Whether a significand and a power of ten are read as the pattern `k`, and how far that
is from the nearest pattern `n`. -/
structure ReadAs (s : Nat) (e : Int) (n k : Nat) : Prop where
  reads : scale? (nearest s 1) e = some (number false k)
  finite : k < infinity
  above : k ≤ n + 2
  below : n ≤ k + 2
  exact : s ≤ 2 ^ 53 → e.natAbs ≤ 22 → k = n

section Drift

variable {s e n : Nat} (hs : 0 < s) (small : s ≤ 10 ^ 17)
include hs small

theorem exists_readAs_up (he : e ≤ 308) (h : Magnitude.RoundsTo ⟨s, e⟩ n)
    (room : n + 2 < infinity) : ∃ k, ReadAs s e n k := by
  obtain ⟨a, ha⟩ := exists_rounds (e := 17) (by decide) hs small
  obtain ⟨b, hb⟩ := exists_rounds he (by positivity : 0 < 10 ^ e) le_rfl
  obtain ⟨k, hk, hnear, hclose, hmul⟩ := ha.mul hb
  have hn := h.near
  have hvalue : Magnitude.value ⟨s, e⟩ = s * (10 ^ e : Nat) := by
    rw [Magnitude.value, zpow_natCast, Nat.cast_pow, Nat.cast_ofNat]
  rw [hvalue] at hn
  have hup := hn.le_add_two hnear hclose
  have hfinite : k < infinity := by omega
  rw [Nat.min_eq_right hfinite.le, ← powerOfTen_eq hb] at hmul
  have hreads := scale?_up he (by rw [hmul, isInf_number hfinite])
  refine ⟨k, by rw [ha.number_eq, hreads, hmul], hfinite, hup,
    hnear.le_add_two hn hclose.symm, fun short near => ?_⟩
  rw [Int.natAbs_natCast] at near
  rw [Magnitude.roundsTo_natCast] at h
  refine RoundsTo.unique (hk.congr (Nat.mul_pos unitCount_pos unitCount_pos) Nat.one_pos ?_) h
    Nat.one_pos
  rw [ha.exact_short short, hb.exact_ten near]
  ring

theorem exists_readAs_down (hpos : 0 < e) (he : e ≤ 308)
    (h : Magnitude.RoundsTo ⟨s, -(e : Int)⟩ n) (room : n + 2 < infinity) :
    ∃ k, ReadAs s (-(e : Int)) n k := by
  obtain ⟨a, ha⟩ := exists_rounds (e := 17) (by decide) hs small
  obtain ⟨b, hb⟩ := exists_rounds he (by positivity : 0 < 10 ^ e) le_rfl
  obtain ⟨k, hk, hnear, hclose, hdiv⟩ := ha.div hb
  have hn := h.near
  have hvalue : Magnitude.value ⟨s, -(e : Int)⟩ = s / (10 ^ e : Nat) := by
    rw [Magnitude.value, zpow_neg, zpow_natCast, Nat.cast_pow, Nat.cast_ofNat, div_eq_mul_inv]
  rw [hvalue] at hn
  have hup := hn.le_add_two hnear hclose
  have hfinite : k < infinity := by omega
  rw [Nat.min_eq_right hfinite.le, ← powerOfTen_eq hb] at hdiv
  refine ⟨k, by rw [ha.number_eq, scale?_down hpos he, hdiv], hfinite, hup,
    hnear.le_add_two hn hclose.symm, fun short near => ?_⟩
  rw [Int.natAbs_neg, Int.natAbs_natCast] at near
  rw [Magnitude.roundsTo_neg_natCast] at h
  refine RoundsTo.unique (hk.congr (units_pos hb.pos) hb.source ?_) h hb.source
  rw [ha.exact_short short, hb.exact_ten near]
  ring

/-- Below `10 ^ (-308)` the significand is divided twice, and the second time exactly. -/
theorem exists_readAs_far (hpos : 0 < e) (he : e ≤ 22)
    (h : Magnitude.RoundsTo ⟨s, -((308 + e : Nat) : Int)⟩ n) (room : n + 2 < infinity) :
    ∃ k, ReadAs s (-((308 + e : Nat) : Int)) n k := by
  obtain ⟨t, ht⟩ : ∃ t, t = 308 := ⟨_, rfl⟩
  obtain ⟨a, ha⟩ := exists_rounds (e := 17) (by decide) hs small
  obtain ⟨b, hb⟩ := exists_rounds (e := e) (by omega) (by positivity : 0 < 10 ^ e) le_rfl
  obtain ⟨m, hm, hfirst, hquot⟩ := ha.div_tenTo308 ht
  obtain ⟨k, hk, hdiv⟩ := div_number hm ⟨hb.pos, hb.finite⟩
  have hunit := unitCount_pos_cast
  have hnear := Near.of_roundsTo hk (units_pos hb.pos)
  rw [hb.exact_ten he, Nat.cast_mul, mul_div_mul_right _ _ hunit.ne', Nat.cast_pow,
    Nat.cast_ofNat] at hnear
  have hclose := hfirst.div (w := 10 ^ e) (one_le_pow₀ (by norm_num))
  have hn := h.near
  have hvalue : ∀ t : Nat, Magnitude.value ⟨s, -((t + e : Nat) : Int)⟩ * unitCount =
      s * unitCount / 10 ^ t / 10 ^ e := by
    intro t
    rw [Magnitude.value, zpow_neg, zpow_natCast, pow_add, div_div, div_eq_mul_inv]
    ring
  rw [hvalue, ← ht] at hn
  have hup := hn.le_add_two hnear hclose
  have hfinite : k < infinity := by omega
  have hten : powerOfTen 308 = number false tenTo308 := powerOfTen_eq (rounds_tenTo308 rfl)
  rw [Nat.min_eq_right hfinite.le, ← hquot, ← hten, ← powerOfTen_eq hb] at hdiv
  refine ⟨k, ?_, hfinite, hup, hnear.le_add_two hn hclose.symm, fun _ near => ?_⟩
  · rw [ha.number_eq, scale?_far (beq_zero ha.pos ha.finite) hpos, scale?_down hpos (by omega), hdiv]
  · omega

end Drift

/-- A decimal of at most seventeen digits is read as a number at most two patterns away
from the nearest one. -/
theorem exists_readAs {m : Magnitude} {n : Nat} (hs : 0 < m.coefficient)
    (small : m.coefficient ≤ 10 ^ 17) (low : -330 ≤ m.exponent) (high : m.exponent ≤ 308)
    (h : m.RoundsTo n) (room : n + 2 < infinity) :
    ∃ k, ReadAs m.coefficient m.exponent n k := by
  obtain ⟨s, e⟩ := m
  dsimp only at hs small low high ⊢
  by_cases hup : 0 ≤ e
  · obtain ⟨f, rfl⟩ := Int.eq_ofNat_of_zero_le hup
    exact exists_readAs_up hs small (by omega) h room
  · by_cases hdown : -308 ≤ e
    · obtain ⟨f, rfl⟩ : ∃ f : Nat, e = -(f : Int) := ⟨e.natAbs, by omega⟩
      exact exists_readAs_down hs small (by omega) (by omega) h room
    · obtain ⟨f, rfl⟩ : ∃ f : Nat, e = -((308 + f : Nat) : Int) := ⟨(-308 - e).toNat, by omega⟩
      exact exists_readAs_far hs small (by omega) (by omega) h room

end Json
end AdaptiveBatch
