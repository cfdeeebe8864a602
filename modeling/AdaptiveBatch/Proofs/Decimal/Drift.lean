import Mathlib.Algebra.Order.Archimedean.Basic
import AdaptiveBatch.Proofs.Decimal.Nearest

/-!
# How far rounding goes

Rounding a number that is not too small changes it by a factor of at most `slack`, up
or down.  Two such factors are less than the way from a midpoint between patterns to the
second midpoint after it, so a number off by two roundings is rounded to a pattern that
is at most two away.  All quantities here are in units of the least positive number.
-/

namespace AdaptiveBatch
namespace Decimal

/-- The most that one rounding counts for, as a factor. -/
def slack : ℚ := 1 + 1 / 2 ^ 53

/-- Two quantities that are two roundings apart, or less than two steps. -/
def Close (x y : ℚ) : Prop :=
  (y ≤ slack ^ 2 * x ∧ x ≤ slack ^ 2 * y) ∨ (y < x + 2 ∧ x < y + 2)

theorem Close.symm {x y : ℚ} (h : Close x y) : Close y x := h.imp And.symm And.symm

theorem Close.div {x y w : ℚ} (h : Close x y) (hw : 1 ≤ w) : Close (x / w) (y / w) := by
  have hpos : 0 < w := by linarith
  rcases h with ⟨hy, hx⟩ | ⟨hy, hx⟩
  · left
    rw [← mul_div_assoc, ← mul_div_assoc]
    exact ⟨div_le_div_of_nonneg_right hy hpos.le, div_le_div_of_nonneg_right hx hpos.le⟩
  · right
    have htwo : 2 ≤ 2 * w := by linarith
    constructor
    · rw [div_lt_iff₀ hpos, add_mul, div_mul_cancel₀ _ hpos.ne']
      linarith
    · rw [div_lt_iff₀ hpos, add_mul, div_mul_cancel₀ _ hpos.ne']
      linarith

/-- Whether a quantity lies between the midpoints around a pattern. -/
structure Near (x : ℚ) (n : Nat) : Prop where
  upper : 2 * x ≤ midway n
  lower : ∀ k, k + 1 = n → (midway k : ℚ) ≤ 2 * x

namespace Near

variable {x y : ℚ} {n m k s : Nat}

theorem of_roundsTo {num den : Nat} (h : RoundsTo num den n) (hden : 0 < den) :
    Near ((num : ℚ) * unitCount / den) n := by
  have hpos : (0 : ℚ) < den := by exact_mod_cast hden
  constructor
  · rw [← mul_div_assoc, div_le_iff₀ hpos]
    have hle : 2 * (num * unitCount) ≤ midway n * den := by
      rcases h.upper with hup | ⟨hup, -⟩ <;> omega
    exact_mod_cast hle
  · intro k hk
    rw [← mul_div_assoc, le_div_iff₀ hpos]
    have hle : midway k * den ≤ 2 * (num * unitCount) := by
      rcases h.lower k hk with hlow | ⟨hlow, -⟩ <;> omega
    exact_mod_cast hle

theorem le_of_lt (h : Near x n) (hk : 2 * x < midway k) : n ≤ k := by
  by_contra hlt
  obtain ⟨j, rfl⟩ : ∃ j, j + 1 = n := ⟨n - 1, by omega⟩
  have hmono : (midway k : ℚ) ≤ midway j := by
    exact_mod_cast midway_strictMono.monotone (by omega : k ≤ j)
  have := h.lower j rfl
  linarith

theorem lt_of_lt (h : Near x n) (hk : (midway k : ℚ) < 2 * x) : k < n := by
  by_contra hle
  have hmono : (midway n : ℚ) ≤ midway k := by
    exact_mod_cast midway_strictMono.monotone (by omega : n ≤ k)
  have := h.upper
  linarith

theorem le_of_le_units (h : Near x n) (hm : x ≤ units m) : n ≤ m := by
  have hmid : (2 : ℚ) * units m < midway m := by exact_mod_cast lt_midway m
  exact h.le_of_lt (by linarith)

theorem le_of_units_le (h : Near x n) (hm : (units m : ℚ) ≤ x) : m ≤ n := by
  by_contra hlt
  obtain ⟨j, rfl⟩ : ∃ j, j + 1 = m := ⟨m - 1, by omega⟩
  have hmid : (midway j : ℚ) < 2 * units (j + 1) := by exact_mod_cast midway_lt (Nat.lt_succ_self j)
  have := h.lt_of_lt (k := j) (by linarith)
  omega

/-- A quantity that has a pattern is rounded to it. -/
theorem eq_of_units (h : Near (units m) n) : n = m :=
  Nat.le_antisymm (h.le_of_le_units le_rfl) (h.le_of_units_le le_rfl)

/-! ## One rounding -/

/-- Among the numbers with a shift of at most `s`, rounding is off by half a step. -/
theorem error (h : Near x n) (nonneg : 0 ≤ x) (hx : x ≤ 2 ^ 53 * 2 ^ s) :
    (units n : ℚ) ≤ x + 2 ^ s / 2 ∧ x ≤ units n + 2 ^ s / 2 := by
  have htop : units (s * 2 ^ 52 + 2 ^ 53) = 2 ^ 53 * 2 ^ s :=
    units_shifted (Or.inl (by decide)) le_rfl
  have hle : n ≤ s * 2 ^ 52 + 2 ^ 53 := h.le_of_le_units (by rw [htop]; exact_mod_cast hx)
  have hstep : ∀ k, k < s * 2 ^ 52 + 2 ^ 53 → (2 ^ shift k : ℚ) ≤ 2 ^ s := by
    intro k hk
    have hshift : shift k ≤ s := by
      unfold shift
      omega
    exact pow_le_pow_right₀ (by norm_num) hshift
  have hpos : (0 : ℚ) < 2 ^ s := by positivity
  constructor
  · cases n with
    | zero =>
      have hzero : units 0 = 0 := by decide
      rw [hzero, Nat.cast_zero]
      linarith
    | succ k =>
      have hlow := h.lower k rfl
      have hk := hstep k (by omega)
      unfold midway at hlow
      rw [units_succ] at hlow ⊢
      push_cast at hlow ⊢
      linarith
  · by_cases hn : n = s * 2 ^ 52 + 2 ^ 53
    · rw [hn, htop]
      push_cast
      linarith
    · have hup := h.upper
      have hk := hstep n (by omega)
      unfold midway at hup
      rw [units_succ] at hup
      push_cast at hup
      linarith

/-- The same for a quotient. -/
theorem error_quotient {a p : ℚ} (h : Near (a / p) n) (ha : 0 ≤ a) (hp : 0 < p)
    (hs : a ≤ 2 ^ 53 * (2 ^ s * p)) :
    (units n : ℚ) * p ≤ a + 2 ^ s * p / 2 ∧ a ≤ units n * p + 2 ^ s * p / 2 := by
  have hle : a / p ≤ 2 ^ 53 * 2 ^ s := by
    rw [div_le_iff₀ hp]
    linarith
  obtain ⟨hup, hdown⟩ := h.error (div_nonneg ha hp.le) hle
  have hback : a / p * p = a := div_mul_cancel₀ a hp.ne'
  have hup' := mul_le_mul_of_nonneg_right hup hp.le
  have hdown' := mul_le_mul_of_nonneg_right hdown hp.le
  rw [add_mul, hback] at hup' hdown'
  constructor <;> linarith

/-- Rounding a quantity with all its 53 digits. -/
theorem within (h : Near x n) (hx : 2 ^ 52 ≤ x) :
    (units n : ℚ) ≤ slack * x ∧ x ≤ slack * units n := by
  obtain ⟨s, hlow, hhigh⟩ := exists_nat_pow_near (x := x / 2 ^ 52) (y := 2)
    (by rwa [le_div_iff₀ (by positivity), one_mul]) (by norm_num)
  rw [le_div_iff₀ (by positivity)] at hlow
  rw [div_lt_iff₀ (by positivity), pow_succ] at hhigh
  obtain ⟨hup, hdown⟩ := h.error (s := s) (by linarith) (by linarith)
  have hbottom : units (s * 2 ^ 52 + 2 ^ 52) = 2 ^ 52 * 2 ^ s :=
    units_shifted (Or.inl le_rfl) (by decide)
  have hle := h.le_of_units_le (m := s * 2 ^ 52 + 2 ^ 52) (by
    rw [hbottom]
    push_cast
    linarith)
  have hunits : (2 ^ 52 * 2 ^ s : ℚ) ≤ units n := by
    exact_mod_cast hbottom ▸ units_strictMono.monotone hle
  unfold slack
  constructor <;> linarith

/-! ## Two roundings -/

theorem midway_add_four (k : Nat) : midway k + 4 * 2 ^ shift k ≤ midway (k + 2) := by
  have hmono : shift k ≤ shift (k + 1) ∧ shift k ≤ shift (k + 2) := by
    unfold shift
    omega
  have h₁ : 2 ^ shift k ≤ 2 ^ shift (k + 1) := Nat.pow_le_pow_right (by decide) hmono.1
  have h₂ : 2 ^ shift k ≤ 2 ^ shift (k + 2) := Nat.pow_le_pow_right (by decide) hmono.2
  unfold midway
  rw [units_succ (k + 2), units_succ (k + 1), units_succ k]
  omega

theorem midway_gap (k : Nat) : slack ^ 2 * midway k < midway (k + 2) := by
  have hlt := significand_lt k
  have hsize : midway k + 2 ^ shift k ≤ 2 ^ 54 * 2 ^ shift k := by
    unfold midway
    rw [units_succ, units]
    calc significand k * 2 ^ shift k + (significand k * 2 ^ shift k + 2 ^ shift k) + 2 ^ shift k
        = (2 * significand k + 2) * 2 ^ shift k := by ring
      _ ≤ 2 ^ 54 * 2 ^ shift k := Nat.mul_le_mul_right _ (by omega)
  have hsize' : (midway k : ℚ) + 2 ^ shift k ≤ 2 ^ 54 * 2 ^ shift k := by exact_mod_cast hsize
  have hnext : (midway k : ℚ) + 4 * 2 ^ shift k ≤ midway (k + 2) := by
    exact_mod_cast midway_add_four k
  have hstep : (0 : ℚ) < 2 ^ shift k := by positivity
  have hsquare : slack ^ 2 = 1 + (1 / 2 ^ 52 + 1 / 2 ^ 106) := by
    unfold slack
    norm_num
  rw [hsquare]
  linarith

/-- Patterns for quantities that are close are at most two apart. -/
theorem le_add_two (hx : Near x n) (hy : Near y m) (h : Close x y) : m ≤ n + 2 := by
  refine hy.le_of_lt ?_
  have hup := hx.upper
  rcases h with ⟨h, -⟩ | ⟨h, -⟩
  · have hgap := midway_gap n
    have hscaled := mul_le_mul_of_nonneg_left hup (by positivity : (0 : ℚ) ≤ slack ^ 2)
    linarith
  · have hnext : (midway n : ℚ) + 4 * 2 ^ shift n ≤ midway (n + 2) := by
      exact_mod_cast midway_add_four n
    have hstep : (1 : ℚ) ≤ 2 ^ shift n := one_le_pow₀ (by norm_num)
    linarith

end Near

/-! ## Exact numbers -/

/-- A significand of 53 digits has a pattern with each shift. -/
theorem exists_units {m : Nat} (fits : m ≤ 2 ^ 53) (s : Nat) : ∃ n, units n = m * 2 ^ s := by
  induction s generalizing m with
  | zero => exact ⟨_, units_shifted (s := 0) (Or.inr rfl) fits⟩
  | succ s ih =>
    by_cases hm : 2 ^ 52 ≤ m
    · exact ⟨_, units_shifted (Or.inl hm) fits⟩
    · obtain ⟨n, hn⟩ := ih (m := m * 2) (by omega)
      exact ⟨n, by rw [hn, pow_succ, Nat.mul_assoc, Nat.mul_comm 2]⟩

end Decimal
end AdaptiveBatch
