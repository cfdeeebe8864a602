import Mathlib.Algebra.Order.Field.Power
import Mathlib.Algebra.Order.Field.Rat
import Mathlib.Data.Rat.Cast.Order
import Mathlib.Tactic.Linarith
import Mathlib.Tactic.NormNum
import Mathlib.Tactic.Positivity
import Mathlib.Tactic.Ring
import AdaptiveBatch.Decimal.Binary
import AdaptiveBatch.Proofs.Power

/-!
# Rounding to the nearest number

A bit pattern below that of infinity stands for a magnitude, which is a whole multiple
of the least positive number.  The magnitudes grow with the patterns, so rounding is
finding the pattern with a fraction between the two midpoints around it.
-/

namespace AdaptiveBatch
namespace Decimal

/-! ## Patterns and magnitudes -/

/-- How often the least positive number goes into one. -/
@[irreducible]
def unitCount : Nat := 2 ^ 1074

theorem unitCount_eq {e : Nat} (he : e = 1074) : unitCount = 2 ^ e := by
  subst he
  unfold unitCount
  rfl

theorem unitCount_pos : 0 < unitCount := by
  obtain ⟨e, he⟩ : ∃ e, e = 1074 := ⟨_, rfl⟩
  rw [unitCount_eq he]
  exact Nat.two_pow_pos e

/-- How many places the significand of a pattern is shifted. -/
def shift (n : Nat) : Nat := n / 2 ^ 52 - 1

def significand (n : Nat) : Nat := n - shift n * 2 ^ 52

/-- The magnitude of a pattern, in units of the least positive number. -/
def units (n : Nat) : Nat := significand n * 2 ^ shift n

theorem pattern_eq (n : Nat) : n = shift n * 2 ^ 52 + significand n := by
  unfold significand shift
  omega

theorem significand_lt (n : Nat) : significand n < 2 ^ 53 := by
  unfold significand shift
  omega

theorem normal_or_unshifted (n : Nat) : 2 ^ 52 ≤ significand n ∨ shift n = 0 := by
  unfold significand shift
  omega

/-- A significand of `2 ^ 53` stands for the least one with the next shift. -/
theorem units_shifted {s m : Nat} (normal : 2 ^ 52 ≤ m ∨ s = 0) (fits : m ≤ 2 ^ 53) :
    units (s * 2 ^ 52 + m) = m * 2 ^ s := by
  unfold units significand
  by_cases hm : m = 2 ^ 53
  · have hshift : shift (s * 2 ^ 52 + m) = s + 1 := by
      unfold shift
      omega
    have hleft : s * 2 ^ 52 + m - (s + 1) * 2 ^ 52 = 2 ^ 52 := by omega
    rw [hshift, hleft, hm, pow_succ]
    ring
  · have hshift : shift (s * 2 ^ 52 + m) = s := by
      unfold shift
      omega
    have hleft : s * 2 ^ 52 + m - s * 2 ^ 52 = m := by omega
    rw [hshift, hleft]

theorem units_succ (n : Nat) : units (n + 1) = units n + 2 ^ shift n := by
  have hn := pattern_eq n
  have hlt := significand_lt n
  have hnormal := normal_or_unshifted n
  have hnext : n + 1 = shift n * 2 ^ 52 + (significand n + 1) := by omega
  rw [hnext, units_shifted (by omega) (by omega)]
  unfold units
  ring

theorem units_strictMono : StrictMono units :=
  strictMono_nat_of_lt_succ fun n => by
    rw [units_succ]
    exact Nat.lt_add_of_pos_right (Nat.two_pow_pos _)

/-- Twice the middle between a magnitude and the next one. -/
def midway (n : Nat) : Nat := units n + units (n + 1)

theorem midway_strictMono : StrictMono midway := fun _ _ h =>
  Nat.add_lt_add (units_strictMono h) (units_strictMono (Nat.succ_lt_succ h))

theorem lt_midway (n : Nat) : 2 * units n < midway n := by
  have := units_strictMono (Nat.lt_succ_self n)
  unfold midway
  rw [Nat.succ_eq_add_one] at this
  omega

theorem midway_lt {k m : Nat} (hk : k < m) : midway k < 2 * units m := by
  have hless := units_strictMono (Nat.lt_succ_self k)
  have hmono := units_strictMono.monotone (Nat.succ_le_of_lt hk)
  unfold midway
  rw [Nat.succ_eq_add_one] at *
  omega

/-- Where the numbers are `2 ^ s` apart, or start to be further apart. -/
theorem le_midway_shifted {s m : Nat} (normal : 2 ^ 52 ≤ m ∨ s = 0) (fits : m ≤ 2 ^ 53) :
    (2 * m + 1) * 2 ^ s ≤ midway (s * 2 ^ 52 + m) := by
  have hshift : s ≤ shift (s * 2 ^ 52 + m) := by
    unfold shift
    omega
  have hpow : 2 ^ s ≤ 2 ^ shift (s * 2 ^ 52 + m) := Nat.pow_le_pow_right (by decide) hshift
  unfold midway
  rw [units_succ, units_shifted normal fits]
  calc (2 * m + 1) * 2 ^ s = m * 2 ^ s + (m * 2 ^ s + 2 ^ s) := by ring
    _ ≤ m * 2 ^ s + (m * 2 ^ s + 2 ^ shift (s * 2 ^ 52 + m)) := by omega

theorem midway_shifted {s m : Nat} (normal : 2 ^ 52 ≤ m ∨ s = 0) (fits : m + 1 ≤ 2 ^ 53) :
    midway (s * 2 ^ 52 + m) = (2 * m + 1) * 2 ^ s := by
  unfold midway
  rw [Nat.add_assoc, units_shifted normal (by omega), units_shifted (by omega) fits]
  ring

/-! ## The pattern nearest to a fraction -/

/-- Whether a pattern is the nearest one to `num / den`, and the even one of two. -/
structure RoundsTo (num den n : Nat) : Prop where
  upper : 2 * (num * unitCount) < midway n * den ∨
    2 * (num * unitCount) = midway n * den ∧ n % 2 = 0
  lower : ∀ k, k + 1 = n → midway k * den < 2 * (num * unitCount) ∨
    midway k * den = 2 * (num * unitCount) ∧ n % 2 = 0

namespace RoundsTo

variable {num den n k : Nat}

theorem le_of_lt (h : RoundsTo num den n) (hk : 2 * (num * unitCount) < midway k * den) :
    n ≤ k := by
  by_contra hlt
  obtain ⟨j, rfl⟩ : ∃ j, j + 1 = n := ⟨n - 1, by omega⟩
  have hmono : midway k * den ≤ midway j * den :=
    Nat.mul_le_mul_right _ (midway_strictMono.monotone (by omega))
  rcases h.lower j rfl with hlow | ⟨hlow, -⟩ <;> omega

theorem lt_of_lt (h : RoundsTo num den n) (hk : midway k * den < 2 * (num * unitCount)) :
    k < n := by
  by_contra hle
  have hmono : midway n * den ≤ midway k * den :=
    Nat.mul_le_mul_right _ (midway_strictMono.monotone (by omega))
  rcases h.upper with hup | ⟨hup, -⟩ <;> omega

theorem unique (hn : RoundsTo num den n) (hk : RoundsTo num den k) (hden : 0 < den) : n = k := by
  -- A fraction between two patterns is nearest to both only halfway between neighbours,
  -- and then one of them is odd.
  have hless : ∀ {a b : Nat}, RoundsTo num den a → RoundsTo num den b → ¬ a < b := by
    intro a b ha hb hab
    obtain ⟨j, rfl⟩ : ∃ j, j + 1 = b := ⟨b - 1, by omega⟩
    have hmono : midway a * den ≤ midway j * den :=
      Nat.mul_le_mul_right _ (midway_strictMono.monotone (by omega))
    rcases ha.upper with hup | ⟨hup, haeven⟩ <;> rcases hb.lower j rfl with hlow | ⟨hlow, hbeven⟩ <;>
      try omega
    have hsame : midway a * den = midway j * den := by omega
    have haj := midway_strictMono.injective (Nat.eq_of_mul_eq_mul_right hden hsame)
    omega
  rcases Nat.lt_trichotomy n k with h | h | h
  · exact absurd h (hless hn hk)
  · exact h
  · exact absurd h (hless hk hn)

/-- A larger fraction is rounded to a larger pattern. -/
theorem mono {num' n' : Nat} (h : RoundsTo num den n)
    (h' : RoundsTo num' den n') (hden : 0 < den) (hle : num ≤ num') : n ≤ n' := by
  rcases hle.lt_or_eq with hlt | rfl
  · have hscaled : 2 * (num * unitCount) < 2 * (num' * unitCount) :=
      Nat.mul_lt_mul_of_pos_left (Nat.mul_lt_mul_of_pos_right hlt unitCount_pos) Nat.two_pos
    refine h.le_of_lt (hscaled.trans_le ?_)
    rcases h'.upper with hless | ⟨heq, -⟩
    · exact hless.le
    · exact heq.le
  · exact (h.unique h' hden).le

/-- What a fraction rounds to depends on its value only. -/
theorem congr {num' den' : Nat} (h : RoundsTo num den n) (hden : 0 < den) (hden' : 0 < den')
    (same : num' * den = num * den') : RoundsTo num' den' n := by
  have hscale : ∀ a : Nat, a * den' * den = a * den * den' := fun a => by ring
  have hnum : 2 * (num' * unitCount) * den = 2 * (num * unitCount) * den' := by
    calc 2 * (num' * unitCount) * den = 2 * (num' * den * unitCount) := by ring
      _ = 2 * (num * unitCount) * den' := by rw [same]; ring
  constructor
  · rcases h.upper with hup | ⟨hup, heven⟩
    · left
      refine lt_of_mul_lt_mul_right ?_ (Nat.zero_le den)
      rw [hnum, hscale]
      exact Nat.mul_lt_mul_of_pos_right hup hden'
    · right
      refine ⟨Nat.eq_of_mul_eq_mul_right hden ?_, heven⟩
      rw [hnum, hscale, hup]
  · intro k hk
    rcases h.lower k hk with hlow | ⟨hlow, heven⟩
    · left
      refine lt_of_mul_lt_mul_right ?_ (Nat.zero_le den)
      rw [hnum, hscale]
      exact Nat.mul_lt_mul_of_pos_right hlow hden'
    · right
      refine ⟨Nat.eq_of_mul_eq_mul_right hden ?_, heven⟩
      rw [hnum, hscale, hlow]

end RoundsTo

/-! ## Rounding at a shift -/

theorem roundHalfEven_upper {a b : Nat} (hb : 0 < b) :
    2 * a < (2 * roundHalfEven a b + 1) * b ∨
      2 * a = (2 * roundHalfEven a b + 1) * b ∧ roundHalfEven a b % 2 = 0 := by
  have hdiv := Nat.div_add_mod a b
  have hmod := Nat.mod_lt a hb
  unfold roundHalfEven
  generalize a / b = q at *
  generalize a % b = r at *
  have hexpand : (2 * q + 1) * b = 2 * (b * q) + b := by ring
  have hnext : (2 * (q + 1) + 1) * b = 2 * (b * q) + 3 * b := by ring
  dsimp only
  split
  · rw [hnext]
    omega
  · split
    · rcases Nat.mod_two_eq_zero_or_one q with hq | hq
      · rw [hq]
        simp only [Nat.add_zero, hexpand]
        omega
      · rw [hq, hnext]
        omega
    · rw [hexpand]
      omega

theorem roundHalfEven_lower {a b : Nat} (hb : 0 < b) :
    2 * roundHalfEven a b * b < 2 * a + b ∨
      2 * roundHalfEven a b * b = 2 * a + b ∧ roundHalfEven a b % 2 = 0 := by
  have hdiv := Nat.div_add_mod a b
  have hmod := Nat.mod_lt a hb
  unfold roundHalfEven
  generalize a / b = q at *
  generalize a % b = r at *
  have hexpand : 2 * q * b = 2 * (b * q) := by ring
  have hnext : 2 * (q + 1) * b = 2 * (b * q) + 2 * b := by ring
  dsimp only
  split
  · rw [hnext]
    omega
  · split
    · rcases Nat.mod_two_eq_zero_or_one q with hq | hq
      · rw [hq]
        simp only [Nat.add_zero, hexpand]
        omega
      · rw [hq, hnext]
        omega
    · rw [hexpand]
      omega

theorem roundHalfEven_scale (a b : Nat) {c : Nat} (hc : 0 < c) :
    roundHalfEven (a * c) (b * c) = roundHalfEven a b := by
  have htwice : ∀ r : Nat, 2 * (r * c) = 2 * r * c := fun r => by ring
  simp only [roundHalfEven, Nat.mul_div_mul_right _ _ hc, Nat.mul_mod_mul_right, htwice,
    Nat.mul_lt_mul_right hc, Nat.mul_left_inj hc.ne']

theorem roundHalfEven_mono (d : Nat) {a b : Nat} (hab : a ≤ b) :
    roundHalfEven a d ≤ roundHalfEven b d := by
  have ha := Nat.div_add_mod a d
  have hb := Nat.div_add_mod b d
  have hquot : a / d ≤ b / d := Nat.div_le_div_right hab
  have hrest : a / d = b / d → a % d ≤ b % d := by
    intro same
    rw [same] at ha
    omega
  unfold roundHalfEven
  dsimp only
  split_ifs <;> omega

section Shifted

variable {N step s : Nat}

theorem roundHalfEven_fits (hstep : 0 < step) (small : N < 2 ^ 53 * step) :
    roundHalfEven N step ≤ 2 ^ 53 := by
  by_contra hm
  have hlower := roundHalfEven_lower (a := N) hstep
  have hmul : (2 ^ 53 + 1) * step ≤ roundHalfEven N step * step :=
    Nat.mul_le_mul_right _ (by omega)
  have htwice : 2 * roundHalfEven N step * step = 2 * (roundHalfEven N step * step) := by ring
  omega

theorem roundHalfEven_normal (hstep : 0 < step) (large : 0 < s → 2 ^ 52 * step ≤ N) :
    2 ^ 52 ≤ roundHalfEven N step ∨ s = 0 := by
  by_contra hboth
  have hupper := roundHalfEven_upper (a := N) hstep
  have hmul : (roundHalfEven N step + 1) * step ≤ 2 ^ 52 * step :=
    Nat.mul_le_mul_right _ (by omega)
  have htwice : (2 * roundHalfEven N step + 1) * step + step =
      2 * ((roundHalfEven N step + 1) * step) := by ring
  have hlarge := large (by omega)
  omega

end Shifted

/-- Rounding to a multiple of `2 ^ s` gives the nearest pattern if all the numbers with
a smaller shift are too small, and those with this one go far enough. -/
theorem roundsTo_shifted {num den s : Nat} (hden : 0 < den)
    (large : 0 < s → 2 ^ 52 * (2 ^ s * den) ≤ num * unitCount)
    (small : num * unitCount < 2 ^ 53 * (2 ^ s * den)) :
    RoundsTo num den (s * 2 ^ 52 + roundHalfEven (num * unitCount) (2 ^ s * den)) := by
  generalize hN : num * unitCount = N at *
  have hstep : 0 < 2 ^ s * den := Nat.mul_pos (Nat.two_pow_pos s) hden
  have hupper := roundHalfEven_upper (a := N) hstep
  have hlower := roundHalfEven_lower (a := N) hstep
  have hfits := roundHalfEven_fits hstep small
  have hnormal := roundHalfEven_normal hstep large
  generalize roundHalfEven N (2 ^ s * den) = m at *
  have heven : (s * 2 ^ 52 + m) % 2 = m % 2 := by omega
  constructor
  · have hnext := Nat.mul_le_mul_right den (le_midway_shifted hnormal hfits)
    rw [mul_assoc] at hnext
    rw [hN, heven]
    omega
  · intro k hk
    rw [hN, heven]
    by_cases hedge : m = 2 ^ 52 ∧ 0 < s
    · -- Below a power of two the neighbour is nearer, but nothing rounds up to the power.
      left
      have hbelow : midway k < 2 * units (s * 2 ^ 52 + m) := midway_lt (by omega)
      rw [units_shifted hnormal hfits, hedge.1] at hbelow
      have hmul := Nat.mul_lt_mul_of_pos_right hbelow hden
      have hassoc : 2 * (2 ^ 52 * 2 ^ s) * den = 2 * (2 ^ 52 * (2 ^ s * den)) := by ring
      have hlarge := large hedge.2
      omega
    · have hm : 0 < m := by omega
      obtain ⟨j, rfl⟩ : ∃ j, j + 1 = m := ⟨m - 1, by omega⟩
      obtain rfl : k = s * 2 ^ 52 + j := by omega
      have hstep' : midway (s * 2 ^ 52 + j) * den + 2 ^ s * den =
          2 * (j + 1) * (2 ^ s * den) := by
        rw [midway_shifted (by omega) (by omega)]
        ring
      omega

/-! ## The nearest pattern is found -/

theorem zpow_eq_div (b : Nat) (hb : 0 < b) (e : Int) :
    (b : ℚ) ^ e = (b ^ e.toNat : Nat) / (b ^ (-e).toNat : Nat) := by
  have hne : (b : ℚ) ≠ 0 := by positivity
  rcases Int.le_total 0 e with h | h
  · obtain ⟨n, rfl⟩ := Int.eq_ofNat_of_zero_le h
    simp
  · obtain ⟨n, hn⟩ := Int.eq_ofNat_of_zero_le (Int.neg_nonneg.mpr h)
    obtain rfl : e = -(n : Int) := by omega
    simp

section Compare

variable {b : Nat} (hb : 0 < b) (x y : Nat) (e : Int)
include hb

/-- Two fractions with a power of `b` between them, compared in whole numbers. -/
theorem mul_pow_le_iff :
    x * b ^ e.toNat ≤ y * b ^ (-e).toNat ↔ (x : ℚ) * (b : ℚ) ^ e ≤ y := by
  have hpos : (0 : ℚ) < (b ^ (-e).toNat : Nat) := by positivity
  rw [zpow_eq_div b hb, ← mul_div_assoc, div_le_iff₀ hpos]
  norm_cast

theorem le_mul_pow_iff :
    y * b ^ (-e).toNat ≤ x * b ^ e.toNat ↔ (y : ℚ) ≤ x * (b : ℚ) ^ e := by
  have hpos : (0 : ℚ) < (b ^ (-e).toNat : Nat) := by positivity
  rw [zpow_eq_div b hb, ← mul_div_assoc, le_div_iff₀ hpos]
  norm_cast

end Compare

theorem unitCount_cast : (unitCount : ℚ) = 2 ^ (1074 : Int) := by
  rw [unitCount_eq rfl, Nat.cast_pow, Nat.cast_ofNat]
  exact (zpow_natCast 2 1074).symm

theorem floorLog2_spec {num den : Nat} (hnum : 0 < num) (hden : 0 < den) :
    (den : ℚ) * 2 ^ floorLog2 num den ≤ num ∧ (num : ℚ) < den * 2 ^ (floorLog2 num den + 1) := by
  have hne : (2 : ℚ) ≠ 0 := by norm_num
  have hnum₁ : (2 : ℚ) ^ (num.log2 : Int) ≤ num := by
    rw [zpow_natCast]
    exact_mod_cast Nat.log2_self_le (by omega)
  have hnum₂ : (num : ℚ) < 2 ^ ((num.log2 : Int) + 1) := by
    rw [← Nat.cast_succ, zpow_natCast]
    exact_mod_cast Nat.lt_log2_self
  have hden₁ : (2 : ℚ) ^ (den.log2 : Int) ≤ den := by
    rw [zpow_natCast]
    exact_mod_cast Nat.log2_self_le (by omega)
  have hden₂ : (den : ℚ) < 2 ^ ((den.log2 : Int) + 1) := by
    rw [← Nat.cast_succ, zpow_natCast]
    exact_mod_cast Nat.lt_log2_self
  obtain ⟨l, hl⟩ : ∃ l : Int, l = (num.log2 : Int) - den.log2 := ⟨_, rfl⟩
  have hiff := mul_pow_le_iff (b := 2) (by decide) den num l
  rw [Nat.cast_ofNat] at hiff
  simp only [floorLog2, twoPow_eq, ← hl]
  by_cases hle : den * 2 ^ l.toNat ≤ num * 2 ^ (-l).toNat
  · rw [if_pos hle]
    refine ⟨hiff.mp hle, hnum₂.trans_le ?_⟩
    calc (2 : ℚ) ^ ((num.log2 : Int) + 1) = 2 ^ (den.log2 : Int) * 2 ^ (l + 1) := by
          rw [← zpow_add₀ hne]
          congr 1
          omega
      _ ≤ den * 2 ^ (l + 1) := mul_le_mul_of_nonneg_right hden₁ (by positivity)
  · rw [if_neg hle, Int.sub_add_cancel]
    refine ⟨?_, lt_of_not_ge fun h => hle (hiff.mpr h)⟩
    calc (den : ℚ) * 2 ^ (l - 1) ≤ 2 ^ ((den.log2 : Int) + 1) * 2 ^ (l - 1) :=
          mul_le_mul_of_nonneg_right hden₂.le (by positivity)
      _ = 2 ^ (num.log2 : Int) := by
          rw [← zpow_add₀ hne]
          congr 1
          omega
      _ ≤ num := hnum₁

/-- The shift that a fraction is rounded at goes far enough, and not too far. -/
theorem shift_of_floorLog2 {num den : Nat} (hnum : 0 < num) (hden : 0 < den) {s : Nat}
    (hs : (s : Int) - 1074 = max (-1074) (floorLog2 num den - 52)) :
    (0 < s → 2 ^ 52 * (2 ^ s * den) ≤ num * unitCount) ∧
      num * unitCount < 2 ^ 53 * (2 ^ s * den) := by
  have hne : (2 : ℚ) ≠ 0 := by norm_num
  obtain ⟨hlow, hhigh⟩ := floorLog2_spec hnum hden
  have hunitPos : (0 : ℚ) < unitCount := by exact_mod_cast unitCount_pos
  have hscale : ∀ c : Nat, ((2 ^ c * (2 ^ s * den) : Nat) : ℚ) =
      den * 2 ^ ((c : Int) + s - 1074) * unitCount := by
    intro c
    rw [unitCount_cast, mul_assoc, ← zpow_add₀ hne, Int.sub_add_cancel, zpow_add₀ hne,
      zpow_natCast, zpow_natCast]
    push_cast
    ring
  constructor
  · intro hpos
    have hle : ((2 ^ 52 * (2 ^ s * den) : Nat) : ℚ) ≤ (num * unitCount : Nat) := by
      rw [hscale, Nat.cast_mul]
      refine mul_le_mul_of_nonneg_right (le_trans (le_of_eq ?_) hlow) hunitPos.le
      congr 2
      omega
    exact_mod_cast hle
  · have hlt : ((num * unitCount : Nat) : ℚ) < (2 ^ 53 * (2 ^ s * den) : Nat) := by
      rw [hscale, Nat.cast_mul]
      refine mul_lt_mul_of_pos_right (hhigh.trans_le ?_) hunitPos
      refine mul_le_mul_of_nonneg_left (zpow_le_zpow_right₀ (by norm_num) ?_) (by positivity)
      omega
    exact_mod_cast hlt

/-- What `num / den` rounds to, if that were not bounded by infinity. -/
theorem nearestBits_roundsTo {num den : Nat} (hnum : 0 < num) (hden : 0 < den) :
    ∃ n, RoundsTo num den n ∧ nearestBits num den = min (2047 * 2 ^ 52) n := by
  obtain ⟨s, hs⟩ : ∃ s : Nat, (s : Int) - 1074 = max (-1074) (floorLog2 num den - 52) :=
    ⟨(max (-1074) (floorLog2 num den - 52) + 1074).toNat, by omega⟩
  obtain ⟨large, small⟩ := shift_of_floorLog2 hnum hden hs
  refine ⟨_, roundsTo_shifted hden large small, ?_⟩
  have hround : roundHalfEven (num * 2 ^ (-((s : Int) - 1074)).toNat)
      (den * 2 ^ ((s : Int) - 1074).toNat) =
        roundHalfEven (num * unitCount) (2 ^ s * den) := by
    obtain ⟨c, hc⟩ : ∃ c, c = min s 1074 := ⟨_, rfl⟩
    rw [← roundHalfEven_scale _ _ (Nat.two_pow_pos c), mul_assoc, mul_assoc, ← pow_add,
      ← pow_add, unitCount_eq (e := (-((s : Int) - 1074)).toNat + c) (by omega), mul_comm (2 ^ s)]
    congr 3
    omega
  have hraise : ((s : Int) - 1074 + 1074).toNat = s := by omega
  have hnormal := roundHalfEven_normal (Nat.mul_pos (Nat.two_pow_pos s) hden) large
  simp only [nearestBits, ← hs, twoPow_eq, hround, hraise]
  generalize roundHalfEven (num * unitCount) (2 ^ s * den) = m at *
  split
  · have hs : s = 0 := by omega
    rw [hs]
    omega
  · rfl

end Decimal
end AdaptiveBatch
