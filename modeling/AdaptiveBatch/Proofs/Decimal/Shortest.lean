import AdaptiveBatch.Proofs.Decimal.Digits
import AdaptiveBatch.Proofs.Decimal.Read

/-!
# The shortest decimal rounds back

The interval around a pattern holds nothing but fractions that round to it.  As soon
as one step of a decimal grid is shorter than the interval, one of the two decimals
around the number is in it, and with seventeen digits that is always so.
-/

namespace AdaptiveBatch
namespace Decimal

/-! ## The interval of a pattern -/

/-- A pattern with a sign, as significand and exponent. -/
def binary (negative : Bool) (n : Nat) : Binary :=
  ⟨negative, significand n, (shift n : Int) - 1074⟩

/-- How far below the number its interval begins, in quarters of the last place. -/
def quartersBelow (n : Nat) : Nat := if significand n = 2 ^ 52 ∧ 0 < shift n then 1 else 2

theorem midway_eq (n : Nat) : 2 * midway n = (4 * significand n + 2) * 2 ^ shift n := by
  unfold midway
  rw [units_succ, units]
  ring

theorem midway_pred {n k : Nat} (hk : k + 1 = n) :
    2 * midway k = (4 * significand n - quartersBelow n) * 2 ^ shift n := by
  have hn := pattern_eq n
  have hlt := significand_lt n
  have hnormal := normal_or_unshifted n
  have hpos : 0 < significand n := significand_pos (by omega)
  unfold quartersBelow
  by_cases hedge : significand n = 2 ^ 52 ∧ 0 < shift n
  · obtain ⟨s, hs⟩ : ∃ s, shift n = s + 1 := ⟨shift n - 1, by omega⟩
    have hk' : k = s * 2 ^ 52 + (2 ^ 53 - 1) := by omega
    rw [if_pos hedge, hk', midway_shifted (by omega) (by omega), hedge.1, hs, pow_succ]
    omega
  · obtain ⟨m, hm⟩ : ∃ m, significand n = m + 1 := ⟨significand n - 1, by omega⟩
    have hk' : k = shift n * 2 ^ 52 + m := by omega
    have hquarters : 4 * (m + 1) - 2 = 4 * m + 2 := by omega
    rw [if_neg hedge, hk', midway_shifted (by omega) (by omega), hm, hquarters]
    ring

section Interval

variable {negative : Bool} {n : Nat}

theorem ofBinary_eq : Rounding.ofBinary (binary negative n) =
    { low := (4 * significand n - quartersBelow n) * 2 ^ ((shift n : Int) - 1074).toNat
      mid := 4 * significand n * 2 ^ ((shift n : Int) - 1074).toNat
      high := (4 * significand n + 2) * 2 ^ ((shift n : Int) - 1074).toNat
      den := 4 * 2 ^ (-((shift n : Int) - 1074)).toNat
      closed := significand n % 2 = 0 } := by
  have hiff : (significand n = twoPow 52 ∧ -1074 < (shift n : Int) - 1074) ↔
      significand n = 2 ^ 52 ∧ 0 < shift n := by
    rw [twoPow_eq]
    constructor <;> rintro ⟨h, h'⟩ <;> exact ⟨h, by omega⟩
  have hbelow : (if significand n = twoPow 52 ∧ -1074 < (shift n : Int) - 1074 then 1 else 2) =
      quartersBelow n := if_congr hiff rfl rfl
  unfold Rounding.ofBinary binary
  dsimp only
  rw [hbelow]
  rfl

theorem unit_scale (s : Nat) :
    2 ^ ((s : Int) - 1074).toNat * unitCount = 2 ^ s * 2 ^ (-((s : Int) - 1074)).toNat := by
  rw [unitCount_eq rfl, ← pow_add, ← pow_add]
  congr 1
  omega

section Quarters

variable (s q a d : Nat)

theorem quarters_scale : q * 2 ^ ((s : Int) - 1074).toNat * d * unitCount =
    q * 2 ^ s * d * 2 ^ (-((s : Int) - 1074)).toNat := by
  have hscale := unit_scale s
  generalize 2 ^ ((s : Int) - 1074).toNat = unit at *
  calc q * unit * d * unitCount = q * d * (unit * unitCount) := by ring
    _ = q * 2 ^ s * d * 2 ^ (-((s : Int) - 1074)).toNat := by rw [hscale]; ring

theorem whole_scale : a * (4 * 2 ^ (-((s : Int) - 1074)).toNat) * unitCount =
    4 * (a * unitCount) * 2 ^ (-((s : Int) - 1074)).toNat := by
  ring

theorem quarters_le_iff : q * 2 ^ ((s : Int) - 1074).toNat * d ≤
    a * (4 * 2 ^ (-((s : Int) - 1074)).toNat) ↔ q * 2 ^ s * d ≤ 4 * (a * unitCount) := by
  rw [← Nat.mul_le_mul_right_iff unitCount_pos, quarters_scale, whole_scale,
    Nat.mul_le_mul_right_iff (Nat.two_pow_pos _)]

theorem le_quarters_iff : a * (4 * 2 ^ (-((s : Int) - 1074)).toNat) ≤
    q * 2 ^ ((s : Int) - 1074).toNat * d ↔ 4 * (a * unitCount) ≤ q * 2 ^ s * d := by
  rw [← Nat.mul_le_mul_right_iff unitCount_pos, quarters_scale, whole_scale,
    Nat.mul_le_mul_right_iff (Nat.two_pow_pos _)]

end Quarters

/-- A decimal in the interval of a pattern rounds to it. -/
theorem roundsTo_of_contains {a d : Nat}
    (h : (Rounding.ofBinary (binary negative n)).contains a d = true) : RoundsTo a d n := by
  rw [ofBinary_eq] at h
  have hparity : n % 2 = significand n % 2 := by
    have := pattern_eq n
    omega
  have hup := midway_eq n
  have hlow : ∀ k, k + 1 = n →
      2 * midway k = (4 * significand n - quartersBelow n) * 2 ^ shift n := fun k => midway_pred
  have htwice : ∀ k, 2 * midway k * d = 2 * (midway k * d) := fun k => by ring
  simp only [Rounding.contains, decide_eq_true_eq] at h
  by_cases heven : significand n % 2 = 0
  · simp only [heven, if_true, Bool.and_eq_true, decide_eq_true_eq, quarters_le_iff,
      le_quarters_iff, ← hup] at h
    constructor
    · have := htwice n
      omega
    · intro k hk
      rw [← hlow k hk] at h
      have := htwice k
      omega
  · simp only [heven, if_false, Bool.and_eq_true, decide_eq_true_eq, ← Nat.not_le, quarters_le_iff,
      le_quarters_iff, ← hup] at h
    constructor
    · have := htwice n
      omega
    · intro k hk
      rw [← hlow k hk] at h
      have := htwice k
      omega

end Interval

/-! ## The search -/

section Search

variable {r : Rounding} {tie : Tie} {top : Int} {count : Nat} {m : Magnitude}

theorem contains_of_onGrid? (h : r.onGrid? tie top count = some m) :
    m.exponent = top - ((count : Int) - 1) ∧
      r.contains (m.coefficient * tenPow m.exponent.toNat) (tenPow (-m.exponent).toNat) = true := by
  simp only [Rounding.onGrid?] at h
  split at h
  · rename_i hboth
    rw [Bool.and_eq_true] at hboth
    cases h
    refine ⟨rfl, ?_⟩
    dsimp only
    split
    · exact hboth.2
    · exact hboth.1
  · split at h
    · cases h
      exact ⟨rfl, ‹_›⟩
    · split at h
      · cases h
        exact ⟨rfl, ‹_›⟩
      · cases h

/-- If there is no decimal of a grid in the interval, its step is not shorter than the
interval: one decimal next to the number is below, and the other one above. -/
theorem le_step_of_onGrid?_eq_none (inside : r.low < r.mid ∧ r.mid < r.high) (hden : 0 < r.den)
    (h : r.onGrid? tie top count = none) :
    ((r.high - r.low : Nat) : ℚ) ≤ r.den * 10 ^ (top - ((count : Int) - 1)) := by
  obtain ⟨k, hk⟩ : ∃ k, k = top - ((count : Int) - 1) := ⟨_, rfl⟩
  have hiff := le_mul_pow_iff (b := 10) (by decide) r.den (r.high - r.low) k
  rw [Nat.cast_ofNat] at hiff
  rw [← hk, ← hiff]
  simp only [Rounding.onGrid?, ← hk, tenPow_eq] at h
  have hup : 0 < 10 ^ (-k).toNat := by positivity
  have hstep : 0 < r.den * 10 ^ k.toNat := by positivity
  generalize 10 ^ (-k).toNat = up at *
  generalize 10 ^ k.toNat = down at *
  obtain ⟨d, hd⟩ : ∃ d, d = r.mid * up / (r.den * down) := ⟨_, rfl⟩
  have hbelow : d * (r.den * down) ≤ r.mid * up := by
    rw [hd]
    exact Nat.div_mul_le_self _ _
  have habove : r.mid * up < (d + 1) * (r.den * down) := by
    rw [hd, mul_comm (_ + 1)]
    exact Nat.lt_mul_div_succ _ hstep
  have hlow : r.low * up < r.mid * up := Nat.mul_lt_mul_of_pos_right inside.1 hup
  have hhigh : r.mid * up < r.high * up := Nat.mul_lt_mul_of_pos_right inside.2 hup
  rw [← hd] at h
  have hgrid : ∀ c, c * down * r.den = c * (r.den * down) := fun c => by ring
  have hneither : r.contains (d * down) up = false ∧ r.contains ((d + 1) * down) up = false := by
    cases hl : r.contains (d * down) up <;> cases hu : r.contains ((d + 1) * down) up <;>
      simp [hl, hu] at h ⊢
  have hnext : (d + 1) * (r.den * down) = d * (r.den * down) + r.den * down := by ring
  simp only [Rounding.contains, hgrid] at hneither
  rw [Nat.sub_mul]
  split at hneither <;> simp at hneither <;> omega

/-- If a grid further on has a decimal in the interval, the search ends with the first
one that has. -/
theorem search_finds (count left : Nat) (h : r.onGrid? tie top (count + left) ≠ none) :
    ∃ c, count ≤ c ∧ c ≤ count + left ∧
      r.onGrid? tie top c = some (r.search tie top (left + 1) count) ∧
      (c = count ∨ ∃ b, b + 1 = c ∧ r.onGrid? tie top b = none) := by
  induction left generalizing count with
  | zero =>
    obtain ⟨m, hm⟩ := Option.ne_none_iff_exists'.mp h
    rw [Nat.add_zero] at hm
    refine ⟨count, le_refl _, le_refl _, ?_, Or.inl rfl⟩
    simp only [Rounding.search, hm]
  | succ left ih =>
    cases hg : r.onGrid? tie top count with
    | some m =>
      refine ⟨count, le_refl _, by omega, ?_, Or.inl rfl⟩
      rw [Rounding.search, hg]
    | none =>
      have hrest : r.search tie top (left + 1 + 1) count = r.search tie top (left + 1) (count + 1) := by
        rw [Rounding.search, hg]
      obtain ⟨c, hle, hlast, hfound, hfirst⟩ :=
        ih (count + 1) (by rwa [Nat.add_right_comm, Nat.add_assoc])
      refine ⟨c, by omega, by omega, by rw [hrest, hfound], Or.inr ?_⟩
      rcases hfirst with rfl | hfirst
      · exact ⟨count, rfl, hg⟩
      · exact hfirst

end Search

/-! ## The exponent of the first digit -/

theorem floorLog10_spec {num den : Nat} (hnum : 0 < num) (hden : 0 < den) :
    (den : ℚ) * 10 ^ floorLog10 num den ≤ num ∧ (num : ℚ) < den * 10 ^ (floorLog10 num den + 1) := by
  unfold floorLog10
  by_cases hle : den ≤ num
  · have hq : 0 < num / den := Nat.div_pos hle hden
    have hlow := pow_digits_length_le hq
    have hhigh := lt_pow_digits_length (num / den)
    obtain ⟨l, hl⟩ : ∃ l, (digits (num / den)).length = l + 1 :=
      ⟨_, (Nat.succ_pred_eq_of_pos (digits_length_pos _)).symm⟩
    rw [hl] at hlow hhigh
    rw [if_pos hle, hl]
    have hl' : ((l + 1 : Nat) : Int) - 1 = l := by omega
    rw [hl', ← Nat.cast_succ, zpow_natCast, zpow_natCast]
    constructor
    · exact_mod_cast (Nat.mul_le_mul_left den hlow).trans (Nat.mul_div_le num den)
    · exact_mod_cast (Nat.lt_mul_div_succ num hden).trans_le (Nat.mul_le_mul_left den hhigh)
  · have hq : 0 < (den - 1) / num := Nat.div_pos (by omega) hnum
    have hlow := pow_digits_length_le hq
    have hhigh := lt_pow_digits_length ((den - 1) / num)
    obtain ⟨l, hl⟩ : ∃ l, (digits ((den - 1) / num)).length = l + 1 :=
      ⟨_, (Nat.succ_pred_eq_of_pos (digits_length_pos _)).symm⟩
    rw [hl] at hlow hhigh
    rw [if_neg hle, hl]
    have hl' : -((l + 1 : Nat) : Int) + 1 = -(l : Int) := by omega
    rw [hl', zpow_neg, zpow_neg, zpow_natCast, zpow_natCast, ← div_eq_mul_inv, ← div_eq_mul_inv,
      div_le_iff₀ (by positivity), lt_div_iff₀ (by positivity)]
    constructor
    · have hless := Nat.lt_mul_div_succ (den - 1) hnum
      have hnext := Nat.mul_le_mul_left num hhigh
      have hgoal : den ≤ num * 10 ^ (l + 1) := by
        rw [Nat.succ_eq_add_one] at hnext
        omega
      exact_mod_cast hgoal
    · have hless := (Nat.mul_le_mul_left num hlow).trans (Nat.mul_div_le (den - 1) num)
      rw [Nat.add_sub_cancel] at hless
      have hgoal : num * 10 ^ l < den := by omega
      exact_mod_cast hgoal

/-! ## Seventeen digits -/

section Seventeen

variable {negative : Bool} {n : Nat}

theorem ofBinary_den_pos (negative : Bool) (n : Nat) : 0 < (Rounding.ofBinary (binary negative n)).den := by
  rw [ofBinary_eq]
  exact Nat.mul_pos (by decide) (Nat.two_pow_pos _)

theorem ofBinary_mid_pos (negative : Bool) {n : Nat} (hn : 0 < n) : 0 < (Rounding.ofBinary (binary negative n)).mid := by
  have hpos := significand_pos hn
  rw [ofBinary_eq]
  exact Nat.mul_pos (by omega) (Nat.two_pow_pos _)

theorem quartersBelow_cases (n : Nat) :
    quartersBelow n = 1 ∧ significand n = 2 ^ 52 ∨ quartersBelow n = 2 := by
  unfold quartersBelow
  split
  · exact Or.inl ⟨rfl, (‹_ ∧ _›).1⟩
  · exact Or.inr rfl

theorem ofBinary_inside (hn : 0 < n) :
    (Rounding.ofBinary (binary negative n)).low < (Rounding.ofBinary (binary negative n)).mid ∧
      (Rounding.ofBinary (binary negative n)).mid <
        (Rounding.ofBinary (binary negative n)).high := by
  have hpos := significand_pos hn
  have hbelow := quartersBelow_cases n
  rw [ofBinary_eq]
  exact ⟨Nat.mul_lt_mul_of_pos_right (by omega) (Nat.two_pow_pos _),
    Nat.mul_lt_mul_of_pos_right (by omega) (Nat.two_pow_pos _)⟩

/-- How long the interval is. -/
theorem ofBinary_length (hn : 0 < n) :
    (Rounding.ofBinary (binary negative n)).high - (Rounding.ofBinary (binary negative n)).low =
      (2 + quartersBelow n) * 2 ^ ((shift n : Int) - 1074).toNat := by
  have hpos := significand_pos hn
  have hbelow := quartersBelow_cases n
  rw [ofBinary_eq, ← Nat.sub_mul]
  congr 1
  omega

/-- A seventeenth digit counts for less than the interval is long. -/
theorem onGrid?_seventeen (negative : Bool) {n : Nat} (hn : 0 < n) (tie : Tie) :
    (Rounding.ofBinary (binary negative n)).onGrid? tie
      (floorLog10 (Rounding.ofBinary (binary negative n)).mid
        (Rounding.ofBinary (binary negative n)).den) 17 ≠ none := by
  intro h
  have hstep := le_step_of_onGrid?_eq_none (ofBinary_inside hn) (ofBinary_den_pos _ _) h
  have htop := (floorLog10_spec (ofBinary_mid_pos negative hn)
    (ofBinary_den_pos negative n)).1
  have hbelow := quartersBelow_cases n
  have hlt := significand_lt n
  have hmid : (Rounding.ofBinary (binary negative n)).mid =
      4 * significand n * 2 ^ ((shift n : Int) - 1074).toNat := by rw [ofBinary_eq]
  generalize floorLog10 _ _ = top at *
  rw [ofBinary_length hn] at hstep
  rw [hmid] at htop
  have hunit : (0 : ℚ) < (2 ^ ((shift n : Int) - 1074).toNat : Nat) := by positivity
  generalize 2 ^ ((shift n : Int) - 1074).toNat = unit at *
  have hexponent : top - ((17 : Nat) - 1 : Int) = top - 16 := by omega
  rw [hexponent, zpow_sub₀ (by norm_num), ← mul_div_assoc, le_div_iff₀ (by positivity)] at hstep
  have hall : (((2 + quartersBelow n) * 10 ^ 16 : Nat) : ℚ) * unit ≤ (4 * significand n : Nat) * unit := by
    refine le_trans (le_of_eq ?_) (hstep.trans (htop.trans (le_of_eq ?_)))
    · push_cast
      ring
    · push_cast
      ring
  have hdigits : (2 + quartersBelow n) * 10 ^ 16 ≤ 4 * significand n := by
    exact_mod_cast le_of_mul_le_mul_right hall hunit
  omega

end Seventeen

/-! ## How long the decimal is -/

/-- A decimal with `count` digits next to a number that has no more digits in front. -/
theorem coefficient_le_of_onGrid? {r : Rounding} {tie : Tie} {top : Int} {count : Nat}
    {m : Magnitude} (hden : 0 < r.den) (htop : (r.mid : ℚ) < r.den * 10 ^ (top + 1))
    (h : r.onGrid? tie top count = some m) : m.coefficient ≤ 10 ^ count := by
  obtain ⟨k, hk⟩ : ∃ k, k = top - ((count : Int) - 1) := ⟨_, rfl⟩
  obtain ⟨d, hd⟩ : ∃ d, d = r.mid * tenPow (-k).toNat / (r.den * tenPow k.toNat) := ⟨_, rfl⟩
  have hm : m.coefficient ≤ d + 1 := by
    simp only [Rounding.onGrid?, ← hk, ← hd] at h
    split at h
    · cases h
      dsimp only
      split <;> omega
    · split at h
      · cases h
        exact Nat.le_succ d
      · split at h
        · cases h
          exact le_rfl
        · cases h
  have hbelow : d * r.den * 10 ^ k.toNat ≤ r.mid * 10 ^ (-k).toNat := by
    rw [mul_assoc, hd]
    exact Nat.div_mul_le_self _ _
  have hiff := mul_pow_le_iff (b := 10) (by decide) (d * r.den) r.mid k
  rw [Nat.cast_ofNat] at hiff
  have hden' : (0 : ℚ) < r.den := by exact_mod_cast hden
  have hsplit : (10 : ℚ) ^ (top + 1) = 10 ^ count * 10 ^ k := by
    rw [← zpow_natCast, ← zpow_add₀ (by norm_num)]
    congr 1
    omega
  have hlt : (d : ℚ) < 10 ^ count := by
    have hchain := (hiff.mp hbelow).trans_lt htop
    rw [hsplit] at hchain
    have hpos : (0 : ℚ) < r.den * 10 ^ k := by positivity
    refine lt_of_mul_lt_mul_right ?_ hpos.le
    push_cast at hchain
    linarith
  have hd' : d < 10 ^ count := by exact_mod_cast hlt
  omega

theorem trim_le (m : Magnitude) :
    m.trim.coefficient ≤ m.coefficient ∧ m.exponent ≤ m.trim.exponent := by
  fun_induction Magnitude.trim m with
  | case1 m h ih =>
    dsimp only at ih
    omega
  | case2 m h => exact ⟨le_rfl, le_rfl⟩

section Length

variable {negative : Bool} {n : Nat}

theorem ofBinary_mid_eq : (Rounding.ofBinary (binary negative n)).mid =
    4 * significand n * 2 ^ ((shift n : Int) - 1074).toNat := by rw [ofBinary_eq]

/-- A power of ten that is not short against the interval is not short against the least
positive number. -/
theorem three_le_of_step {q : Nat} (hq : 3 ≤ q) {power : ℚ} (hpower : 0 ≤ power)
    (h : ((q * 2 ^ ((shift n : Int) - 1074).toNat : Nat) : ℚ) ≤
      (Rounding.ofBinary (binary negative n)).den * power) :
    3 ≤ 4 * unitCount * power := by
  have hden : (Rounding.ofBinary (binary negative n)).den =
      4 * 2 ^ (-((shift n : Int) - 1074)).toNat := by rw [ofBinary_eq]
  have hscale := unit_scale (shift n)
  have hunit : 0 < 2 ^ ((shift n : Int) - 1074).toNat := by positivity
  rw [hden] at h
  generalize 2 ^ ((shift n : Int) - 1074).toNat = unit at *
  generalize 2 ^ (-((shift n : Int) - 1074)).toNat = den at *
  have hle : den ≤ unitCount * unit := by
    rw [Nat.mul_comm, hscale]
    exact Nat.le_mul_of_pos_left _ (Nat.two_pow_pos _)
  have hle' : (den : ℚ) ≤ unitCount * unit := by exact_mod_cast hle
  have hunit' : (0 : ℚ) < unit := by exact_mod_cast hunit
  have hscaled := mul_le_mul_of_nonneg_right hle' hpower
  have hq' : (3 : ℚ) * unit ≤ q * unit :=
    mul_le_mul_of_nonneg_right (by exact_mod_cast hq) hunit'.le
  push_cast at h
  refine le_of_mul_le_mul_right ?_ hunit'
  linarith

theorem three_le_of_top (hn : 0 < n) {top : Int}
    (htop : ((Rounding.ofBinary (binary negative n)).mid : ℚ) <
      (Rounding.ofBinary (binary negative n)).den * 10 ^ (top + 1)) :
    (3 : ℚ) ≤ 4 * unitCount * 10 ^ (top + 1) := by
  have hpos := significand_pos hn
  rw [ofBinary_mid_eq] at htop
  exact three_le_of_step (by omega) (by positivity) htop.le

theorem three_le_quarters (n : Nat) : 3 ≤ 2 + quartersBelow n := by
  have hbelow := quartersBelow_cases n
  omega

theorem three_le_of_none (hn : 0 < n) {tie : Tie} {top : Int} {count : Nat}
    (h : (Rounding.ofBinary (binary negative n)).onGrid? tie top count = none) :
    (3 : ℚ) ≤ 4 * unitCount * 10 ^ (top - ((count : Int) - 1)) := by
  have hstep := le_step_of_onGrid?_eq_none (ofBinary_inside hn) (ofBinary_den_pos _ _) h
  rw [ofBinary_length hn] at hstep
  exact three_le_of_step (three_le_quarters n) (by positivity) hstep

theorem lt_of_three_le {e : Int} (h : (3 : ℚ) ≤ 4 * unitCount * 10 ^ e) : -324 < e := by
  by_contra hless
  obtain ⟨least, hleast⟩ : ∃ least : Nat, least = 324 := ⟨_, rfl⟩
  obtain ⟨f, hf⟩ : ∃ f : Nat, f = 1074 := ⟨_, rfl⟩
  have hpow : (10 : ℚ) ^ e ≤ 10 ^ (-(least : Int)) :=
    zpow_le_zpow_right₀ (by norm_num) (by omega)
  have hnat : 4 * 2 ^ f < 3 * 10 ^ least := by
    subst hleast hf
    decide +kernel
  have hcast : (4 * unitCount : ℚ) < 3 * 10 ^ least := by
    rw [unitCount_eq hf]
    exact_mod_cast hnat
  have hten : (0 : ℚ) < 10 ^ least := by positivity
  have hscaled := mul_le_mul_of_nonneg_left hpow (by positivity : (0 : ℚ) ≤ 4 * unitCount)
  rw [zpow_neg, zpow_natCast, ← div_eq_mul_inv] at hscaled
  have hthree := h.trans hscaled
  rw [le_div_iff₀ hten] at hthree
  linarith

theorem exponent_of_first (hn : 0 < n) {tie : Tie} {top : Int} {c : Nat}
    (htop : ((Rounding.ofBinary (binary negative n)).mid : ℚ) <
      (Rounding.ofBinary (binary negative n)).den * 10 ^ (top + 1))
    (hfirst : c = 1 ∨
      ∃ b, b + 1 = c ∧ (Rounding.ofBinary (binary negative n)).onGrid? tie top b = none) :
    -324 ≤ top - ((c : Int) - 1) := by
  rcases hfirst with hone | ⟨b, hb, hnone⟩
  · have hless := lt_of_three_le (three_le_of_top hn htop)
    omega
  · have hless := lt_of_three_le (three_le_of_none hn hnone)
    omega

theorem shortest_eq (hn : 0 < n) (tie : Tie) : shortest tie (binary negative n) =
    ((Rounding.ofBinary (binary negative n)).search tie
      (floorLog10 (Rounding.ofBinary (binary negative n)).mid
        (Rounding.ofBinary (binary negative n)).den) 17 1).trim := by
  unfold shortest
  rw [if_neg (show (binary negative n).significand ≠ 0 from (significand_pos hn).ne')]

/-- A shortest decimal has at most seventeen digits, and no place beyond the first one of
the least positive number. -/
theorem shortest_length (negative : Bool) {n : Nat} (hn : 0 < n) (tie : Tie) :
    (shortest tie (binary negative n)).coefficient ≤ 10 ^ 17 ∧
      -324 ≤ (shortest tie (binary negative n)).exponent := by
  have htop := (floorLog10_spec (ofBinary_mid_pos negative hn)
    (ofBinary_den_pos negative n)).2
  obtain ⟨c, -, hlast, hfound, hfirst⟩ := search_finds 1 16
    (onGrid?_seventeen negative hn tie)
  have hcoefficient := coefficient_le_of_onGrid? (ofBinary_den_pos _ _) htop hfound
  have hexponent := (contains_of_onGrid? hfound).1
  have hlow := exponent_of_first hn htop hfirst
  have hcount : c ≤ 17 := hlast
  rw [shortest_eq hn]
  refine ⟨(trim_le _).1.trans (hcoefficient.trans (Nat.pow_le_pow_right (by decide) hcount)), ?_⟩
  exact hlow.trans (hexponent.ge.trans (trim_le _).2)

end Length

/-- The sign is left aside. -/
theorem shortest_sign (tie : Tie) (negative : Bool) (n : Nat) :
    shortest tie (binary negative n) = shortest tie (binary false n) := by
  by_cases hn : 0 < n
  · rw [shortest_eq hn, shortest_eq hn, ofBinary_eq, ofBinary_eq]
  · obtain rfl : n = 0 := Nat.eq_zero_of_not_pos hn
    rfl

/-- The decimal found for a pattern rounds to it. -/
theorem shortest_roundsTo (negative : Bool) {n : Nat} (hn : 0 < n) (tie : Tie) :
    (shortest tie (binary negative n)).RoundsTo n := by
  obtain ⟨c, -, -, hfound, -⟩ := search_finds 1 16
    (onGrid?_seventeen negative hn tie)
  rw [shortest_eq hn]
  refine Magnitude.RoundsTo.congr ?_ (Magnitude.value_trim _)
  exact roundsTo_of_contains (contains_of_onGrid? hfound).2

end Decimal
end AdaptiveBatch
