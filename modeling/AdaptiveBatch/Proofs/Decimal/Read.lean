import AdaptiveBatch.Decimal.Shortest
import AdaptiveBatch.Proofs.Decimal.Bits

/-!
# Reading decimals

Which number a decimal is read as depends on its value only, and if it rounds to a
finite number, it is read as that one.
-/

namespace AdaptiveBatch
namespace Decimal

/-! ## Decimals by value -/

namespace Magnitude

def value (m : Magnitude) : ℚ := m.coefficient * 10 ^ m.exponent

/-- Whether a decimal rounds to a pattern. -/
def RoundsTo (m : Magnitude) (n : Nat) : Prop :=
  Decimal.RoundsTo (m.coefficient * tenPow m.exponent.toNat) (tenPow (-m.exponent).toNat) n

theorem value_eq_div (m : Magnitude) : m.value =
    (m.coefficient * tenPow m.exponent.toNat : Nat) / (tenPow (-m.exponent).toNat : Nat) := by
  have hpow := zpow_eq_div 10 (by decide) m.exponent
  rw [Nat.cast_ofNat] at hpow
  rw [value, hpow, ← mul_div_assoc, Nat.cast_mul]
  rfl

theorem RoundsTo.congr {m m' : Magnitude} {n : Nat} (h : m.RoundsTo n) (same : m'.value = m.value) :
    m'.RoundsTo n := by
  refine Decimal.RoundsTo.congr h (tenPow_pos _) (tenPow_pos _) ?_
  have hne : ∀ e : Nat, ((tenPow e : Nat) : ℚ) ≠ 0 := fun e => Nat.cast_ne_zero.mpr (tenPow_pos e).ne'
  rw [value_eq_div, value_eq_div, div_eq_div_iff (hne _) (hne _)] at same
  exact_mod_cast same

/-- Whole numbers and fractions of a power of ten. -/
theorem roundsTo_natCast (c e n : Nat) : RoundsTo ⟨c, e⟩ n = Decimal.RoundsTo (c * 10 ^ e) 1 n := by
  unfold RoundsTo
  dsimp only
  rw [Int.toNat_natCast, Int.toNat_neg_natCast]
  rfl

theorem roundsTo_neg_natCast (c e n : Nat) :
    RoundsTo ⟨c, -(e : Int)⟩ n = Decimal.RoundsTo c (10 ^ e) n := by
  unfold RoundsTo
  dsimp only
  rw [Int.toNat_neg_natCast, Int.neg_neg, Int.toNat_natCast]
  exact congrArg (Decimal.RoundsTo · (10 ^ e) n) (Nat.mul_one c)

theorem value_trim (m : Magnitude) : m.trim.value = m.value := by
  fun_induction Magnitude.trim m with
  | case1 m h ih =>
    rw [ih]
    have hten : m.coefficient = 10 * (m.coefficient / 10) := by omega
    have hcast : (m.coefficient : ℚ) = 10 * (m.coefficient / 10 : Nat) := by exact_mod_cast hten
    rw [value, value, hcast, zpow_add₀ (by norm_num), zpow_one]
    ring
  | case2 m h => rfl

end Magnitude

/-! ## Neither cut off -/

theorem units_infinity {e : Nat} (he : e = 2098) : units infinity = 2 ^ e := by
  have h := units_shifted (s := 2046) (m := 2 ^ 52) (by omega) (by omega)
  have hsum : 2046 * 2 ^ 52 + 2 ^ 52 = infinity := by
    unfold infinity
    omega
  rw [hsum, ← pow_add] at h
  rw [h, he]

theorem two_pow_le_ten_pow (e : Nat) : 2 ^ (3 * e) ≤ 10 ^ e := by
  rw [pow_mul]
  exact Nat.pow_le_pow_left (by decide) e

theorem midway_pos (n : Nat) : 0 < midway n := by
  have hless := units_strictMono (Nat.lt_succ_self n)
  unfold midway
  rw [Nat.succ_eq_add_one] at hless
  omega

theorem nearest_of_roundsTo {num den n : Nat} (hnum : 0 < num) (hden : 0 < den)
    (finite : n < infinity) (h : RoundsTo num den n) : nearest num den = number false n := by
  obtain ⟨n', hn', hbits⟩ := nearestBits_roundsTo hnum hden
  obtain rfl := hn'.unique h hden
  have hmin : nearestBits num den = n' := hbits.trans (Nat.min_eq_right finite.le)
  unfold nearest number word
  rw [if_neg hnum.ne', hmin]
  simp only [Bool.false_eq_true, if_false, Nat.zero_add]
  rfl

namespace Magnitude

variable {m : Magnitude} {c n : Nat} {e : Int}

theorem coefficient_pos (hn : 0 < n) (h : m.RoundsTo n) : 0 < m.coefficient := by
  obtain ⟨c, e⟩ := m
  obtain ⟨k, hk⟩ : ∃ k, k + 1 = n := ⟨n - 1, by omega⟩
  have hlow := h.lower k hk
  have hpos : 0 < midway k * tenPow (-e).toNat := Nat.mul_pos (midway_pos k) (tenPow_pos _)
  by_contra hc
  obtain rfl : c = 0 := Nat.eq_zero_of_not_pos hc
  simp only [Nat.zero_mul, Nat.mul_zero] at hlow
  omega

/-- What rounds to a positive number is not cut off as too small. -/
theorem not_tiny (hn : 0 < n) (h : RoundsTo ⟨c, e⟩ n) :
    ¬ (c.log2 : Int) + 3 * e < -1076 := by
  intro htiny
  obtain ⟨j, hj⟩ : ∃ j : Nat, e = -(j : Int) := ⟨(-e).toNat, by omega⟩
  obtain ⟨k, hk⟩ : ∃ k, k + 1 = n := ⟨n - 1, by omega⟩
  have hlow := h.lower k hk
  have hup : e.toNat = 0 := by omega
  have hdown : (-e).toNat = j := by omega
  simp only [hup, hdown, tenPow_eq, pow_zero, Nat.mul_one] at hlow
  have hden : 10 ^ j ≤ midway k * 10 ^ j := Nat.le_mul_of_pos_left _ (midway_pos k)
  have hnum : 2 * (c * unitCount) < 2 ^ (3 * j) := by
    have hone : 0 < 2 * unitCount := Nat.mul_pos (by decide) unitCount_pos
    calc 2 * (c * unitCount) = c * (2 * unitCount) := by ring
      _ < 2 ^ (c.log2 + 1) * (2 * unitCount) := Nat.mul_lt_mul_of_pos_right Nat.lt_log2_self hone
      _ = 2 ^ (c.log2 + 1 + (1 + 1074)) := by
        rw [unitCount_eq rfl, pow_add 2 (c.log2 + 1), pow_add 2 1, pow_one]
      _ ≤ 2 ^ (3 * j) := Nat.pow_le_pow_right (by decide) (by omega)
  have hten := two_pow_le_ten_pow j
  omega

/-- What rounds to a finite number is below `10 ^ 309`. -/
theorem exponent_le (hn : 0 < n) (finite : n < infinity) (h : m.RoundsTo n) :
    m.exponent ≤ 308 := by
  have hc := coefficient_pos hn h
  obtain ⟨c, e⟩ := m
  dsimp only at hc ⊢
  by_contra hhuge
  obtain ⟨j, rfl⟩ : ∃ j : Nat, e = j := ⟨e.toNat, by omega⟩
  rw [roundsTo_natCast] at h
  have hup := h.upper
  rw [Nat.mul_one] at hup
  obtain ⟨top, htop⟩ : ∃ top : Nat, top = 1024 := ⟨_, rfl⟩
  obtain ⟨least, hleast⟩ : ∃ least : Nat, least = 309 := ⟨_, rfl⟩
  have hmid : midway n ≤ 2 * (2 ^ top * unitCount) := by
    have hthis := units_strictMono.monotone finite.le
    have hnext := units_strictMono.monotone (show n + 1 ≤ infinity from finite)
    rw [units_infinity rfl] at hthis hnext
    rw [unitCount_eq rfl, ← pow_add, htop]
    unfold midway
    omega
  have hpow : 2 ^ top < 10 ^ least := by
    subst htop hleast
    decide +kernel
  have hnum : 2 ^ top * unitCount < c * 10 ^ j * unitCount := by
    refine Nat.mul_lt_mul_of_pos_right (hpow.trans_le ?_) unitCount_pos
    exact (Nat.pow_le_pow_right (by decide) (by omega)).trans (Nat.le_mul_of_pos_left _ hc)
  omega

end Magnitude

/-- What rounds to a finite pattern is read as its number. -/
theorem ofScientific_of_roundsTo {negative : Bool} {c : Nat} {e : Int} {n : Nat}
    (hn : 0 < n) (finite : n < infinity) (h : Magnitude.RoundsTo ⟨c, e⟩ n) :
    ofScientific negative c e = number negative n := by
  have hc := Magnitude.coefficient_pos hn h
  have hnum : 0 < c * tenPow e.toNat := Nat.mul_pos hc (tenPow_pos _)
  have htiny := Magnitude.not_tiny hn h
  have hsmall : e ≤ 308 := Magnitude.exponent_le hn finite h
  unfold ofScientific
  rw [if_neg (not_or.mpr ⟨hc.ne', htiny⟩), if_neg (by omega),
    nearest_of_roundsTo hnum (tenPow_pos _) finite h, signed_number finite]

end Decimal
end AdaptiveBatch
