import AdaptiveBatch.Decimal.Instance
import AdaptiveBatch.Proofs.Decimal.Whole

/-!
# Counts as numbers

A count is made a number by way of its word if that is short enough, and as a decimal if
not.  Either way it is rounded to a positive pattern, or to infinity, unless it is zero.
-/

namespace AdaptiveBatch
namespace Decimal

open Float.Model Float.Model.UnpackedFloat

/-- What is more than half of the least positive number is not rounded to zero. -/
theorem RoundsTo.pos {num den n : Nat} (h : RoundsTo num den n)
    (large : den < 2 * (num * unitCount)) : 0 < n := by
  refine h.lt_of_lt ?_
  have hfirst : midway 0 = 1 := by decide
  rw [hfirst, Nat.one_mul]
  exact large

theorem RoundsTo.pos_of_whole {w n : Nat} (h : RoundsTo w 1 n) (hw : 0 < w) : 0 < n := by
  refine h.pos ?_
  have hunits := Nat.mul_pos hw unitCount_pos
  omega

/-- A whole number with zeros behind its point, 53 digits of it at least. -/
theorem pack_whole {w places : Nat} (long : 52 ≤ (w * 2 ^ places).log2) :
    ∃ n, RoundsTo w 1 n ∧ UnpackedFloat.pack Format.binary64
      (roundWithAccuracy Format.binary64 (signOf false) (w * 2 ^ places) (-(places : Int)) .exact) =
        word false (min infinity n) := by
  have value : ∀ s k : Nat, -(places : Int) + k = (s : Int) - 1074 →
      w * 2 ^ places * (2 ^ s * 1) = w * unitCount * (1 * 2 ^ k) := by
    intro s k hk
    have hexponent : places + s = k + 1074 := by omega
    calc w * 2 ^ places * (2 ^ s * 1) = w * 2 ^ (places + s) := by rw [pow_add]; ring
      _ = w * (2 ^ k * unitCount) := by rw [two_pow_mul_unitCount hexponent]
      _ = w * unitCount * (1 * 2 ^ k) := by ring
  have hlong := long
  rw [← Nat.div_one (w * 2 ^ places)] at hlong
  have hpack := pack_roundWithAccuracy false (extends_exact _) Nat.one_pos Nat.one_pos
    (Or.inl hlong) value
  rwa [Nat.div_one] at hpack

/-- A word becomes the number nearest to it. -/
theorem toFloat_word {w : UInt64} (hw : 0 < w.toNat) (short : w.toNat < 2 ^ 53) :
    ∃ n, RoundsTo w.toNat 1 n ∧ w.toFloat = number false (min infinity n) := by
  have hlog : w.toNat.log2 < 53 := (Nat.log2_lt hw.ne').mpr short
  obtain ⟨places, hplaces⟩ : ∃ places, places = 52 - w.toNat.log2 := ⟨_, rfl⟩
  have hlong : 52 ≤ (w.toNat * 2 ^ places).log2 := by
    refine le_log2_of_le ?_
    calc 2 ^ 52 = 2 ^ w.toNat.log2 * 2 ^ places := by rw [← pow_add]; congr 1; omega
      _ ≤ w.toNat * 2 ^ places := Nat.mul_le_mul_right _ (Nat.log2_self_le hw.ne')
  obtain ⟨n, hn, hpack⟩ := pack_whole hlong
  refine ⟨n, hn, eq_number_of_pack rfl ?_⟩
  have hround : UnpackedFloat.ofUInt64 Format.binary64 w =
      roundWithAccuracy Format.binary64 (signOf false) (w.toNat * 2 ^ places) (-(places : Int))
        .exact := by
    have hshift : ((0 : Int) - max ((w.toNat.log2 : Int) + 0 - 52) (-1074)).toNat = places := by
      omega
    unfold UnpackedFloat.ofUInt64 UnpackedFloat.ofNat UnpackedFloat.ofInt UnpackedFloat.normalize
    rw [Int.compare_eq_gt.mpr (by omega)]
    unfold UnpackedFloat.round decreaseExponent
    dsimp only
    rw [Int.toNat_natCast, targetExponent_eq, hshift, Nat.shiftLeft_eq, Int.zero_sub]
    rfl
  rw [hround, hpack]

theorem min_pos {n : Nat} (hn : 0 < n) : 0 < min infinity n := lt_min (by decide) hn

/-- The pattern of one. -/
def one : Nat := 1023 * 2 ^ 52

theorem units_pattern_one : units one = unitCount := by
  obtain ⟨e, he⟩ : ∃ e, e = 1022 := ⟨_, rfl⟩
  have hshifted : one = e * 2 ^ 52 + 2 ^ 52 := by
    subst he
    decide
  rw [hshifted, units_shifted (Or.inl le_rfl) (by decide), ← pow_add]
  exact (unitCount_eq (by omega)).symm

theorem ofScientific_zero_eq (w : Nat) : Float.ofNat w = Float.ofScientific w false 0 := rfl

theorem powerOfTen_zero : Float.exactlyRepresentablePowersOfTen[0] = number false one :=
  eq_of_toBits (by decide)

/-- A count with no more digits than the pattern has is read as a word, times one. -/
theorem exists_ofNat_short {w : Nat} (hw : 0 < w) (short : w < 2 ^ 53) :
    ∃ n, 0 < n ∧ n ≤ infinity ∧ Float.ofNat w = number false n := by
  have hword : w.toUInt64.toNat = w := Nat.mod_eq_of_lt (short.trans (by decide))
  obtain ⟨p, hp, hfloat⟩ := toFloat_word (w := w.toUInt64) (by omega) (by omega)
  obtain ⟨q, hq⟩ := exists_rounds (e := 16) (by decide) hw (short.le.trans (by decide))
  rw [hword] at hp
  obtain rfl : p = q := hp.unique hq.nearest Nat.one_pos
  rw [Nat.min_eq_right hq.finite.le] at hfloat
  -- the factor of one is a product all the same, which is rounded once more
  obtain ⟨n, hn, hmul⟩ := mul_number (b := one) ⟨hq.pos, hq.finite⟩ (by decide)
  have hlarge : unitCount * unitCount < 2 * (units p * units one * unitCount) := by
    have hpos := Nat.mul_pos unitCount_pos unitCount_pos
    have hunits := Nat.le_mul_of_pos_left (unitCount * unitCount) (units_pos hq.pos)
    rw [units_pattern_one, Nat.mul_assoc]
    omega
  refine ⟨min infinity n, min_pos (hn.pos hlarge), min_le_left _ _, ?_⟩
  rw [ofScientific_zero_eq, Float.ofScientific, dif_pos ⟨short, by decide⟩, ← hmul, ← hfloat,
    ← powerOfTen_zero]
  rfl

theorem mul_finite {m k : Nat} (e f : Int) (hm : 0 < m) (hk : 0 < k) :
    UnpackedFloat.mul Format.binary64 (.finite .positive m e hm) (.finite .positive k f hk) =
      roundWithAccuracy Format.binary64 (signOf false) (m * k) (e + f) .exact := rfl

/-- A longer count is rounded like any decimal, with no power of ten to be taken. -/
theorem exists_ofNat_long {w : Nat} (long : 2 ^ 53 ≤ w) :
    ∃ n, 0 < n ∧ n ≤ infinity ∧ Float.ofNat w = number false n := by
  have hw : 0 < w := (Nat.two_pow_pos 53).trans_le long
  have hlong : 52 ≤ (w * 2 ^ 53).log2 :=
    le_log2_of_le ((Nat.pow_le_pow_right (by decide) (by decide)).trans
      (long.trans (Nat.le_mul_of_pos_right _ (Nat.two_pow_pos 53))))
  obtain ⟨n, hn, hpack⟩ := pack_whole hlong
  refine ⟨min infinity n, min_pos (hn.pos_of_whole hw), min_le_left _ _, ?_⟩
  have hdecimal : UnpackedFloat.ofScientific Format.binary64 w 0 =
      roundWithAccuracy Format.binary64 (signOf false) (w * 2 ^ 53) (-(53 : Nat)) .exact := by
    have hrange : (0 : Int) < 2 ^ Format.binary64.exponentBits := by positivity
    have hbits : Format.binary64.mantissaBits = 53 := rfl
    unfold UnpackedFloat.ofScientific
    rw [dif_neg hw.ne', if_neg (by omega), if_neg (by omega), if_pos le_rfl, mul_finite]
    rw [Int.toNat_zero, pow_zero, Nat.mul_one, Nat.shiftLeft_eq, Int.add_zero, hbits]
  rw [ofScientific_zero_eq, Float.ofScientific, dif_neg (by omega)]
  refine eq_number_of_pack rfl ?_
  rw [← hpack, ← hdecimal]
  rfl

theorem number_eq_zero {n : Nat} (hn : n ≤ infinity) (h : number false n = number false 0) :
    n = 0 := by
  rcases hn.lt_or_eq with finite | rfl
  · have hword := congrArg (fun x => x.toBits.toBitVec.toNat) h
    simp only [toBits_number finite, toBits_number (show 0 < infinity by decide)] at hword
    rw [word_toNat false finite, word_toNat false (by decide)] at hword
    simpa using hword
  · exact absurd (congrArg Float.toBits h) (by decide)

/-- Only no things at all are counted as zero. -/
theorem ofCount_ne_zero {w : Nat} (hw : 0 < w) : (Number.ofCount w : Float) ≠ Number.ofCount 0 := by
  intro hzero
  have hlong := Nat.lt_or_ge w (2 ^ 53)
  obtain ⟨n, hn, hle, hnumber⟩ := hlong.elim (exists_ofNat_short hw) exists_ofNat_long
  have hsame : number false n = number false 0 := by
    rw [← hnumber, ← ofNat_zero_eq]
    exact hzero
  exact hn.ne' (number_eq_zero hle hsame)

end Decimal
end AdaptiveBatch
