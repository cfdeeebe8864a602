import Mathlib
import AdaptiveBatch.Proofs.Decimal.Nearest

/-!
# Patterns as floating point numbers

A floating point number is a word: a sign bit in front of a pattern.  Operations take
the word apart and put the pattern of their result together again, and both ways agree
with the significand and the shift of a pattern.
-/

namespace AdaptiveBatch
namespace Decimal

open Float.Model Float.Model.UnpackedFloat

/-! ## The fields of a word -/

theorem unpackMantissa_toNat (b : BitVec 64) :
    (@unpackMantissa Format.binary64 b).toNat = b.toNat % 2 ^ 52 := by
  simp [unpackMantissa, BitVec.extractLsb_toNat]

theorem unpackExponent_toNat (b : BitVec 64) :
    (@unpackExponent Format.binary64 b).toNat = b.toNat / 2 ^ 52 % 2 ^ 11 := by
  simp [unpackExponent, BitVec.extractLsb_toNat, Nat.shiftRight_eq_div_pow]

theorem unpackSign_toNat (b : BitVec 64) :
    (@unpackSign Format.binary64 b).toNat = b.toNat / 2 ^ 63 % 2 := by
  simp [unpackSign, BitVec.extractLsb_toNat, Nat.shiftRight_eq_div_pow]

theorem packComponents_toNat (s : Sign) (e : BitVec 11) (m : BitVec 52) :
    (packComponents Format.binary64 s e m).toNat =
      s.toBitVec.toNat * 2 ^ 63 + e.toNat * 2 ^ 52 + m.toNat := by
  have he := e.isLt
  have hm := m.isLt
  unfold packComponents
  rw [BitVec.toNat_append, BitVec.toNat_append, ← Nat.shiftLeft_add_eq_or_of_lt hm,
    ← Nat.shiftLeft_add_eq_or_of_lt he, Nat.shiftLeft_eq, Nat.shiftLeft_eq]
  ring

/-! ## Words -/

/-- Patterns from here on are not finite. -/
def infinity : Nat := 2047 * 2 ^ 52

def signOf (negative : Bool) : Sign := if negative then .negative else .positive

/-- The word of a pattern with a sign. -/
def word (negative : Bool) (n : Nat) : BitVec 64 :=
  BitVec.ofNat 64 ((if negative then 2 ^ 63 else 0) + n)

def number (negative : Bool) (n : Nat) : Float := Float.ofBits (UInt64.ofBitVec (word negative n))

theorem significand_pos {n : Nat} (hn : 0 < n) : 0 < significand n := by
  unfold significand shift
  omega

/-- What a finite pattern with a sign is taken apart to. -/
def unpacked (negative : Bool) (n : Nat) : UnpackedFloat :=
  if hn : 0 < n then
    .finite (signOf negative) (significand n) ((shift n : Int) - 1074) (significand_pos hn)
  else .zero (signOf negative)

theorem word_toNat (negative : Bool) {n : Nat} (hn : n < infinity) :
    (word negative n).toNat = (if negative then 2 ^ 63 else 0) + n := by
  unfold infinity at hn
  unfold word
  rw [BitVec.toNat_ofNat, Nat.mod_eq_of_lt]
  split <;> omega

theorem mantissa_word (negative : Bool) {n : Nat} (hn : n < infinity) :
    (@unpackMantissa Format.binary64 (word negative n)).toNat = n % 2 ^ 52 := by
  rw [unpackMantissa_toNat, word_toNat negative hn]
  split <;> omega

theorem exponent_word (negative : Bool) {n : Nat} (hn : n < infinity) :
    (@unpackExponent Format.binary64 (word negative n)).toNat = n / 2 ^ 52 := by
  rw [unpackExponent_toNat, word_toNat negative hn]
  unfold infinity at hn
  split <;> omega

theorem sign_word (negative : Bool) {n : Nat} (hn : n < infinity) :
    Sign.ofBitVec (@unpackSign Format.binary64 (word negative n)) = signOf negative := by
  have hs := unpackSign_toNat (word negative n)
  rw [word_toNat negative hn] at hs
  unfold infinity at hn
  cases negative with
  | true =>
    have hone : (@unpackSign Format.binary64 (word true n)).toNat = 1 := by
      rw [hs, if_pos rfl]
      omega
    exact if_neg fun h => by simp [h] at hone
  | false =>
    refine if_pos (BitVec.eq_of_toNat_eq ?_)
    rw [hs, if_neg Bool.false_ne_true]
    show (0 + n) / 2 ^ 63 % 2 = 0
    omega

/-- The exponent of a word tells whether a leading bit has been left out. -/
theorem unpack_word {negative : Bool} {n : Nat} (hn : n < infinity) :
    UnpackedFloat.unpack Format.binary64 (word negative n) = unpacked negative n := by
  have hm := mantissa_word negative hn
  have he := exponent_word negative hn
  have hfinite : @unpackExponent Format.binary64 (word negative n) ≠ -1#11 := by
    intro h
    rw [h] at he
    have hall : (-1#11).toNat = 2047 := rfl
    unfold infinity at hn
    omega
  unfold UnpackedFloat.unpack unpacked
  dsimp only
  rw [sign_word negative hn, if_neg hfinite]
  by_cases hsmall : n < 2 ^ 52
  · have hzero : @unpackExponent Format.binary64 (word negative n) = 0#11 :=
      BitVec.eq_of_toNat_eq (by rw [he]; exact Nat.div_eq_of_lt hsmall)
    rw [Nat.mod_eq_of_lt hsmall] at hm
    have hshift : shift n = 0 := by
      unfold shift
      omega
    rw [if_pos hzero]
    by_cases hn0 : 0 < n
    · have hne : @unpackMantissa Format.binary64 (word negative n) ≠ 0#52 := by
        intro h
        rw [h] at hm
        exact hn0.ne hm
      rw [dif_neg hne, dif_pos hn0]
      congr 1
      · rw [hm, significand, hshift]
        omega
      · rw [hzero, hshift]
        rfl
    · rw [dif_pos (BitVec.eq_of_toNat_eq (by rw [hm]; exact Nat.eq_zero_of_not_pos hn0)),
        dif_neg hn0]
  · have hne : @unpackExponent Format.binary64 (word negative n) ≠ 0#11 := by
      intro h
      rw [h] at he
      have hnone : (0#11).toNat = 0 := rfl
      omega
    rw [if_neg hne, dif_pos (by omega)]
    congr 1
    · rw [BitVec.toNat_append, ← Nat.shiftLeft_add_eq_or_of_lt (BitVec.isLt _), hm,
        Nat.shiftLeft_eq]
      show 1 * 2 ^ 52 + n % 2 ^ 52 = significand n
      unfold significand shift
      omega
    · rw [he]
      show ((n / 2 ^ 52 : Nat) : Int) - 1075 = (shift n : Int) - 1074
      unfold shift
      omega

theorem signOf_toNat (negative : Bool) :
    (signOf negative).toBitVec.toNat * 2 ^ 63 = if negative then 2 ^ 63 else 0 := by
  cases negative <;> rfl

theorem packedInfinity_eq (negative : Bool) :
    packedInfinity Format.binary64 (signOf negative) = word negative infinity := by
  cases negative <;> rfl

/-- What a significand and a shift are put together to. -/
theorem pack_finite {negative : Bool} {m s : Nat} (hm : 0 < m) (fits : m < 2 ^ 53)
    (normal : 2 ^ 52 ≤ m ∨ s = 0) :
    UnpackedFloat.pack Format.binary64 (.finite (signOf negative) m ((s : Int) - 1074) hm) =
      word negative (min infinity (s * 2 ^ 52 + m)) := by
  have hbiased : ((s : Int) - 1074 + 1023 + 52).toNat = s + 1 := by omega
  have hlog : m.log2 + 1 = 53 ↔ 2 ^ 52 ≤ m := by
    rw [show (53 : Nat) = 52 + 1 from rfl, Nat.add_right_cancel_iff, Nat.log2_eq_iff hm.ne']
    omega
  have hunfold : UnpackedFloat.pack Format.binary64
      (.finite (signOf negative) m ((s : Int) - 1074) hm) =
        if 2 ^ 11 ≤ ((s : Int) - 1074 + 1023 + 52).toNat + 1 then
          packedInfinity Format.binary64 (signOf negative)
        else if m.log2 + 1 = 53 then
          packComponents Format.binary64 (signOf negative)
            (BitVec.ofNat 11 ((s : Int) - 1074 + 1023 + 52).toNat) (BitVec.ofNat 52 m)
        else packComponents Format.binary64 (signOf negative) 0#11 (BitVec.ofNat 52 m) := rfl
  rw [hunfold, hbiased]
  by_cases hlarge : 2 ^ 11 ≤ s + 1 + 1
  · rw [if_pos hlarge, packedInfinity_eq, Nat.min_eq_left]
    unfold infinity
    omega
  · have hless : s * 2 ^ 52 + m < infinity := by
      unfold infinity
      omega
    rw [if_neg hlarge, Nat.min_eq_right hless.le]
    apply BitVec.eq_of_toNat_eq
    rw [word_toNat negative hless, ← signOf_toNat]
    by_cases hnormal : 2 ^ 52 ≤ m
    · rw [if_pos (hlog.mpr hnormal), packComponents_toNat, BitVec.toNat_ofNat,
        BitVec.toNat_ofNat]
      omega
    · rw [if_neg (mt hlog.mp hnormal), packComponents_toNat, BitVec.toNat_ofNat,
        BitVec.toNat_ofNat]
      omega

theorem pack_unpacked {negative : Bool} {n : Nat} (hn : n < infinity) :
    UnpackedFloat.pack Format.binary64 (unpacked negative n) = word negative n := by
  unfold unpacked
  by_cases hn0 : 0 < n
  · rw [dif_pos hn0, pack_finite _ (significand_lt n) (normal_or_unshifted n), ← pattern_eq,
      Nat.min_eq_right hn.le]
  · obtain rfl : n = 0 := by omega
    cases negative <;> rfl

/-! ## Floating point numbers -/

theorem toBits_number {negative : Bool} {n : Nat} (hn : n < infinity) :
    (number negative n).toBits = UInt64.ofBitVec (word negative n) := by
  show UInt64.ofBitVec (UnpackedFloat.pack Format.binary64
    (UnpackedFloat.unpack Format.binary64 (word negative n))) = _
  rw [unpack_word hn, pack_unpacked hn]

theorem toBits_infinite (negative : Bool) :
    (number negative infinity).toBits = UInt64.ofBitVec (word negative infinity) := by
  cases negative <;> rfl

theorem unpack_number {negative : Bool} {n : Nat} (hn : n < infinity) :
    (number negative n).toModel.unpack = unpacked negative n := by
  have hbits : (number negative n).toModel.toBits = UInt64.ofBitVec (word negative n) :=
    toBits_number hn
  unfold Float.Model.unpack
  rw [hbits, unpack_word hn]

theorem eq_of_toBits {x y : Float} (h : x.toBits = y.toBits) : x = y := by
  obtain ⟨⟨a, ha⟩⟩ := x
  obtain ⟨⟨b, hb⟩⟩ := y
  obtain rfl : a = b := h
  rfl

theorem isFinite_number (negative : Bool) {n : Nat} (hn : n < infinity) :
    (number negative n).isFinite = true := by
  show (number negative n).toModel.unpack.isFinite = true
  rw [unpack_number hn, unpacked]
  split <;> rfl

theorem isInf_number {negative : Bool} {n : Nat} (hn : n < infinity) :
    (number negative n).isInf = false := by
  show (number negative n).toModel.unpack.isInf = false
  rw [unpack_number hn, unpacked]
  split <;> rfl

theorem neg_number {n : Nat} (hn : n < infinity) : -number false n = number true n := by
  apply eq_of_toBits
  rw [toBits_number hn]
  show UInt64.ofBitVec (UnpackedFloat.pack Format.binary64
    (number false n).toModel.unpack.neg) = _
  have hneg : (unpacked false n).neg = unpacked true n := by
    unfold unpacked
    split <;> rfl
  rw [unpack_number hn, hneg, pack_unpacked hn]

theorem signed_number {negative : Bool} {n : Nat} (hn : n < infinity) :
    signed negative (number false n) = number negative n := by
  cases negative with
  | true => exact neg_number hn
  | false => rfl

theorem ofBits_zero : Float.ofBits 0 = number false 0 :=
  congrArg Float.ofBits (by decide)

theorem number_zero_eq : (0.0 : Float) = number false 0 := eq_of_toBits (by decide)

theorem beq_zero {n : Nat} (hn : 0 < n) (finite : n < infinity) :
    (number false n == 0.0) = false := by
  have hbeq : ∀ x y : Float, (x == y) = x.toModel.unpack.beq y.toModel.unpack := fun _ _ => rfl
  rw [hbeq, number_zero_eq, unpack_number finite, unpack_number (by decide), unpacked, dif_pos hn]
  rfl

theorem ofNat_zero_eq : Float.ofNat 0 = number false 0 := eq_of_toBits (by decide)

theorem decide_lt (x y : Float) : decide (x < y) = x.toModel.unpack.lt y.toModel.unpack := by
  show decide (decide (x.toModel.unpack.lt y.toModel.unpack = true) = true) = _
  rw [Bool.decide_eq_true, Bool.decide_eq_true]

/-- Only a positive pattern with a minus is below zero. -/
theorem number_lt_zero {negative : Bool} {n : Nat} (finite : n < infinity) :
    decide (number negative n < Float.ofNat 0) = (negative && decide (0 < n)) := by
  rw [decide_lt, ofNat_zero_eq, unpack_number finite, unpack_number (by decide), unpacked]
  by_cases hn : 0 < n
  · rw [dif_pos hn, decide_eq_true hn]
    cases negative <;> rfl
  · rw [dif_neg hn, decide_eq_false hn]
    cases negative <;> rfl

theorem zero_lt_number {negative : Bool} {n : Nat} (finite : n < infinity) :
    decide (Float.ofNat 0 < number negative n) = (!negative && decide (0 < n)) := by
  rw [decide_lt, ofNat_zero_eq, unpack_number finite, unpack_number (by decide),
    unpacked.eq_def negative n]
  by_cases hn : 0 < n
  · rw [dif_pos hn, decide_eq_true hn]
    cases negative <;> rfl
  · rw [dif_neg hn, decide_eq_false hn]
    cases negative <;> rfl

theorem exponent_of_isFinite {x : Float} (hx : x.isFinite = true) :
    x.toBits.toNat / 2 ^ 52 % 2 ^ 11 ≠ 2047 := by
  intro h
  have hall : @unpackExponent Format.binary64 x.toBits.toBitVec = -1#11 :=
    BitVec.eq_of_toNat_eq ((unpackExponent_toNat x.toBits.toBitVec).trans h)
  have hx' : (UnpackedFloat.unpack Format.binary64 x.toBits.toBitVec).isFinite = true := hx
  unfold UnpackedFloat.unpack at hx'
  dsimp only at hx'
  rw [if_pos hall] at hx'
  split at hx' <;> cases hx'

/-- A finite number is a pattern with a sign. -/
theorem exists_number {x : Float} (hx : x.isFinite = true) :
    ∃ negative n, n < infinity ∧ x = number negative n := by
  have hexponent := exponent_of_isFinite hx
  have hlt := x.toBits.toNat_lt
  refine ⟨decide (2 ^ 63 ≤ x.toBits.toNat), x.toBits.toNat % 2 ^ 63, ?_, ?_⟩
  · unfold infinity
    omega
  · apply eq_of_toBits
    have hn : x.toBits.toNat % 2 ^ 63 < infinity := by
      unfold infinity
      omega
    rw [toBits_number hn]
    apply UInt64.toNat_inj.mp
    show x.toBits.toNat = (word _ _).toNat
    rw [word_toNat _ hn]
    by_cases h : 2 ^ 63 ≤ x.toBits.toNat <;> simp only [h, decide_true, decide_false, if_true,
      if_false, Bool.false_eq_true] <;> omega

theorem toNat_toBits_number (negative : Bool) {n : Nat} (hn : n < infinity) :
    (number negative n).toBits.toNat = (if negative then 2 ^ 63 else 0) + n := by
  rw [toBits_number hn]
  exact word_toNat negative hn

theorem signBit_number (negative : Bool) {n : Nat} (hn : n < infinity) :
    Binary.signBit (number negative n) = negative := by
  have hbits := toNat_toBits_number negative hn
  unfold Binary.signBit infinity at *
  rw [hbits, twoPow_eq]
  cases negative <;> simp
  omega

theorem ofFloat?_number {negative : Bool} {n : Nat} (hn : n < infinity) :
    Binary.ofFloat? (number negative n) =
      some ⟨negative, significand n, (shift n : Int) - 1074⟩ := by
  have hbits := toNat_toBits_number negative hn
  have hsign := signBit_number negative hn
  have hfraction : (number negative n).toBits.toNat % twoPow 52 = n % 2 ^ 52 := by
    rw [hbits, twoPow_eq]
    cases negative <;> simp
    omega
  have hbiased : (number negative n).toBits.toNat / twoPow 52 % twoPow 11 = n / 2 ^ 52 := by
    unfold infinity at hn
    rw [hbits, twoPow_eq, twoPow_eq]
    cases negative <;> simp <;> omega
  have hfinite : n / 2 ^ 52 ≠ 2047 := by
    unfold infinity at hn
    omega
  simp only [Binary.ofFloat?, hsign, hfraction, hbiased, if_neg hfinite]
  rw [twoPow_eq]
  split
  · congr 2
    · unfold significand shift
      omega
    · unfold shift
      omega
  · congr 2
    · unfold significand shift
      omega
    · unfold shift
      omega

end Decimal
end AdaptiveBatch
