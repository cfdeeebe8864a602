import AdaptiveBatch.Proofs.Decimal.Bits

/-!
# Products and quotients are rounded once

Multiplying and dividing work out a significand with two more bits, one for the half and
one for whatever is beyond it.  The two are all that rounding needs, so the answer is the
number nearest to the exact product or quotient.
-/

namespace AdaptiveBatch
namespace Decimal

open Float.Model Float.Model.UnpackedFloat

/-! ## Extended significands -/

/-- Whether an extended significand stands for `a / b`, as far as rounding goes. -/
structure Extends (em : ExtendedMantissa) (a b : Nat) : Prop where
  floor : em.mantissa = a / b
  half : em.roundBit = decide (b ≤ 2 * (a % b))
  rest : em.stickyBit = decide (2 * (a % b) ≠ 0 ∧ 2 * (a % b) ≠ b)

namespace Extends

variable {em : ExtendedMantissa} {a b : Nat}

theorem shiftRightOne (h : Extends em a b) (hb : 0 < b) :
    Extends em.shiftRightOne a (b * 2) := by
  have hdiv := Nat.div_add_mod a b
  have hmod := Nat.mod_lt a hb
  have hquot : a / (b * 2) = a / b / 2 := (Nat.div_div_eq_div_mul a b 2).symm
  have hrem : a % (b * 2) = b * (a / b % 2) + a % b := by
    rw [Nat.mod_mul]
    exact Nat.add_comm _ _
  have hparity := Nat.mod_two_eq_zero_or_one (a / b)
  refine ⟨?_, ?_, ?_⟩
  · show em.mantissa / 2 = _
    rw [h.floor, hquot]
  · show (em.mantissa % 2 != 0) = _
    rw [h.floor, hrem]
    rcases hparity with hp | hp <;> rw [hp] <;> simp <;> omega
  · show (em.roundBit || em.stickyBit) = _
    rw [h.half, h.rest, hrem, ← Bool.decide_or, decide_eq_decide]
    rcases hparity with hp | hp <;> rw [hp] <;> omega

theorem shiftRight (h : Extends em a b) (hb : 0 < b) (k : Nat) :
    Extends (em >>> k) a (b * 2 ^ k) := by
  induction k with
  | zero =>
    rw [pow_zero, Nat.mul_one]
    exact h
  | succ k ih =>
    have hstep : em >>> (k + 1) = (em >>> k).shiftRightOne := rfl
    rw [hstep, pow_succ, ← Nat.mul_assoc]
    exact ih.shiftRightOne (Nat.mul_pos hb (Nat.two_pow_pos k))

theorem roundedMantissa_eq (h : Extends em a b) (hb : 0 < b) :
    em.roundedMantissa = roundHalfEven a b := by
  have hmod := Nat.mod_lt a hb
  obtain ⟨m, half, rest⟩ := em
  obtain ⟨hfloor, hhalf, hrest⟩ := h
  dsimp only at hfloor hhalf hrest
  subst hfloor hhalf hrest
  unfold roundHalfEven
  dsimp only
  generalize a / b = q
  generalize a % b = r at *
  rcases Nat.lt_trichotomy (2 * r) b with hlt | heq | hgt
  · rw [if_neg (by omega), if_neg (by omega), decide_eq_false (by omega)]
    by_cases hr : r = 0
    · rw [decide_eq_false (by omega)]
      rfl
    · rw [decide_eq_true (by omega)]
      rfl
  · rw [if_neg (by omega), if_pos heq, decide_eq_true (by omega), decide_eq_false (by omega)]
    rfl
  · rw [if_pos hgt, decide_eq_true (by omega), decide_eq_true (by omega)]
    rfl

end Extends

theorem extends_exact (m : Nat) : Extends (.ofMantissaAndAccuracy (m / 1) .exact) m 1 := by
  refine ⟨?_, ?_, ?_⟩
  · rfl
  · show false = _
    rw [Nat.mod_one]
    rfl
  · show false = _
    rw [Nat.mod_one]
    rfl

theorem extends_fraction (a : Nat) {b : Nat} (hb : 0 < b) :
    Extends (.ofMantissaAndAccuracy (a / b) (accuracyOfFraction (a % b) b)) a b := by
  have hmod := Nat.mod_lt a hb
  unfold accuracyOfFraction
  by_cases hr : a % b = 0
  · rw [if_pos hr]
    refine ⟨rfl, ?_, ?_⟩
    · exact (decide_eq_false (by omega)).symm
    · exact (decide_eq_false (by omega)).symm
  · rw [if_neg hr]
    rcases Nat.lt_trichotomy (2 * (a % b)) b with hlt | heq | hgt
    · rw [Nat.compare_eq_lt.mpr hlt]
      exact ⟨rfl, (decide_eq_false (by omega)).symm, (decide_eq_true (by omega)).symm⟩
    · rw [Nat.compare_eq_eq.mpr heq]
      exact ⟨rfl, (decide_eq_true (by omega)).symm, (decide_eq_false (by omega)).symm⟩
    · rw [Nat.compare_eq_gt.mpr hgt]
      exact ⟨rfl, (decide_eq_true (by omega)).symm, (decide_eq_true (by omega)).symm⟩

/-! ## Rounding -/

theorem targetExponent_binary64 (t : Int) :
    Format.binary64.targetExponent t = max (t - 53) (-1074) := by
  have hmin : Format.binary64.minExponent = -1074 := rfl
  have hbits : (Format.binary64.mantissaBits : Int) = 53 := rfl
  rw [Format.targetExponent, hmin, hbits]

theorem targetExponent_eq (m : Nat) (e : Int) :
    Format.binary64.targetExponent (totalExponent m e) = max ((m.log2 : Int) + e - 52) (-1074) := by
  rw [targetExponent_binary64, totalExponent]
  omega

/-- The second shift only takes a carry back. -/
theorem shiftToTargetExponent_rounded {m s : Nat} (fits : m ≤ 2 ^ 53) :
    shiftToTargetExponent Format.binary64 m ((s : Int) - 1074) .exact =
      if m < 2 ^ 53 then (⟨m, false, false⟩, (s : Int) - 1074)
      else (⟨2 ^ 52, false, false⟩, ((s + 1 : Nat) : Int) - 1074) := by
  unfold shiftToTargetExponent shiftToExponent
  rw [targetExponent_eq]
  dsimp only
  by_cases hm : m < 2 ^ 53
  · have hlog : m.log2 ≤ 52 := by
      by_cases h0 : m = 0
      · rw [h0]
        exact Nat.zero_le _
      · have := (Nat.log2_lt h0).mpr hm
        omega
    have hnone : (max ((m.log2 : Int) + ((s : Int) - 1074) - 52) (-1074) -
        ((s : Int) - 1074)).toNat = 0 := by omega
    rw [if_pos hm, hnone]
    exact Prod.ext rfl (Int.add_zero _)
  · obtain rfl : m = 2 ^ 53 := by omega
    have hone : (max (((2 ^ 53 : Nat).log2 : Int) + ((s : Int) - 1074) - 52) (-1074) -
        ((s : Int) - 1074)).toNat = 1 := by
      rw [Nat.log2_two_pow]
      omega
    rw [if_neg hm, hone]
    refine Prod.ext rfl ?_
    show (s : Int) - 1074 + 1 = _
    omega

/-- What a rounded significand is packed to. -/
theorem pack_rounded {negative : Bool} {m s : Nat} (fits : m ≤ 2 ^ 53)
    (normal : 2 ^ 52 ≤ m ∨ s = 0) {u : UnpackedFloat}
    (hu : u = (let final := shiftToTargetExponent Format.binary64 m ((s : Int) - 1074) .exact
      if h : final.1.mantissa = 0 then .zero (signOf negative)
      else .finite (signOf negative) final.1.mantissa final.2 (Nat.pos_of_ne_zero h))) :
    UnpackedFloat.pack Format.binary64 u = word negative (min infinity (s * 2 ^ 52 + m)) := by
  rw [hu, shiftToTargetExponent_rounded fits]
  by_cases hm : m < 2 ^ 53
  · rw [if_pos hm]
    by_cases h0 : m = 0
    · obtain rfl : s = 0 := by omega
      subst h0
      cases negative <;> rfl
    · dsimp only
      rw [dif_neg h0]
      exact pack_finite _ hm normal
  · obtain rfl : m = 2 ^ 53 := by omega
    rw [if_neg hm]
    obtain ⟨c, hc⟩ : ∃ c : Nat, c = 2 ^ 52 := ⟨_, rfl⟩
    have hcarry : ∀ c, c = 2 ^ 52 → s * 2 ^ 52 + 2 ^ 53 = (s + 1) * c + c := by
      rintro _ rfl
      omega
    rw [hcarry c hc, ← hc]
    dsimp only
    rw [dif_neg (by omega), pack_finite _ (by omega) (Or.inl (by omega)), ← hc]

theorem roundHalfEven_congr {a b c d : Nat} (hb : 0 < b) (hd : 0 < d) (same : a * d = c * b) :
    roundHalfEven a b = roundHalfEven c d := by
  rw [← roundHalfEven_scale a b hd, ← roundHalfEven_scale c d hb, same, Nat.mul_comm b d]

/-- Equal fractions are at least the same whole numbers. -/
theorem mul_le_congr {a b c d : Nat} (hb : 0 < b) (hd : 0 < d) (same : a * d = c * b) (n : Nat) :
    n * b ≤ a ↔ n * d ≤ c := by
  rw [← Nat.mul_le_mul_right_iff hd, same, Nat.mul_assoc, Nat.mul_comm b, ← Nat.mul_assoc,
    Nat.mul_le_mul_right_iff hb]

/-- A fraction of `53 + k` digits before the point has 53 of them before the last `k`. -/
theorem lt_of_log2_le {a b k : Nat} (hb : 0 < b) (hlog : (a / b).log2 ≤ 52 + k) :
    a < 2 ^ 53 * (b * 2 ^ k) := by
  have hfloor : a / b < 2 ^ 53 * 2 ^ k := by
    rw [← pow_add]
    exact Nat.lt_log2_self.trans_le (Nat.pow_le_pow_right (by decide) (by omega))
  calc a < 2 ^ 53 * 2 ^ k * b := Nat.lt_mul_of_div_lt hfloor hb
    _ = 2 ^ 53 * (b * 2 ^ k) := by ring

theorem le_of_log2_eq {a b k : Nat} (hlog : (a / b).log2 = 52 + k) :
    2 ^ 52 * (b * 2 ^ k) ≤ a := by
  have hne : a / b ≠ 0 := by
    intro h0
    rw [h0, Nat.log2_zero] at hlog
    omega
  have hself := Nat.log2_self_le hne
  rw [hlog] at hself
  calc 2 ^ 52 * (b * 2 ^ k) = 2 ^ (52 + k) * b := by ring
    _ ≤ a / b * b := Nat.mul_le_mul_right _ hself
    _ ≤ a := Nat.div_mul_le_self a b

/-- A fraction of at least 53 digits, or of an exponent at the lower end, is rounded to
the nearest pattern.  With the exponent `e` it has the value of `num / den`. -/
theorem pack_roundWithAccuracy (negative : Bool) {e : Int} {acc : Accuracy} {a b num den : Nat}
    (h : Extends (.ofMantissaAndAccuracy (a / b) acc) a b) (hb : 0 < b) (hden : 0 < den)
    (long : 52 ≤ (a / b).log2 ∨ e ≤ -1074)
    (value : ∀ s k : Nat, e + k = (s : Int) - 1074 →
      a * (2 ^ s * den) = num * unitCount * (b * 2 ^ k)) :
    ∃ n, RoundsTo num den n ∧ UnpackedFloat.pack Format.binary64
      (roundWithAccuracy Format.binary64 (signOf negative) (a / b) e acc) =
        word negative (min infinity n) := by
  obtain ⟨k, hk⟩ : ∃ k : Nat, k = (max (((a / b).log2 : Int) + e - 52) (-1074) - e).toNat := ⟨_, rfl⟩
  obtain ⟨s, hs⟩ : ∃ s : Nat, e + k = (s : Int) - 1074 := ⟨(e + k + 1074).toNat, by omega⟩
  have hsame := value s k hs
  have hstep : 0 < b * 2 ^ k := Nat.mul_pos hb (Nat.two_pow_pos k)
  have hstep' : 0 < 2 ^ s * den := Nat.mul_pos (Nat.two_pow_pos s) hden
  have hround : roundHalfEven a (b * 2 ^ k) = roundHalfEven (num * unitCount) (2 ^ s * den) :=
    roundHalfEven_congr hstep hstep' hsame
  have hscaled := mul_le_congr hstep hstep' hsame
  have small : num * unitCount < 2 ^ 53 * (2 ^ s * den) := by
    rw [← Nat.not_le, ← hscaled, Nat.not_le]
    exact lt_of_log2_le hb (by omega)
  have large : 0 < s → 2 ^ 52 * (2 ^ s * den) ≤ num * unitCount := by
    intro hpos
    rw [← hscaled]
    exact le_of_log2_eq (by omega)
  refine ⟨_, roundsTo_shifted hden large small, ?_⟩
  refine pack_rounded (roundHalfEven_fits hstep' small) (roundHalfEven_normal hstep' large) ?_
  have hfirst : shiftToTargetExponent Format.binary64 (a / b) e acc =
      (ExtendedMantissa.ofMantissaAndAccuracy (a / b) acc >>> k, (s : Int) - 1074) := by
    unfold shiftToTargetExponent shiftToExponent
    rw [targetExponent_eq]
    dsimp only
    rw [← hs, ← hk]
  have hrounded := (h.shiftRight hb k).roundedMantissa_eq hstep
  unfold roundWithAccuracy
  rw [hfirst]
  dsimp only
  rw [hrounded, hround]

/-! ## Products and quotients -/

theorem unpacked_pos {negative : Bool} {n : Nat} (hn : 0 < n) : unpacked negative n =
    .finite (signOf negative) (significand n) ((shift n : Int) - 1074) (significand_pos hn) :=
  dif_pos hn

theorem signOf_div : signOf false / signOf false = signOf false := rfl

/-- A packed result is the number of its pattern. -/
theorem eq_number_of_pack {x : Float} {u : UnpackedFloat} {negative : Bool} {n : Nat}
    (hx : x = Float.ofModel (Float.Model.pack u))
    (hu : UnpackedFloat.pack Format.binary64 u = word negative (min infinity n)) :
    x = number negative (min infinity n) := by
  apply eq_of_toBits
  have hbits : x.toBits = UInt64.ofBitVec (word negative (min infinity n)) := by
    rw [hx, ← hu]
    rfl
  rw [hbits]
  by_cases hn : n < infinity
  · rw [Nat.min_eq_right hn.le, toBits_number hn]
  · rw [Nat.min_eq_left (Nat.le_of_not_lt hn), toBits_infinite]

theorem mul_eq (x y : Float) : x * y = Float.ofModel (Float.Model.pack
    (UnpackedFloat.mul Format.binary64 x.toModel.unpack y.toModel.unpack)) := rfl

theorem div_eq (x y : Float) : x / y = Float.ofModel (Float.Model.pack
    (UnpackedFloat.div Format.binary64 x.toModel.unpack y.toModel.unpack)) := rfl

section Positive

variable {a b : Nat}

theorem mul_unpacked (ha : 0 < a) (hb : 0 < b) :
    UnpackedFloat.mul Format.binary64 (unpacked false a) (unpacked false b) =
      roundWithAccuracy Format.binary64 (signOf false) (significand a * significand b)
        ((shift a : Int) - 1074 + ((shift b : Int) - 1074)) .exact := by
  rw [unpacked_pos ha, unpacked_pos hb]
  rfl

/-- The exponent of a quotient before it is rounded: enough for 53 digits. -/
def quotientExponent (a b : Nat) : Int :=
  min ((shift a : Int) - shift b)
    (max (((significand a).log2 : Int) + shift a - (significand b).log2 - shift b - 53) (-1074))

/-- The significand that a quotient starts from. -/
def raised (a b : Nat) : Nat :=
  significand a * 2 ^ ((shift a : Int) - shift b - quotientExponent a b).toNat

theorem div_unpacked (ha : 0 < a) (hb : 0 < b) :
    UnpackedFloat.div Format.binary64 (unpacked false a) (unpacked false b) =
      roundWithAccuracy Format.binary64 (signOf false) (raised a b / significand b)
        (quotientExponent a b) (accuracyOfFraction (raised a b % significand b) (significand b)) := by
  have hcore : divCore Format.binary64 (significand a) ((shift a : Int) - 1074) (significand b)
      ((shift b : Int) - 1074) = (raised a b / significand b, quotientExponent a b,
        accuracyOfFraction (raised a b % significand b) (significand b)) := by
    have hexp : min ((shift a : Int) - 1074 - ((shift b : Int) - 1074))
        (Format.binary64.targetExponent (totalExponent (significand a) ((shift a : Int) - 1074) -
          totalExponent (significand b) ((shift b : Int) - 1074))) = quotientExponent a b := by
      rw [targetExponent_binary64, totalExponent, totalExponent, quotientExponent]
      omega
    have hshift : (shift a : Int) - 1074 - ((shift b : Int) - 1074) = (shift a : Int) - shift b := by
      omega
    unfold divCore
    dsimp only
    rw [hexp, Nat.shiftLeft_eq, hshift, ← raised]
  rw [unpacked_pos ha, unpacked_pos hb, UnpackedFloat.div, hcore, signOf_div]

theorem le_log2_of_le {q : Nat} (hq : 2 ^ 52 ≤ q) : 52 ≤ q.log2 :=
  (Nat.le_log2 (lt_of_lt_of_le (Nat.two_pow_pos 52) hq).ne').mpr hq

theorem quotient_long {m d h : Nat} (hm : 0 < m) (hd : 0 < d)
    (far : d.log2 + 53 ≤ m.log2 + h) : 2 ^ 52 ≤ m * 2 ^ h / d := by
  rw [Nat.le_div_iff_mul_le hd]
  calc 2 ^ 52 * d ≤ 2 ^ 52 * 2 ^ (d.log2 + 1) := Nat.mul_le_mul_left _ Nat.lt_log2_self.le
    _ = 2 ^ (d.log2 + 53) := by ring
    _ ≤ 2 ^ (m.log2 + h) := Nat.pow_le_pow_right (by decide) far
    _ = 2 ^ m.log2 * 2 ^ h := pow_add _ _ _
    _ ≤ m * 2 ^ h := Nat.mul_le_mul_right _ (Nat.log2_self_le hm.ne')

theorem raised_long (ha : 0 < a) (hb : 0 < b) :
    52 ≤ (raised a b / significand b).log2 ∨ quotientExponent a b ≤ -1074 := by
  by_cases hlow : quotientExponent a b ≤ -1074
  · exact Or.inr hlow
  · left
    refine le_log2_of_le (quotient_long (significand_pos ha) (significand_pos hb) ?_)
    unfold quotientExponent at *
    omega

theorem product_long (ha : 0 < a) (hb : 0 < b) :
    52 ≤ (significand a * significand b).log2 ∨
      (shift a : Int) - 1074 + ((shift b : Int) - 1074) ≤ -1074 := by
  rcases normal_or_unshifted a with hna | hna
  · exact Or.inl (le_log2_of_le (hna.trans (Nat.le_mul_of_pos_right _ (significand_pos hb))))
  · rcases normal_or_unshifted b with hnb | hnb
    · exact Or.inl (le_log2_of_le (hnb.trans (Nat.le_mul_of_pos_left _ (significand_pos ha))))
    · right
      omega

theorem two_pow_mul_unitCount {e f : Nat} (h : f = e + 1074) : 2 ^ e * unitCount = 2 ^ f := by
  rw [unitCount_eq rfl, ← pow_add, h]

theorem product_value {x y s t k c : Nat}
    (hpow : 2 ^ c * unitCount = 2 ^ s * 2 ^ t * 2 ^ k) :
    x * y * (2 ^ c * (unitCount * unitCount)) =
      x * 2 ^ s * (y * 2 ^ t) * unitCount * (1 * 2 ^ k) := by
  generalize unitCount = u at *
  calc x * y * (2 ^ c * (u * u)) = x * y * u * (2 ^ c * u) := by ring
    _ = x * 2 ^ s * (y * 2 ^ t) * u * (1 * 2 ^ k) := by
      rw [hpow]
      ring

theorem quotient_value {x y s t h k c : Nat}
    (hpow : 2 ^ h * 2 ^ c * 2 ^ t = 2 ^ s * unitCount * 2 ^ k) :
    x * 2 ^ h * (2 ^ c * (y * 2 ^ t)) = x * 2 ^ s * unitCount * (y * 2 ^ k) := by
  generalize unitCount = u at *
  calc x * 2 ^ h * (2 ^ c * (y * 2 ^ t)) = x * y * (2 ^ h * 2 ^ c * 2 ^ t) := by ring
    _ = x * 2 ^ s * u * (y * 2 ^ k) := by
      rw [hpow]
      ring

theorem units_pos (ha : 0 < a) : 0 < units a :=
  Nat.mul_pos (significand_pos ha) (Nat.two_pow_pos _)

theorem product_exponents {c k : Nat}
    (hk : (shift a : Int) - 1074 + ((shift b : Int) - 1074) + k = (c : Int) - 1074) :
    significand a * significand b * (2 ^ c * (unitCount * unitCount)) =
      units a * units b * unitCount * (1 * 2 ^ k) := by
  refine product_value ?_
  rw [two_pow_mul_unitCount rfl, ← pow_add, ← pow_add]
  congr 1
  omega

theorem quotient_exponents {c k : Nat} (hk : quotientExponent a b + k = (c : Int) - 1074) :
    raised a b * (2 ^ c * units b) = units a * unitCount * (significand b * 2 ^ k) := by
  have hle : quotientExponent a b ≤ (shift a : Int) - shift b := by
    unfold quotientExponent
    omega
  refine quotient_value ?_
  rw [two_pow_mul_unitCount rfl, ← pow_add, ← pow_add, ← pow_add]
  congr 1
  omega

/-- The product of two positive numbers. -/
theorem mul_number (ha : 0 < a ∧ a < infinity) (hb : 0 < b ∧ b < infinity) :
    ∃ n, RoundsTo (units a * units b) (unitCount * unitCount) n ∧
      number false a * number false b = number false (min infinity n) := by
  have hlong := product_long ha.1 hb.1
  rw [← Nat.div_one (significand a * significand b)] at hlong
  obtain ⟨n, hn, hpack⟩ := pack_roundWithAccuracy false (extends_exact _) Nat.one_pos
    (Nat.mul_pos unitCount_pos unitCount_pos) hlong (fun c k => product_exponents)
  refine ⟨n, hn, eq_number_of_pack (mul_eq _ _) ?_⟩
  rw [Nat.div_one] at hpack
  rw [unpack_number ha.2, unpack_number hb.2, mul_unpacked ha.1 hb.1, hpack]

/-- The quotient of two positive numbers. -/
theorem div_number (ha : 0 < a ∧ a < infinity) (hb : 0 < b ∧ b < infinity) :
    ∃ n, RoundsTo (units a) (units b) n ∧
      number false a / number false b = number false (min infinity n) := by
  have hbpos := significand_pos hb.1
  obtain ⟨n, hn, hpack⟩ := pack_roundWithAccuracy false
    (extends_fraction (raised a b) hbpos) hbpos (units_pos hb.1) (raised_long ha.1 hb.1)
    (fun c k => quotient_exponents)
  refine ⟨n, hn, eq_number_of_pack (div_eq _ _) ?_⟩
  rw [unpack_number ha.2, unpack_number hb.2, div_unpacked ha.1 hb.1, hpack]

end Positive

end Decimal
end AdaptiveBatch
