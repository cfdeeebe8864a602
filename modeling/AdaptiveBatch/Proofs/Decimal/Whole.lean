import AdaptiveBatch.Proofs.Decimal.Arithmetic
import AdaptiveBatch.Proofs.Decimal.Drift
import AdaptiveBatch.Proofs.Decimal.Read

/-!
# Whole numbers, scaled by powers of ten

A whole number up to `10 ^ 308` is rounded once, and so is a power of ten.  Their
product or quotient is therefore off by two roundings before it is rounded itself.
-/

namespace AdaptiveBatch
namespace Decimal

theorem unitCount_pos_cast : (0 : ℚ) < unitCount := by exact_mod_cast unitCount_pos

theorem two_pow_le_unitCount {e : Nat} (he : e ≤ 1074) : 2 ^ e ≤ unitCount := by
  obtain ⟨f, hf⟩ : ∃ f, f = 1074 := ⟨_, rfl⟩
  rw [unitCount_eq hf]
  exact Nat.pow_le_pow_right (by decide) (hf ▸ he)

theorem two_pow_eq_mul_unitCount {e f : Nat} (h : f = e + 1074) :
    (2 : ℚ) ^ f = 2 ^ e * unitCount := by
  exact_mod_cast (two_pow_mul_unitCount h).symm

theorem one_lt_slack : 1 < slack := by
  unfold slack
  norm_num

theorem Magnitude.RoundsTo.near {m : Magnitude} {n : Nat} (h : m.RoundsTo n) :
    Near (m.value * unitCount) n := by
  have hnear := Near.of_roundsTo h (tenPow_pos _)
  rwa [Magnitude.value_eq_div, div_mul_eq_mul_div]

/-- A finite pattern that a positive whole number is rounded to. -/
structure Rounds (w n : Nat) : Prop where
  source : 0 < w
  pos : 0 < n
  finite : n < infinity
  nearest : RoundsTo w 1 n

namespace Rounds

variable {w n : Nat}

theorem near (h : Rounds w n) : Near ((w : ℚ) * unitCount) n := by
  have hnear := Near.of_roundsTo h.nearest Nat.one_pos
  rwa [Nat.cast_one, div_one] at hnear

theorem within (h : Rounds w n) : (units n : ℚ) ≤ slack * (w * unitCount) ∧
    (w : ℚ) * unitCount ≤ slack * units n := by
  refine h.near.within ?_
  have hle : 2 ^ 52 ≤ w * unitCount :=
    (two_pow_le_unitCount (by decide)).trans (Nat.le_mul_of_pos_left _ h.source)
  exact_mod_cast hle

theorem units_pos (h : Rounds w n) : (0 : ℚ) < units n := by
  exact_mod_cast Decimal.units_pos h.pos

/-- A whole number of 53 digits, or one with zeros behind them, is not changed. -/
theorem exact (h : Rounds w n) {m s : Nat} (hw : w = m * 2 ^ s) (fits : m ≤ 2 ^ 53) :
    units n = w * unitCount := by
  obtain ⟨k, hk⟩ := exists_units fits (s + 1074)
  have hunits : units k = w * unitCount := by
    rw [hk, hw, Nat.mul_assoc, two_pow_mul_unitCount rfl]
  have hnear := h.near
  rw [← Nat.cast_mul, ← hunits] at hnear
  rw [hnear.eq_of_units, hunits]

theorem exact_short (h : Rounds w n) (short : w ≤ 2 ^ 53) : units n = w * unitCount :=
  h.exact (s := 0) (by rw [pow_zero, Nat.mul_one]) short

theorem exact_ten {e : Nat} (h : Rounds (10 ^ e) n) (he : e ≤ 22) :
    units n = 10 ^ e * unitCount := by
  have hfive : 5 ^ e ≤ 5 ^ 22 := Nat.pow_le_pow_right (by decide) he
  exact h.exact (m := 5 ^ e) (s := e) (Nat.mul_pow 5 2 e) (hfive.trans (by decide))

theorem number_eq (h : Rounds w n) : Decimal.nearest w 1 = number false n :=
  nearest_of_roundsTo h.source Nat.one_pos h.finite h.nearest

end Rounds

theorem units_one : units 1 = 1 := by decide

theorem units_last {e : Nat} (he : e = 2045) : units (infinity - 1) = (2 ^ 53 - 1) * 2 ^ e := by
  have hlast : infinity - 1 = 2045 * 2 ^ 52 + (2 ^ 53 - 1) := by decide
  rw [hlast, units_shifted (Or.inl (by decide)) (by decide), he]

/-- The powers of ten up to this one are finite. -/
theorem exists_rounds {w e : Nat} (he : e ≤ 308) (hw : 0 < w) (small : w ≤ 10 ^ e) :
    ∃ n, Rounds w n := by
  obtain ⟨n, hn, -⟩ := nearestBits_roundsTo hw Nat.one_pos
  have hnear := Near.of_roundsTo hn Nat.one_pos
  rw [Nat.cast_one, div_one, ← Nat.cast_mul] at hnear
  have hlow : 1 ≤ n := by
    refine hnear.le_of_units_le ?_
    rw [units_one]
    exact_mod_cast Nat.mul_pos hw unitCount_pos
  have hhigh : n ≤ infinity - 1 := by
    refine hnear.le_of_le_units ?_
    obtain ⟨f, hf⟩ : ∃ f, f = 308 := ⟨_, rfl⟩
    have hlast : 10 ^ f ≤ (2 ^ 53 - 1) * 2 ^ 971 := by
      subst hf
      decide +kernel
    have hpow := (Nat.pow_le_pow_right (by decide : 0 < 10) (hf ▸ he)).trans hlast
    have hle : w * unitCount ≤ units (infinity - 1) := by
      rw [units_last rfl, ← two_pow_mul_unitCount (e := 971) rfl, ← Nat.mul_assoc]
      exact Nat.mul_le_mul_right _ (small.trans hpow)
    exact_mod_cast hle
  have hpos : 0 < infinity := by decide
  exact ⟨n, hw, hlow, by omega, hn⟩

/-! ## Products and quotients -/

section Scaled

variable {s t a b : Nat}

/-- A product is off by the roundings of its factors. -/
theorem Rounds.mul (hs : Rounds s a) (ht : Rounds t b) :
    ∃ n, RoundsTo (units a * units b) (unitCount * unitCount) n ∧
      Near ((units a : ℚ) * units b / unitCount) n ∧
      Close (s * t * unitCount) ((units a : ℚ) * units b / unitCount) ∧
      number false a * number false b = number false (min infinity n) := by
  obtain ⟨n, hn, hmul⟩ := mul_number ⟨hs.pos, hs.finite⟩ ⟨ht.pos, ht.finite⟩
  have hunit := unitCount_pos_cast
  have hnear := Near.of_roundsTo hn (Nat.mul_pos unitCount_pos unitCount_pos)
  rw [Nat.cast_mul, Nat.cast_mul, mul_div_mul_right _ _ hunit.ne'] at hnear
  refine ⟨n, hn, hnear, Or.inl ⟨?_, ?_⟩, hmul⟩
  · rw [div_le_iff₀ hunit]
    calc (units a : ℚ) * units b
        ≤ (slack * (s * unitCount)) * (slack * (t * unitCount)) :=
          mul_le_mul hs.within.1 ht.within.1 ht.units_pos.le (hs.units_pos.le.trans hs.within.1)
      _ = slack ^ 2 * (s * t * unitCount) * unitCount := by ring
  · rw [← mul_div_assoc, le_div_iff₀ hunit]
    calc (s : ℚ) * t * unitCount * unitCount
        = (s * unitCount) * (t * unitCount) := by ring
      _ ≤ (slack * units a) * (slack * units b) :=
          mul_le_mul hs.within.2 ht.within.2 (by positivity)
            ((by positivity : (0 : ℚ) ≤ s * unitCount).trans hs.within.2)
      _ = slack ^ 2 * (units a * units b) := by ring

/-- A quotient is off by the roundings of its operands. -/
theorem Rounds.div (hs : Rounds s a) (ht : Rounds t b) :
    ∃ n, RoundsTo (units a) (units b) n ∧ Near ((units a : ℚ) * unitCount / units b) n ∧
      Close (s / t * unitCount) ((units a : ℚ) * unitCount / units b) ∧
      number false a / number false b = number false (min infinity n) := by
  obtain ⟨n, hn, hdiv⟩ := div_number ⟨hs.pos, hs.finite⟩ ⟨ht.pos, ht.finite⟩
  have hunit := unitCount_pos_cast
  have ht' : (0 : ℚ) < t := by exact_mod_cast ht.source
  refine ⟨n, hn, Near.of_roundsTo hn (Decimal.units_pos ht.pos), Or.inl ⟨?_, ?_⟩, hdiv⟩
  · rw [div_le_iff₀ ht.units_pos]
    calc (units a : ℚ) * unitCount
        ≤ slack * (s * unitCount) * unitCount :=
          mul_le_mul_of_nonneg_right hs.within.1 hunit.le
      _ = slack * (s / t * unitCount) * (t * unitCount) := by field_simp
      _ ≤ slack * (s / t * unitCount) * (slack * units b) :=
          mul_le_mul_of_nonneg_left ht.within.2 (by have := one_lt_slack; positivity)
      _ = slack ^ 2 * (s / t * unitCount) * units b := by ring
  · rw [← mul_div_assoc, le_div_iff₀ ht.units_pos]
    calc (s : ℚ) / t * unitCount * units b
        ≤ s / t * unitCount * (slack * (t * unitCount)) :=
          mul_le_mul_of_nonneg_left ht.within.1 (by positivity)
      _ = slack * (s * unitCount) * unitCount := by field_simp
      _ ≤ slack * (slack * units a) * unitCount := by
          have := one_lt_slack
          exact mul_le_mul_of_nonneg_right
            (mul_le_mul_of_nonneg_left hs.within.2 (by positivity)) hunit.le
      _ = slack ^ 2 * (units a * unitCount) := by ring

/-! ## Division by a large power first -/

/-- The pattern of `10 ^ 308`. -/
def tenTo308 : Nat := 2045 * 2 ^ 52 + 5010420900022432

theorem units_tenTo308 {e : Nat} (he : e = 2045) : units tenTo308 = 5010420900022432 * 2 ^ e := by
  have hpattern : tenTo308 = e * 2 ^ 52 + 5010420900022432 := by
    rw [he]
    rfl
  rw [hpattern, units_shifted (Or.inl (by decide)) (by decide)]

theorem units_tenTo308_cast {e : Nat} (he : e = 971) :
    (units tenTo308 : ℚ) = 5010420900022432 * 2 ^ e * unitCount := by
  rw [units_tenTo308 rfl, ← two_pow_mul_unitCount (e := e) (by omega)]
  push_cast
  ring

theorem tenTo308_bounds {e f : Nat} (he : e = 971) (hf : f = 308) :
    (10 : ℚ) ^ f ≤ 5010420900022432 * 2 ^ e ∧
      5010420900022432 * 2 ^ e ≤ (1 + 99 / (1000 * 2 ^ 53)) * (10 : ℚ) ^ f := by
  have hlow : 10 ^ f ≤ 5010420900022432 * 2 ^ e := by
    subst he hf
    decide +kernel
  have hhigh : 5010420900022432 * 2 ^ e * (1000 * 2 ^ 53) ≤ (1000 * 2 ^ 53 + 99) * 10 ^ f := by
    subst he hf
    decide +kernel
  constructor
  · exact_mod_cast hlow
  · have hcast : (5010420900022432 * 2 ^ e * (1000 * 2 ^ 53) : ℚ) ≤
        (1000 * 2 ^ 53 + 99) * 10 ^ f := by exact_mod_cast hhigh
    linarith

theorem rounds_tenTo308 {f : Nat} (hf : f = 308) : Rounds (10 ^ f) tenTo308 := by
  obtain ⟨n, hn⟩ := exists_rounds hf.le (by positivity : 0 < 10 ^ f) le_rfl
  have hunit := unitCount_pos_cast
  obtain ⟨e, he⟩ : ∃ e, e = 971 := ⟨_, rfl⟩
  obtain ⟨hlow, hhigh⟩ := tenTo308_bounds he hf
  have hpow : (1 : ℚ) ≤ 10 ^ f := one_le_pow₀ (by norm_num)
  have hunits := units_tenTo308_cast he
  have hle : n ≤ tenTo308 := by
    refine hn.near.le_of_le_units ?_
    rw [hunits]
    push_cast
    exact mul_le_mul_of_nonneg_right hlow hunit.le
  obtain ⟨k, hk⟩ : ∃ k, k + 1 = tenTo308 := ⟨2045 * 2 ^ 52 + 5010420900022431, rfl⟩
  have hge : k < n := by
    refine hn.near.lt_of_lt ?_
    have hshift : shift k = e + 1074 := by
      unfold tenTo308 at hk
      unfold shift
      omega
    have hsucc := units_succ k
    rw [hk, hshift, ← two_pow_mul_unitCount rfl] at hsucc
    have hstep : (units tenTo308 : ℚ) = units k + 2 ^ e * unitCount := by exact_mod_cast hsucc
    have hpos : (0 : ℚ) < 2 ^ e := by positivity
    have hgap : 2 * (5010420900022432 * 2 ^ e) - 2 ^ e < 2 * (10 : ℚ) ^ f := by linarith
    have hscaled := mul_lt_mul_of_pos_right hgap hunit
    rw [midway, hk]
    push_cast
    rw [hunits] at hstep ⊢
    generalize (units k : ℚ) = y at *
    linarith
  have hsame : n = tenTo308 := by omega
  exact hsame ▸ hn

/-- Beyond 53 digits a whole number is rounded, and so is its quotient.  For a divisor
of this size both together are less than two roundings. -/
theorem quotient_of_long {s i e a n : Nat} (he : e = 971) (hs : Rounds s a)
    (hlow : 2 ^ 53 * 2 ^ i ≤ s) (hhigh : s ≤ 2 ^ 54 * 2 ^ i)
    (hn : Near ((units a : ℚ) / (5010420900022432 * 2 ^ e)) n) :
    (units n : ℚ) * (5010420900022432 * 2 ^ e) ≤ (1 + 19 / (10 * 2 ^ 53)) * (s * unitCount) ∧
      (1 - 19 / (10 * 2 ^ 53)) * (s * unitCount) ≤
        (units n : ℚ) * (5010420900022432 * 2 ^ e) := by
  obtain ⟨z, hz⟩ : ∃ z : ℚ, z = 2 ^ i * 2 ^ 52 * 2 ^ e := ⟨_, rfl⟩
  have hzpos : 0 < z := by
    rw [hz]
    positivity
  have hunit : (2 : ℚ) ^ i * unitCount = 2 ^ 51 * z := by
    rw [hz, unitCount_eq (e := 51 + 52 + e) (by omega), pow_add, pow_add]
    push_cast
    ring
  have hx : 2 ^ 104 * z ≤ s * unitCount ∧ (s : ℚ) * unitCount ≤ 2 ^ 105 * z := by
    have hlow' : (2 ^ 53 * 2 ^ i : ℚ) ≤ s := by exact_mod_cast hlow
    have hhigh' : (s : ℚ) ≤ 2 ^ 54 * 2 ^ i := by exact_mod_cast hhigh
    have h₁ := mul_le_mul_of_nonneg_right hlow' unitCount_pos_cast.le
    have h₂ := mul_le_mul_of_nonneg_right hhigh' unitCount_pos_cast.le
    rw [mul_assoc, hunit] at h₁ h₂
    constructor <;> linarith
  have hspacing : (2 : ℚ) ^ (i + 1 + 1074) = 2 * (2 ^ 51 * z) := by
    rw [two_pow_eq_mul_unitCount rfl, pow_succ, mul_right_comm, hunit, mul_comm]
  obtain ⟨hup, hdown⟩ := hs.near.error (s := i + 1 + 1074) (by linarith)
    (by rw [hspacing]; linarith)
  rw [hspacing] at hup hdown
  have hstep : ∀ k, (2 : ℚ) ^ (i + 51 + k) * (5010420900022432 * 2 ^ e) =
      5010420900022432 * 2 ^ k * z / 2 := by
    intro k
    rw [hz, pow_add, pow_add]
    ring
  have hpos : (0 : ℚ) < 5010420900022432 * 2 ^ e := by positivity
  generalize (s : ℚ) * unitCount = x at *
  have ha := hs.units_pos
  by_cases hcase : 5010420900022432 * 2 ^ 52 * z ≤ (units a : ℚ)
  · have hle : (units a : ℚ) ≤ 2 ^ 53 * (2 ^ (i + 51 + 1) * (5010420900022432 * 2 ^ e)) := by
      rw [hstep]
      linarith
    obtain ⟨hup', hdown'⟩ := hn.error_quotient ha.le hpos hle
    rw [hstep] at hup' hdown'
    constructor <;> linarith
  · have hle : (units a : ℚ) ≤ 2 ^ 53 * (2 ^ (i + 51 + 0) * (5010420900022432 * 2 ^ e)) := by
      rw [hstep]
      linarith
    obtain ⟨hup', hdown'⟩ := hn.error_quotient ha.le hpos hle
    rw [hstep] at hup' hdown'
    constructor <;> linarith

theorem close_of_long {x f P T : ℚ} (hT : 0 < T) (hx : 0 ≤ x) (hf : 0 ≤ f) (hlow : T ≤ P)
    (hhigh : P ≤ (1 + 99 / (1000 * 2 ^ 53)) * T) (hup : f * P ≤ (1 + 19 / (10 * 2 ^ 53)) * x)
    (hdown : (1 - 19 / (10 * 2 ^ 53)) * x ≤ f * P) : Close (x / T) f := by
  have hsquare : slack ^ 2 = 1 + 2 / 2 ^ 53 + 1 / 2 ^ 106 := by
    unfold slack
    norm_num
  have hlow' := mul_le_mul_of_nonneg_left hlow hf
  have hhigh' := mul_le_mul_of_nonneg_left hhigh hf
  have hfT : 0 ≤ f * T := mul_nonneg hf hT.le
  left
  rw [← mul_div_assoc, le_div_iff₀ hT, div_le_iff₀ hT, mul_assoc, hsquare]
  constructor <;> linarith

theorem close_of_exact {x q P T : ℚ} {n : Nat} (hT : 0 < T) (hx : 0 ≤ x) (hlow : T ≤ P)
    (hhigh : P ≤ (1 + 99 / (1000 * 2 ^ 53)) * T) (hq : q * P = x) (hn : Near q n) :
    Close (x / T) (units n) := by
  have hslack := one_lt_slack
  have hP : 0 < P := hT.trans_le hlow
  have hnonneg : 0 ≤ q := nonneg_of_mul_nonneg_left (hq ▸ hx) hP
  have hle : q ≤ x / T := by
    rw [le_div_iff₀ hT, ← hq]
    exact mul_le_mul_of_nonneg_left hlow hnonneg
  have hge : x / T ≤ slack * q := by
    rw [div_le_iff₀ hT, ← hq]
    have hscaled := mul_le_mul_of_nonneg_left hhigh hnonneg
    have hpos : 0 ≤ q * T := mul_nonneg hnonneg hT.le
    unfold slack
    linarith
  by_cases hlarge : 2 ^ 52 ≤ q
  · obtain ⟨hup, hdown⟩ := hn.within hlarge
    have hscaled := mul_le_mul_of_nonneg_left hdown (by positivity : (0 : ℚ) ≤ slack)
    have hscaled' := mul_le_mul_of_nonneg_left hle (by positivity : (0 : ℚ) ≤ slack)
    have honce : slack * (x / T) ≤ slack * (slack * (x / T)) := by
      refine le_mul_of_one_le_left ?_ hslack.le
      positivity
    left
    rw [sq, mul_assoc, mul_assoc]
    constructor <;> linarith
  · obtain ⟨hup, hdown⟩ := hn.error (s := 0) hnonneg (by linarith)
    right
    unfold slack at hge
    constructor <;> linarith

/-- Dividing by `10 ^ 308` counts for no more than two roundings. -/
theorem Rounds.div_tenTo308 {s a f : Nat} (hf : f = 308) (hs : Rounds s a) :
    ∃ n, (0 < n ∧ n < infinity) ∧ Close (s * unitCount / 10 ^ f) (units n) ∧
      number false a / number false tenTo308 = number false n := by
  have hten := rounds_tenTo308 hf
  obtain ⟨n, hn, hdiv⟩ := div_number ⟨hs.pos, hs.finite⟩ ⟨hten.pos, hten.finite⟩
  obtain ⟨e, he⟩ : ∃ e, e = 971 := ⟨_, rfl⟩
  obtain ⟨hlow, hhigh⟩ := tenTo308_bounds he hf
  have hunit := unitCount_pos_cast
  have hnear := Near.of_roundsTo hn (Decimal.units_pos hten.pos)
  rw [units_tenTo308_cast he, mul_div_mul_right _ _ hunit.ne'] at hnear
  have hT : (1 : ℚ) ≤ 10 ^ f := one_le_pow₀ (by norm_num)
  have hx : 0 ≤ (s : ℚ) * unitCount := by positivity
  have hclose : Close (s * unitCount / 10 ^ f) (units n) := by
    by_cases hshort : s ≤ 2 ^ 53
    · refine close_of_exact (by linarith) hx hlow hhigh ?_ hnear
      rw [div_mul_cancel₀ _ (by positivity), hs.exact_short hshort, Nat.cast_mul]
    · have hlog : 53 ≤ s.log2 := (Nat.le_log2 (by omega)).mpr (by omega)
      obtain ⟨i, hi⟩ : ∃ i, s.log2 = 53 + i := ⟨s.log2 - 53, by omega⟩
      have hself := Nat.log2_self_le (n := s) (by omega)
      have hnext := Nat.lt_log2_self (n := s)
      have hsucc : 53 + i + 1 = 54 + i := by omega
      rw [hi, hsucc, pow_add] at hnext
      rw [hi, pow_add] at hself
      obtain ⟨hup, hdown⟩ := quotient_of_long he hs hself hnext.le hnear
      exact close_of_long (by linarith) hx (by positivity) hlow hhigh hup hdown
  have hfinite : n ≤ a := hnear.le_of_le_units (div_le_self (by positivity) (by linarith))
  have hpos : 1 ≤ n := by
    refine hnear.le_of_units_le ?_
    rw [units_one, Nat.cast_one, le_div_iff₀ (by positivity), one_mul]
    have hsource : (unitCount : ℚ) ≤ s * unitCount :=
      le_mul_of_one_le_left hunit.le (by exact_mod_cast hs.source)
    have hsize : (unitCount : ℚ) = 2 ^ 103 * 2 ^ e := by
      rw [unitCount_eq (e := 103 + e) (by omega), pow_add]
      push_cast
      rfl
    have hpow : (0 : ℚ) < 2 ^ e := by positivity
    have hwithin := hs.within.2
    unfold slack at hwithin
    linarith
  have hless : n < infinity := hfinite.trans_lt hs.finite
  refine ⟨n, ⟨hpos, hless⟩, hclose, ?_⟩
  rw [hdiv, Nat.min_eq_right hless.le]

end Scaled

end Decimal
end AdaptiveBatch
