import AdaptiveBatch.Decimal.Read
import AdaptiveBatch.Decimal.Text
import AdaptiveBatch.Proofs.Decimal.Shortest

/-!
# Numbers as text, read again

The forms that numbers are written in are numerals of the same value as the decimal
they are made from, so the digits of a number, read exactly, give the number.
-/

namespace AdaptiveBatch
namespace Decimal

/-- Digits in front of the point of a numeral: some, and no zero before others. -/
structure WholeDigits (cs : List Char) : Prop where
  digits : ∀ c ∈ cs, isDigit c = true
  nonempty : cs ≠ []
  leading : ∀ ds, cs = '0' :: ds → ds = []

theorem wholeDigits_digits (n : Nat) : WholeDigits (digits n) := by
  refine ⟨isDigit_digits, digits_ne_nil n, fun ds h => ?_⟩
  by_cases hn : 0 < n
  · exact absurd rfl (head_digits hn '0' ds h)
  · obtain rfl : n = 0 := by omega
    rw [digits_of_lt (by decide)] at h
    exact (List.cons.inj h).2.symm

/-- A decimal by the digits that are written for it with a point, of which at least one is
behind the point. -/
def Magnitude.written (m : Magnitude) : Magnitude :=
  if 0 ≤ m.exponent then ⟨m.coefficient * 10 ^ m.exponent.toNat * 10, -1⟩ else m

theorem Magnitude.value_written (m : Magnitude) : m.written.value = m.value := by
  obtain ⟨c, e⟩ := m
  unfold Magnitude.written
  by_cases he : 0 ≤ e
  · obtain ⟨k, rfl⟩ := Int.eq_ofNat_of_zero_le he
    rw [if_pos he]
    simp only [Magnitude.value, zpow_natCast, zpow_neg_one, Int.toNat_natCast]
    push_cast
    rw [mul_assoc, mul_inv_cancel₀ (by norm_num), mul_one]
  · rw [if_neg he]

/-- Whether a numeral has the digits that are written for a decimal. -/
structure Numeral.Writes (x : Numeral) (m : Magnitude) : Prop where
  whole : WholeDigits x.whole
  fraction : ∀ c ∈ x.fraction, isDigit c = true
  written : m.written = ⟨Decimal.value (x.whole ++ x.fraction), x.exponent - x.fraction.length⟩

theorem wholeDigits_append_zeros {n : Nat} (hn : n ≠ 0) (k : Nat) :
    WholeDigits (digits n ++ List.replicate k '0') := by
  have hhead := wholeDigits_digits n
  refine ⟨fun c hc => ?_, List.append_ne_nil_of_left_ne_nil hhead.nonempty _, fun ds h => ?_⟩
  · rcases List.mem_append.mp hc with hc | hc
    · exact hhead.digits c hc
    · rw [List.eq_of_mem_replicate hc]
      decide
  · obtain ⟨d, rest, hd⟩ := List.exists_cons_of_ne_nil hhead.nonempty
    rw [hd, List.cons_append, List.cons.injEq] at h
    exact absurd h.1 (head_digits (Nat.pos_of_ne_zero hn) d rest hd)

/-- Whether a text is a numeral with a point, of the value of a decimal. -/
def PointedAs (text : List Char) (m : Magnitude) : Prop :=
  ∃ whole fraction, text = whole ++ '.' :: fraction ∧ fraction ≠ [] ∧
    Numeral.Writes ⟨whole, fraction, 0⟩ m

theorem pointedAs_of_whole (c k : Nat) : PointedAs (Magnitude.pointed ⟨c, k⟩) ⟨c, k⟩ := by
  have hk : 0 ≤ (k : Int) := Int.natCast_nonneg k
  have hzero : ∀ d ∈ ['0'], isDigit d = true := List.forall_mem_singleton.mpr rfl
  by_cases hc : c = 0
  · subst hc
    have hdigits : digits 0 = ['0'] := digits_of_lt (by decide)
    refine ⟨digits 0, ['0'], ?_, List.cons_ne_nil _ _, wholeDigits_digits 0, hzero, ?_⟩
    · simp only [Magnitude.pointed, Magnitude.positional, if_pos hk, if_true]
    · have hvalue : value (digits 0 ++ ['0']) = 0 := by rw [hdigits]; decide
      simp only [Magnitude.written, if_pos hk, hvalue, Nat.zero_mul]
      rfl
  · refine ⟨digits c ++ List.replicate k '0', ['0'], ?_, List.cons_ne_nil _ _,
      wholeDigits_append_zeros hc k, hzero, ?_⟩
    · simp only [Magnitude.pointed, Magnitude.positional, if_pos hk, if_neg hc, Int.toNat_natCast]
    · have hvalue : value (digits c ++ List.replicate k '0' ++ ['0']) = c * 10 ^ k * 10 := by
        rw [value_concat, value_append, value_digits, value_zeros, List.length_replicate]
        rfl
      simp only [Magnitude.written, if_pos hk, hvalue, Int.toNat_natCast]
      rfl

/-- With places behind the point, zeros in front make up for digits that are missing. -/
theorem pointedAs_of_places (c p : Nat) :
    PointedAs (Magnitude.pointed ⟨c, -((p + 1 : Nat) : Int)⟩) ⟨c, -((p + 1 : Nat) : Int)⟩ := by
  obtain ⟨zeros, hzeros⟩ : ∃ zeros, zeros = p + 1 + 1 - (digits c).length := ⟨_, rfl⟩
  obtain ⟨padded, hpadded⟩ : ∃ padded, padded = List.replicate zeros '0' ++ digits c := ⟨_, rfl⟩
  have hlength : padded.length = zeros + (digits c).length := by
    rw [hpadded, List.length_append, List.length_replicate]
  have hvalue : value padded = c := by
    rw [hpadded, value_append, value_zeros, value_digits, Nat.zero_mul, Nat.zero_add]
  have hall : ∀ d ∈ padded, isDigit d = true := by
    intro d hd
    rw [hpadded, List.mem_append] at hd
    rcases hd with hd | hd
    · rw [List.eq_of_mem_replicate hd]
      decide
    · exact isDigit_digits d hd
  have hdrop : (padded.drop (padded.length - (p + 1))).length = p + 1 := by
    rw [List.length_drop]
    omega
  have hleading : ∀ ds, padded.take (padded.length - (p + 1)) = '0' :: ds → ds = [] := by
    intro ds h
    by_cases hz : zeros = 0
    · have hsplit := List.take_append_drop (padded.length - (p + 1)) padded
      rw [h, hpadded, hz, List.replicate_zero, List.nil_append, List.cons_append] at hsplit
      have hpos : 0 < c := by
        by_contra hc
        obtain rfl : c = 0 := by omega
        rw [digits_of_lt (show 0 < 10 by decide), List.length_singleton] at hzeros
        omega
      exact absurd rfl (head_digits hpos '0' _ hsplit.symm)
    · have hlen := congrArg List.length h
      rw [List.length_take, List.length_cons] at hlen
      exact List.length_eq_zero_iff.mp (by omega)
  have hnonempty : padded.take (padded.length - (p + 1)) ≠ [] := by
    refine List.ne_nil_of_length_pos ?_
    rw [List.length_take]
    omega
  refine ⟨padded.take (padded.length - (p + 1)), padded.drop (padded.length - (p + 1)), ?_,
    List.ne_nil_of_length_pos (by omega),
    ⟨fun d hd => hall d (List.mem_of_mem_take hd), hnonempty, hleading⟩,
    fun d hd => hall d (List.mem_of_mem_drop hd), ?_⟩
  · have hneg : ¬ 0 ≤ -((p + 1 : Nat) : Int) := by omega
    have hplaces : (-(-((p + 1 : Nat) : Int))).toNat = p + 1 := by omega
    simp only [Magnitude.pointed, Magnitude.positional, if_neg hneg, hplaces, ← hzeros, ← hpadded]
  · have hneg : ¬ 0 ≤ -((p + 1 : Nat) : Int) := by omega
    have hplaces : (0 : Int) - ((p + 1 : Nat) : Int) = -((p + 1 : Nat) : Int) := by omega
    simp only [Magnitude.written, if_neg hneg, List.take_append_drop, hvalue, hdrop, hplaces]

theorem pointedAs (m : Magnitude) : PointedAs m.pointed m := by
  obtain ⟨c, e⟩ := m
  by_cases he : 0 ≤ e
  · obtain ⟨k, rfl⟩ := Int.eq_ofNat_of_zero_le he
    exact pointedAs_of_whole c k
  · obtain ⟨p, rfl⟩ : ∃ p : Nat, e = -((p + 1 : Nat) : Int) := ⟨(-e).toNat - 1, by omega⟩
    exact pointedAs_of_places c p

/-- A numeral of a number's decimal is read as the number. -/
theorem toFloat_of_writes {negative : Bool} {n : Nat} {tie : Tie} {x : Numeral}
    (finite : n < infinity) (h : x.Writes (shortest tie (binary negative n))) :
    x.toFloat negative = number negative n := by
  have hvalue := Magnitude.value_written (shortest tie (binary negative n))
  rw [h.written] at hvalue
  unfold Numeral.toFloat
  by_cases hn : 0 < n
  · exact ofScientific_of_roundsTo hn finite ((shortest_roundsTo _ hn tie).congr hvalue)
  · obtain rfl : n = 0 := by omega
    have hzero : (shortest tie (binary negative 0)).value = 0 := by
      have hshort : shortest tie (binary negative 0) = ⟨0, 0⟩ := by
        unfold shortest
        exact if_pos rfl
      rw [hshort, Magnitude.value, Nat.cast_zero, zero_mul]
    rw [hzero, Magnitude.value, mul_eq_zero_iff_right (zpow_ne_zero _ (by norm_num))] at hvalue
    have hc : value (x.whole ++ x.fraction) = 0 := by exact_mod_cast hvalue
    unfold ofScientific
    rw [hc, if_pos (Or.inl rfl), ofBits_zero, signed_number finite]

end Decimal
end AdaptiveBatch
