import Mathlib.Data.List.Induction
import Mathlib.Tactic.Ring
import AdaptiveBatch.Decimal.Digits

/-!
# Digits and what they stand for

A run of digits is read back as the number that was written, zeros in front make no
difference, and each zero behind is a factor of ten.
-/

namespace AdaptiveBatch
namespace Decimal

theorem digitValue_digit {d : Nat} (hd : d < 10) : digitValue (digit d) = d := by
  revert hd
  revert d
  decide

theorem isDigit_digit {d : Nat} (hd : d < 10) : isDigit (digit d) = true := by
  revert hd
  revert d
  decide

theorem digit_ne_zero {d : Nat} (hd : d < 10) (hpos : 0 < d) : digit d ≠ '0' := by
  revert hd hpos
  revert d
  decide

theorem digitValue_lt {c : Char} (hc : isDigit c = true) : digitValue c < 10 := by
  have hnine : c.toNat ≤ 57 := by
    simp only [isDigit, Bool.and_eq_true, decide_eq_true_eq] at hc
    exact hc.2
  unfold digitValue
  omega

/-! ## Values -/

theorem value_concat (cs : List Char) (c : Char) :
    value (cs ++ [c]) = value cs * 10 + digitValue c := by
  simp only [value, List.foldl_append, List.foldl_cons, List.foldl_nil]

theorem value_append (as bs : List Char) :
    value (as ++ bs) = value as * 10 ^ bs.length + value bs := by
  induction bs using List.reverseRecOn with
  | nil => simp [value]
  | append_singleton bs b ih =>
    rw [← List.append_assoc, value_concat, ih, value_concat, List.length_append,
      List.length_singleton, pow_succ]
    ring

theorem value_zeros (n : Nat) : value (List.replicate n '0') = 0 := by
  induction n with
  | zero => rfl
  | succ n ih =>
    rw [List.replicate_succ', value_concat, ih]
    rfl

theorem value_lt {cs : List Char} (hcs : ∀ c ∈ cs, isDigit c = true) :
    value cs < 10 ^ cs.length := by
  induction cs using List.reverseRecOn with
  | nil => decide
  | append_singleton cs c ih =>
    have hlast := digitValue_lt (hcs c (by simp))
    have hinit := ih fun d hd => hcs d (by simp [hd])
    rw [value_concat, List.length_append, List.length_singleton, pow_succ]
    omega

/-! ## The digits of a number -/

theorem digits_of_lt {n : Nat} (hn : n < 10) : digits n = [digit n] := by
  rw [digits, if_pos hn]

theorem digits_of_le {n : Nat} (hn : 10 ≤ n) : digits n = digits (n / 10) ++ [digit (n % 10)] := by
  rw [digits, if_neg (by omega)]

theorem digits_ne_nil (n : Nat) : digits n ≠ [] := by
  by_cases hn : n < 10
  · rw [digits_of_lt hn]
    exact List.cons_ne_nil _ _
  · rw [digits_of_le (by omega)]
    exact List.append_ne_nil_of_right_ne_nil _ (List.cons_ne_nil _ _)

theorem value_digits (n : Nat) : value (digits n) = n := by
  induction n using Nat.strong_induction_on with
  | _ n ih =>
    by_cases hn : n < 10
    · rw [digits_of_lt hn]
      exact (Nat.zero_add _).trans (digitValue_digit hn)
    · rw [digits_of_le (by omega), value_concat, ih (n / 10) (by omega),
        digitValue_digit (Nat.mod_lt n (by decide))]
      omega

theorem isDigit_digits {n : Nat} : ∀ c ∈ digits n, isDigit c = true := by
  induction n using Nat.strong_induction_on with
  | _ n ih =>
    intro c hc
    by_cases hn : n < 10
    · rw [digits_of_lt hn, List.mem_singleton] at hc
      rw [hc]
      exact isDigit_digit hn
    · rw [digits_of_le (by omega), List.mem_append, List.mem_singleton] at hc
      rcases hc with hc | rfl
      · exact ih (n / 10) (by omega) c hc
      · exact isDigit_digit (Nat.mod_lt n (by decide))

theorem digits_length_pos (n : Nat) : 0 < (digits n).length :=
  List.length_pos_iff.mpr (digits_ne_nil n)

theorem lt_pow_digits_length (n : Nat) : n < 10 ^ (digits n).length := by
  have hlt := value_lt (isDigit_digits (n := n))
  rwa [value_digits] at hlt

theorem pow_digits_length_le {n : Nat} (hn : 0 < n) : 10 ^ ((digits n).length - 1) ≤ n := by
  induction n using Nat.strong_induction_on with
  | _ n ih =>
    by_cases hsmall : n < 10
    · rw [digits_of_lt hsmall]
      exact hn
    · have hrest := ih (n / 10) (by omega) (by omega)
      have hlen := digits_length_pos (n / 10)
      rw [digits_of_le (by omega), List.length_append, List.length_singleton,
        Nat.add_sub_cancel]
      have hsucc : (digits (n / 10)).length = (digits (n / 10)).length - 1 + 1 := by omega
      rw [hsucc, pow_succ]
      omega

/-- Only zero begins with a zero. -/
theorem head_digits {n : Nat} (hn : 0 < n) (c : Char) (cs : List Char)
    (h : digits n = c :: cs) : c ≠ '0' := by
  induction n using Nat.strong_induction_on generalizing c cs with
  | _ n ih =>
    by_cases hsmall : n < 10
    · rw [digits_of_lt hsmall, List.cons.injEq] at h
      rw [← h.1]
      exact digit_ne_zero hsmall hn
    · rw [digits_of_le (by omega)] at h
      obtain ⟨d, ds, hd⟩ := List.exists_cons_of_ne_nil (digits_ne_nil (n / 10))
      rw [hd, List.cons_append, List.cons.injEq] at h
      rw [← h.1]
      exact ih (n / 10) (by omega) (by omega) d ds hd

/-! ## Taking digits off a text -/

theorem takeDigits_append {ds r : List Char} (hds : ∀ c ∈ ds, isDigit c = true)
    (hr : ∀ c ∈ r.head?, isDigit c = false) : takeDigits (ds ++ r) = (ds, r) := by
  have hstop : r.takeWhile isDigit = [] ∧ r.dropWhile isDigit = r := by
    cases r with
    | nil => exact ⟨rfl, rfl⟩
    | cons c r =>
      have hc := hr c rfl
      simp [hc]
  unfold takeDigits
  rw [List.takeWhile_append_of_pos hds, List.dropWhile_append_of_pos hds, hstop.1, hstop.2,
    List.append_nil]

end Decimal
end AdaptiveBatch
