import Mathlib.Algebra.Order.BigOperators.Group.List
import Mathlib.Order.Bounds.Basic
import Mathlib.Tactic.FieldSimp
import Mathlib.Tactic.Linarith
import Mathlib.Tactic.Ring
import AdaptiveBatch.Metrics.RunningStats
import AdaptiveBatch.Proofs.Decimal.Order

/-!
# What running statistics say of their values

Over exact numbers the mean and the variance that are kept value by value are those of the
definition, so the order of the values is of no account.  The extremes are those of the
values that are defined, whichever came first.  The count has 64 bits, and statistics of more
values than it counts start again.
-/

namespace AdaptiveBatch
namespace Metrics

attribute [ext] RunningStats

namespace RunningStats

/-! ## One value more -/

section Push

variable {ν : Type} [Number ν]

/-- The statistics of a sequence of values. -/
def ofList (values : List ν) : RunningStats ν := values.foldl push empty

theorem ofList_concat (values : List ν) (v : ν) :
    ofList (values ++ [v]) = (ofList values).push v := by
  rw [ofList, List.foldl_append]
  rfl

theorem count_push (s : RunningStats ν) (v : ν) : (s.push v).count = s.count + 1 := by
  rw [push]
  split <;> rfl

theorem push_first {s : RunningStats ν} (fresh : s.count = 0) (v : ν) :
    s.push v =
      { count := 1, average := v, squares := Number.ofCount 0, least := v, greatest := v } := by
  rw [push, fresh]
  rfl

theorem push_later {s : RunningStats ν} {n : Nat} (seen : s.count.toNat = n) (some : 0 < n)
    (counted : n + 1 < 2 ^ 64) (v : ν) :
    s.push v =
      { count := s.count + 1
        average := s.average + (v - s.average) / Number.ofCount (n + 1)
        squares := s.squares +
          (v - s.average) * (v - (s.average + (v - s.average) / Number.ofCount (n + 1)))
        least := Number.least s.least v
        greatest := Number.greatest s.greatest v } := by
  have hcount : (s.count + 1).toNat = n + 1 := by
    rw [UInt64.toNat_add, seen]
    exact Nat.mod_eq_of_lt counted
  have hne : ¬ s.count + 1 = 1 := by
    intro h
    rw [h] at hcount
    have hone : (1 : UInt64).toNat = 1 := rfl
    omega
  rw [push, if_neg hne, hcount]

/-- The count goes round. -/
theorem count_ofList_mod (values : List ν) :
    (ofList values).count.toNat = values.length % 2 ^ 64 := by
  induction values using List.reverseRecOn with
  | nil => rfl
  | append_singleton values v ih =>
    rw [List.length_append, List.length_singleton, ofList_concat, count_push,
      UInt64.toNat_add, ih]
    exact Nat.mod_add_mod _ _ _

theorem count_ofList {values : List ν} (counted : values.length < 2 ^ 64) :
    (ofList values).count.toNat = values.length :=
  (count_ofList_mod values).trans (Nat.mod_eq_of_lt counted)

end Push

/-! ## Mean and variance -/

/-- The sum of the squared deviations from `a`. -/
def deviations (values : List Rat) (a : Rat) : Rat := (values.map fun v => (v - a) ^ 2).sum

theorem deviations_concat (values : List Rat) (v a : Rat) :
    deviations (values ++ [v]) a = deviations values a + (v - a) ^ 2 := by
  rw [deviations, deviations, List.map_append, List.sum_append, List.map_singleton,
    List.sum_singleton]

theorem deviations_nonneg (values : List Rat) (a : Rat) : 0 ≤ deviations values a := by
  refine List.sum_nonneg ?_
  intro d hd
  obtain ⟨v, -, rfl⟩ := List.mem_map.mp hd
  exact sq_nonneg _

theorem deviations_shift (values : List Rat) (a b : Rat) :
    deviations values b = deviations values a +
      2 * (a - b) * (values.sum - values.length * a) + values.length * (a - b) ^ 2 := by
  induction values using List.reverseRecOn with
  | nil => simp [deviations]
  | append_singleton values v ih =>
    rw [deviations_concat, deviations_concat, ih, List.sum_append, List.sum_singleton,
      List.length_append, List.length_singleton]
    push_cast
    ring

/-- What the average and the squares are kept for. -/
structure Welford (values : List Rat) (s : RunningStats Rat) : Prop where
  average : s.average = values.sum / values.length
  squares : s.squares = deviations values (values.sum / values.length)

theorem welford_first {s : RunningStats Rat} (fresh : s.count = 0) (v : Rat) :
    Welford [v] (s.push v) := by
  rw [push_first fresh]
  constructor
  · simp
  · show (0 : Rat) = _
    simp [deviations]

theorem welford_later {values : List Rat} {s : RunningStats Rat} (filled : values ≠ [])
    (seen : s.count.toNat = values.length) (counted : values.length + 1 < 2 ^ 64)
    (h : Welford values s) (v : Rat) : Welford (values ++ [v]) (s.push v) := by
  have hlength : 0 < values.length := List.length_pos_iff.mpr filled
  have hn : (values.length : Rat) ≠ 0 := by exact_mod_cast hlength.ne'
  have hn' : (values.length : Rat) + 1 ≠ 0 := by positivity
  have hmean : (values ++ [v]).sum / (values ++ [v]).length =
      s.average + (v - s.average) / (values.length + 1) := by
    rw [List.sum_append, List.sum_singleton, List.length_append, List.length_singleton, h.average]
    push_cast
    field_simp
    ring
  have hcast : (Number.ofCount (values.length + 1) : Rat) = values.length + 1 :=
    Nat.cast_succ _
  rw [push_later seen hlength counted, hcast]
  constructor
  · rw [hmean]
  · rw [hmean]
    -- the deviations from the old mean add up to zero, so moving to the new one adds its square
    have hzero : values.sum - values.length * s.average = 0 := by
      rw [h.average]
      field_simp
      ring
    rw [deviations_concat, deviations_shift values s.average, hzero, h.squares, ← h.average]
    field_simp
    ring

theorem welford_ofList {values : List Rat} (filled : values ≠ [])
    (counted : values.length < 2 ^ 64) : Welford values (ofList values) := by
  induction values using List.reverseRecOn with
  | nil => exact absurd rfl filled
  | append_singleton values v ih =>
    rw [List.length_append, List.length_singleton] at counted
    rw [ofList_concat]
    by_cases hempty : values = []
    · rw [hempty, List.nil_append]
      exact welford_first rfl v
    · exact welford_later hempty (count_ofList (by omega)) counted (ih hempty (by omega)) v

/-! ## Extremes -/

section Extremes

variable {ν : Type} [Number ν] {before : ν → ν → Bool}

/-- A comparison that puts all defined values in order, some of them in one place. -/
structure Orders (before : ν → ν → Bool) : Prop where
  irrefl : ∀ {a}, Number.isUndefined a = false → before a a = false
  asymm : ∀ {a b}, before a b = true → before b a = false
  trans : ∀ {a b c}, Number.isUndefined a = false → Number.isUndefined b = false →
    Number.isUndefined c = false → before b a = false → before c b = false → before c a = false

theorem Orders.swap (h : Orders before) : Orders fun a b => before b a :=
  ⟨h.irrefl, h.asymm, fun ha hb hc hba hcb => h.trans hc hb ha hcb hba⟩

/-- Of two values the one that comes first, where an undefined one gives way. -/
def pick (before : ν → ν → Bool) (a b : ν) : ν :=
  if Number.isUndefined a then b
  else if Number.isUndefined b then a
  else if before b a then b
  else a

theorem least_eq (a b : ν) : Number.least a b = pick Number.less a b := rfl

theorem greatest_eq (a b : ν) : Number.greatest a b = pick (fun a b => Number.less b a) a b := rfl

/-- One of the values, and none that is defined comes before it. -/
structure Leads (before : ν → ν → Bool) (values : List ν) (x : ν) : Prop where
  mem : x ∈ values
  defined : Number.isUndefined x = true → ∀ v ∈ values, Number.isUndefined v = true
  first : ∀ v ∈ values, Number.isUndefined v = false → before v x = false

theorem leads_singleton (ordered : Orders before) (v : ν) : Leads before [v] v := by
  refine ⟨List.mem_singleton_self v, ?_, ?_⟩
  · intro undefined w hw
    rw [List.mem_singleton.mp hw, undefined]
  · intro w hw hdefined
    obtain rfl := List.mem_singleton.mp hw
    exact ordered.irrefl hdefined

omit [Number ν] in
theorem mem_concat {values : List ν} {v w : ν} (h : w ∈ values ++ [v]) : w ∈ values ∨ w = v :=
  (List.mem_append.mp h).imp_right List.mem_singleton.mp

/-- A new value leads if there was none, or if it comes before the one that led. -/
theorem leads_new (ordered : Orders before) {values : List ν} {x v : ν}
    (h : Leads before values x)
    (gives : Number.isUndefined x = true ∨ Number.isUndefined x = false ∧
      Number.isUndefined v = false ∧ before v x = true) : Leads before (values ++ [v]) v := by
  refine ⟨List.mem_append_right _ List.mem_cons_self, ?_, ?_⟩
  · intro hundefined w hw
    rcases mem_concat hw with hw | rfl
    · rcases gives with hx | ⟨-, hv, -⟩
      · exact h.defined hx w hw
      · rw [hv] at hundefined
        cases hundefined
    · exact hundefined
  · intro w hw hdefined
    rcases mem_concat hw with hw | rfl
    · rcases gives with hx | ⟨hx, hv, hbefore⟩
      · rw [h.defined hx w hw] at hdefined
        cases hdefined
      · exact ordered.trans hv hx hdefined (ordered.asymm hbefore) (h.first w hw hdefined)
    · exact ordered.irrefl hdefined

/-- The value that led goes on to lead unless the new one comes before it. -/
theorem leads_old {values : List ν} {x v : ν} (h : Leads before values x)
    (defined : Number.isUndefined x = false)
    (stays : Number.isUndefined v = true ∨ before v x = false) :
    Leads before (values ++ [v]) x := by
  refine ⟨List.mem_append_left _ h.mem, fun hundefined => ?_, ?_⟩
  · rw [defined] at hundefined
    cases hundefined
  · intro w hw hdefined
    rcases mem_concat hw with hw | rfl
    · exact h.first w hw hdefined
    · rcases stays with hw | hbefore
      · rw [hw] at hdefined
        cases hdefined
      · exact hbefore

theorem leads_concat (ordered : Orders before) {values : List ν} {x : ν}
    (h : Leads before values x) (v : ν) : Leads before (values ++ [v]) (pick before x v) := by
  rw [pick]
  split
  · rename_i hx
    exact leads_new ordered h (.inl hx)
  · rename_i hx
    rw [Bool.not_eq_true] at hx
    split
    · rename_i hv
      exact leads_old h hx (.inl hv)
    · rename_i hv
      rw [Bool.not_eq_true] at hv
      split
      · rename_i hbefore
        exact leads_new ordered h (.inr ⟨hx, hv, hbefore⟩)
      · rename_i hbefore
        rw [Bool.not_eq_true] at hbefore
        exact leads_old h hx (.inr hbefore)

theorem leads_ofList (ordered : Orders (Number.less : ν → ν → Bool)) {values : List ν}
    (filled : values ≠ []) (counted : values.length < 2 ^ 64) :
    Leads Number.less values (ofList values).least ∧
      Leads (fun a b => Number.less b a) values (ofList values).greatest := by
  induction values using List.reverseRecOn with
  | nil => exact absurd rfl filled
  | append_singleton values v ih =>
    rw [List.length_append, List.length_singleton] at counted
    rw [ofList_concat]
    by_cases hempty : values = []
    · rw [hempty, List.nil_append, push_first rfl]
      exact ⟨leads_singleton ordered v, leads_singleton ordered.swap v⟩
    · have hlength : 0 < values.length := List.length_pos_iff.mpr hempty
      obtain ⟨hleast, hgreatest⟩ := ih hempty (by omega)
      rw [push_later (count_ofList (by omega)) hlength counted, least_eq, greatest_eq]
      exact ⟨leads_concat ordered hleast v, leads_concat ordered.swap hgreatest v⟩

end Extremes

theorem orders_rat : Orders (Number.less : Rat → Rat → Bool) := by
  refine ⟨fun _ => decide_eq_false (lt_irrefl _), fun h => ?_, fun _ _ _ hba hcb => ?_⟩
  · exact decide_eq_false (lt_asymm (of_decide_eq_true h))
  · have hab := not_lt.mp (of_decide_eq_false hba)
    have hbc := not_lt.mp (of_decide_eq_false hcb)
    exact decide_eq_false (not_lt.mpr (hab.trans hbc))

theorem less_float {x y : Float} (hx : x.isNaN = false) (hy : y.isNaN = false) :
    Number.less x y = false ↔
      Decimal.rank y.toModel.unpack ≤ Decimal.rank x.toModel.unpack := by
  have hless : Number.less x y = decide (x < y) := rfl
  rw [hless, ← Bool.not_eq_true, Decimal.lt_iff_rank_unpack hx hy, not_lt]

theorem orders_float : Orders (Number.less : Float → Float → Bool) := by
  refine ⟨fun hx => (less_float hx hx).mpr le_rfl, fun {x y} h => ?_, fun ha hb hc hba hcb => ?_⟩
  · exact Decimal.lt_asymm h
  · rw [less_float hb ha] at hba
    rw [less_float hc hb] at hcb
    exact (less_float hc ha).mpr (hba.trans hcb)

theorem defined_of_leads {before : Float → Float → Bool} {values : List Float} {x w : Float}
    (h : Leads before values x) (hw : w ∈ values) (defined : w.isNaN = false) :
    x.isNaN = false := by
  rw [← Bool.not_eq_true]
  intro undefined
  have hundefined : w.isNaN = true := h.defined undefined w hw
  rw [defined] at hundefined
  cases hundefined

theorem isLeast_of_leads {values : List Float} {x w : Float}
    (h : Leads Number.less values x) (hw : w ∈ values) (defined : w.isNaN = false) :
    IsLeast {v | v ∈ values ∧ v.isNaN = false} x := by
  have hx := defined_of_leads h hw defined
  refine ⟨⟨h.mem, hx⟩, ?_⟩
  rintro v ⟨hv, hdefined⟩
  have hbelow : decide (v < x) = false := h.first v hv hdefined
  rw [← decide_eq_true_iff (p := x ≤ v), Decimal.decide_le_eq_not hx hdefined, hbelow]
  rfl

theorem isGreatest_of_leads {values : List Float} {x w : Float}
    (h : Leads (fun a b => Number.less b a) values x) (hw : w ∈ values)
    (defined : w.isNaN = false) : IsGreatest {v | v ∈ values ∧ v.isNaN = false} x := by
  have hx := defined_of_leads h hw defined
  refine ⟨⟨h.mem, hx⟩, ?_⟩
  rintro v ⟨hv, hdefined⟩
  have habove : decide (x < v) = false := h.first v hv hdefined
  rw [← decide_eq_true_iff (p := v ≤ x), Decimal.decide_le_eq_not hdefined hx, habove]
  rfl

/-! ## All that is reported -/

/-- Statistics that say of these values what they are meant to. -/
structure Describes (values : List Rat) (s : RunningStats Rat) : Prop where
  count : s.count.toNat = values.length
  mean : s.mean = values.sum / values.length
  alone : values.length = 1 → s.variance = 0
  variance : values.length ≠ 1 →
    s.variance = (values.map fun v => (v - values.sum / values.length) ^ 2).sum /
      (values.length - 1)
  nonneg : 0 ≤ s.variance
  least : IsLeast {v | v ∈ values} s.least
  greatest : IsGreatest {v | v ∈ values} s.greatest
  inside : s.least ≤ s.mean ∧ s.mean ≤ s.greatest
  /-- The order of the values is of no account. -/
  unordered : ∀ {others : List Rat}, values.Perm others → ofList others = s

section Described

variable {values : List Rat} (filled : values ≠ []) (counted : values.length < 2 ^ 64)

include filled counted

theorem mean_ofList : (ofList values).mean = values.sum / values.length := by
  have hcount := count_ofList counted
  have hlength : 0 < values.length := List.length_pos_iff.mpr filled
  have hne : ¬ (ofList values).count = 0 := by
    intro h
    rw [h] at hcount
    have hzero : (0 : UInt64).toNat = 0 := rfl
    omega
  rw [mean, if_neg hne]
  exact (welford_ofList filled counted).average

theorem variance_ofList :
    (ofList values).variance = if values.length = 1 then 0
      else deviations values (values.sum / values.length) / (values.length - 1) := by
  have hcount := count_ofList counted
  have hlength : 0 < values.length := List.length_pos_iff.mpr filled
  have hfew : (ofList values).count < 2 ↔ values.length = 1 := by
    rw [UInt64.lt_iff_toNat_lt, hcount]
    have htwo : (2 : UInt64).toNat = 2 := rfl
    omega
  rw [variance]
  by_cases hone : values.length = 1
  · rw [if_pos (hfew.mpr hone), if_pos hone]
    rfl
  · have hpred : ((ofList values).count - 1).toNat = values.length - 1 := by
      have hle : 1 ≤ (ofList values).count := by
        rw [UInt64.le_iff_toNat_le, hcount]
        exact hlength
      rw [UInt64.toNat_sub_of_le _ _ hle, hcount]
      rfl
    have hcast : (Number.ofCount (values.length - 1) : Rat) = values.length - 1 :=
      Nat.cast_pred hlength
    rw [if_neg (mt hfew.mp hone), if_neg hone, hpred, hcast,
      (welford_ofList filled counted).squares]

theorem isLeast_ofList : IsLeast {v | v ∈ values} (ofList values).least := by
  obtain ⟨hmem, -, hfirst⟩ := (leads_ofList orders_rat filled counted).1
  exact ⟨hmem, fun v hv => not_lt.mp (of_decide_eq_false (hfirst v hv rfl))⟩

theorem isGreatest_ofList : IsGreatest {v | v ∈ values} (ofList values).greatest := by
  obtain ⟨hmem, -, hfirst⟩ := (leads_ofList orders_rat filled counted).2
  exact ⟨hmem, fun v hv => not_lt.mp (of_decide_eq_false (hfirst v hv rfl))⟩

/-- The mean lies between the extremes. -/
theorem mean_between :
    (ofList values).least ≤ values.sum / values.length ∧
      values.sum / values.length ≤ (ofList values).greatest := by
  have hn : (0 : Rat) < values.length := by exact_mod_cast List.length_pos_iff.mpr filled
  rw [le_div_iff₀ hn, div_le_iff₀ hn, mul_comm, ← nsmul_eq_mul, mul_comm, ← nsmul_eq_mul]
  constructor
  · exact List.card_nsmul_le_sum _ _ (isLeast_ofList filled counted).2
  · exact List.sum_le_card_nsmul _ _ (isGreatest_ofList filled counted).2

theorem ofList_perm {others : List Rat} (h : values.Perm others) :
    ofList others = ofList values := by
  have hlength := h.length_eq
  have filled' : others ≠ [] := by
    intro hnil
    rw [hnil] at h
    exact filled h.eq_nil
  have counted' : others.length < 2 ^ 64 := hlength ▸ counted
  have hsame : {v | v ∈ others} = {v | v ∈ values} := Set.ext fun _ => h.mem_iff.symm
  have hw := welford_ofList filled counted
  have hw' := welford_ofList filled' counted'
  have hcount : (ofList others).count = (ofList values).count := by
    refine UInt64.toNat.inj ?_
    rw [count_ofList counted', count_ofList counted, hlength]
  have haverage : (ofList others).average = (ofList values).average := by
    rw [hw'.average, hw.average, h.sum_eq, hlength]
  have hsquares : (ofList others).squares = (ofList values).squares := by
    rw [hw'.squares, hw.squares, h.sum_eq, hlength]
    exact (h.map _).sum_eq.symm
  have hleast : (ofList others).least = (ofList values).least :=
    (hsame ▸ isLeast_ofList filled' counted').unique (isLeast_ofList filled counted)
  have hgreatest : (ofList others).greatest = (ofList values).greatest :=
    (hsame ▸ isGreatest_ofList filled' counted').unique (isGreatest_ofList filled counted)
  exact RunningStats.ext hcount haverage hsquares hleast hgreatest

end Described

/-- Exact statistics are those of the definition, and the extremes pass over what is
undefined. -/
theorem describes_of_counted :
    (∀ {values : List Rat}, values ≠ [] → values.length < 2 ^ 64 →
      Describes values (ofList values)) ∧
    ∀ {values : List Float}, values.length < 2 ^ 64 → (∃ v ∈ values, v.isNaN = false) →
      IsLeast {v | v ∈ values ∧ v.isNaN = false} (ofList values).least ∧
        IsGreatest {v | v ∈ values ∧ v.isNaN = false} (ofList values).greatest := by
  constructor
  · intro values filled counted
    have hmean := mean_ofList filled counted
    have hvariance := variance_ofList filled counted
    have hlength : (1 : Rat) ≤ values.length := by
      exact_mod_cast List.length_pos_iff.mpr filled
    refine ⟨count_ofList counted, hmean, ?_, ?_, ?_, isLeast_ofList filled counted,
      isGreatest_ofList filled counted, ?_, ofList_perm filled counted⟩
    · intro hone
      rw [hvariance, if_pos hone]
    · intro hone
      rw [hvariance, if_neg hone]
      rfl
    · rw [hvariance]
      split
      · exact le_rfl
      · exact div_nonneg (deviations_nonneg _ _) (sub_nonneg.mpr hlength)
    · rw [hmean]
      exact mean_between filled counted
  · rintro values counted ⟨w, hw, hdefined⟩
    obtain ⟨hleast, hgreatest⟩ := leads_ofList orders_float (List.ne_nil_of_mem hw) counted
    exact ⟨isLeast_of_leads hleast hw hdefined, isGreatest_of_leads hgreatest hw hdefined⟩

/-- Values with one that comes twice, and values of which the first and the last are
undefined. -/
theorem describes_of_repeated :
    ([3, 1, 4, 1] : List Rat) ≠ [] ∧ ([3, 1, 4, 1] : List Rat).length < 2 ^ 64 ∧
      Describes [3, 1, 4, 1] (ofList [3, 1, 4, 1]) ∧
      (ofList [3, 1, 4, 1] : RunningStats Rat).variance = 9 / 4 ∧
      ((0 / 0 : Float).isNaN = true ∧ ∃ v ∈ ([0 / 0, 2, -1, 0 / 0] : List Float), v.isNaN = false) ∧
      IsLeast {v | v ∈ ([0 / 0, 2, -1, 0 / 0] : List Float) ∧ v.isNaN = false}
        (ofList [0 / 0, 2, -1, 0 / 0] : RunningStats Float).least := by
  have hdefined : ∃ v ∈ ([0 / 0, 2, -1, 0 / 0] : List Float), v.isNaN = false :=
    ⟨2, List.mem_cons_of_mem _ List.mem_cons_self, by decide +kernel⟩
  exact ⟨nofun, by decide, describes_of_counted.1 nofun (by decide), by decide +kernel,
    ⟨by decide +kernel, hdefined⟩, (describes_of_counted.2 (by decide) hdefined).1⟩

end RunningStats
end Metrics
end AdaptiveBatch
