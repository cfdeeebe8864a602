import AdaptiveBatch.Metrics.Tally
import AdaptiveBatch.Proofs.Metrics.Counters
import AdaptiveBatch.Proofs.Metrics.RunningStats

/-!
# What a tally says of the calls on it

Each kind of call moves some of the counters and some of the statistics of a tally.  What
they come to is read off the list of calls since the last reset, field by field, so the
fields agree with each other, and the order of the calls is of no account.
-/

namespace AdaptiveBatch
namespace Metrics

attribute [ext] Tally

namespace Tally

/-- A call of the sink, as its tally has it. -/
inductive Call (ν : Type) where
  | direct (items : Nat) (cost : ν)
  | batch (items : Nat) (cost : ν)
  | single (cost : ν)

namespace Call

variable {ν : Type}

def items : Call ν → Nat
  | .direct n _ | .batch n _ => n
  | .single _ => 1

def cost : Call ν → ν
  | .direct _ c | .batch _ c | .single c => c

/-- The size of a flush. -/
def flushed? : Call ν → Option Nat
  | .direct .. => none
  | .batch n _ => some n
  | .single _ => some 1

def isDirect : Call ν → Bool
  | .direct .. => true
  | _ => false

def isBatch : Call ν → Bool
  | .batch .. => true
  | _ => false

def isSingle : Call ν → Bool
  | .single _ => true
  | _ => false

end Call

/-- What may be done to a tally. -/
inductive Act (ν : Type) where
  | record (call : Call ν)
  | reset

section Replay

variable {ν : Type} [Number ν]

def record (t : Tally ν) : Call ν → Tally ν
  | .direct n c => t.direct n c
  | .batch n c => t.batch n c
  | .single c => t.single c

def act (t : Tally ν) : Act ν → Tally ν
  | .record c => t.record c
  | .reset => .empty

/-- A tally of these calls. -/
def ofCalls (calls : List (Call ν)) : Tally ν := calls.foldl record empty

theorem ofCalls_concat (calls : List (Call ν)) (c : Call ν) :
    ofCalls (calls ++ [c]) = (ofCalls calls).record c := by
  rw [ofCalls, List.foldl_append]
  rfl

/-- Each field of a tally, from the list of its calls. -/
structure Counts (calls : List (Call ν)) (t : Tally ν) : Prop where
  directCalls : t.directCalls = (calls.countP Call.isDirect).toUInt64
  batchCalls : t.batchCalls = (calls.countP Call.isBatch).toUInt64
  singleCalls : t.singleCalls = (calls.countP Call.isSingle).toUInt64
  totalItems : t.totalItems = (calls.map Call.items).sum.toUInt64
  batchSizes : t.batchSizes =
    RunningStats.ofList ((calls.filterMap Call.flushed?).map Number.ofCount)
  callCosts : t.callCosts = RunningStats.ofList (calls.map Call.cost)

omit [Number ν] in
theorem countP_concat (p : Call ν → Bool) (calls : List (Call ν)) (c : Call ν) :
    ((calls ++ [c]).countP p).toUInt64 =
      (calls.countP p).toUInt64 + (if p c then 1 else 0) := by
  rw [List.countP_append, List.countP_singleton, toUInt64_add]
  split <;> rfl

omit [Number ν] in
theorem items_concat (calls : List (Call ν)) (c : Call ν) :
    ((calls ++ [c]).map Call.items).sum.toUInt64 =
      (calls.map Call.items).sum.toUInt64 + c.items.toUInt64 := by
  rw [List.map_append, List.sum_append, toUInt64_add]
  rfl

theorem sizes_concat (calls : List (Call ν)) (c : Call ν) :
    RunningStats.ofList (((calls ++ [c]).filterMap Call.flushed?).map Number.ofCount) =
      match c.flushed? with
      | none => RunningStats.ofList ((calls.filterMap Call.flushed?).map Number.ofCount)
      | some n =>
        (RunningStats.ofList ((calls.filterMap Call.flushed?).map Number.ofCount) :
          RunningStats ν).push (Number.ofCount n) := by
  rw [List.filterMap_append, List.map_append]
  cases hflushed : c.flushed? with
  | none =>
    rw [List.filterMap_cons_none hflushed]
    exact congrArg _ (List.append_nil _)
  | some n =>
    rw [List.filterMap_cons_some hflushed]
    exact RunningStats.ofList_concat _ _

theorem costs_concat (calls : List (Call ν)) (c : Call ν) :
    RunningStats.ofList ((calls ++ [c]).map Call.cost) =
      (RunningStats.ofList (calls.map Call.cost)).push c.cost := by
  rw [List.map_append]
  exact RunningStats.ofList_concat _ _

theorem counts_record {calls : List (Call ν)} {t : Tally ν} (h : Counts calls t)
    (c : Call ν) : Counts (calls ++ [c]) (t.record c) := by
  obtain ⟨hdirect, hbatch, hsingle, hitems, hsizes, hcosts⟩ := h
  constructor
  · rw [countP_concat, ← hdirect]
    cases c <;> simp [record, direct, batch, single, Call.isDirect]
  · rw [countP_concat, ← hbatch]
    cases c <;> simp [record, direct, batch, single, Call.isBatch]
  · rw [countP_concat, ← hsingle]
    cases c <;> simp [record, direct, batch, single, Call.isSingle]
  · rw [items_concat, ← hitems]
    cases c <;> rfl
  · rw [sizes_concat, ← hsizes]
    cases c <;> rfl
  · rw [costs_concat, ← hcosts]
    cases c <;> rfl

theorem counts_ofCalls (calls : List (Call ν)) : Counts calls (ofCalls calls) := by
  induction calls using List.reverseRecOn with
  | nil => exact ⟨rfl, rfl, rfl, rfl, rfl, rfl⟩
  | append_singleton calls c ih =>
    rw [ofCalls_concat]
    exact counts_record ih c

omit [Number ν] in
theorem kinds_length (calls : List (Call ν)) :
    calls.countP Call.isDirect + calls.countP Call.isBatch + calls.countP Call.isSingle =
      calls.length := by
  induction calls with
  | nil => rfl
  | cons c calls ih =>
    rw [List.countP_cons, List.countP_cons, List.countP_cons, List.length_cons, ← ih]
    cases c <;> simp [Call.isDirect, Call.isBatch, Call.isSingle] <;> omega

omit [Number ν] in
theorem flushed_length (calls : List (Call ν)) :
    (calls.filterMap Call.flushed?).length =
      calls.countP Call.isBatch + calls.countP Call.isSingle := by
  induction calls with
  | nil => rfl
  | cons c calls ih =>
    rw [List.filterMap_cons, List.countP_cons, List.countP_cons]
    cases c <;> simp [Call.flushed?, Call.isBatch, Call.isSingle, ih] <;> omega

end Replay

/-! ## Statistics of any values, none included -/

theorem count_mul_mean {values : List Rat} (counted : values.length < 2 ^ 64) :
    (values.length : Rat) * (RunningStats.ofList values).mean = values.sum := by
  by_cases empty : values = []
  · rw [empty]
    exact zero_mul _
  · have hn : (values.length : Rat) ≠ 0 := by
      exact_mod_cast (List.length_pos_iff.mpr empty).ne'
    rw [RunningStats.mean_ofList empty counted, mul_div_cancel₀ _ hn]

section Accounted

variable {calls : List (Call Rat)} (few : calls.length < 2 ^ 64)

include few

theorem flushed_counted :
    ((calls.filterMap Call.flushed?).map (Number.ofCount : Nat → Rat)).length < 2 ^ 64 := by
  have hkinds := kinds_length calls
  rw [List.length_map, flushed_length]
  omega

/-- The count of the flush sizes and their mean make up the items of the flushes. -/
theorem flushed_items :
    ((ofCalls calls).batchSizes.count.toNat : Rat) * (ofCalls calls).batchSizes.mean =
      (calls.filterMap Call.flushed?).sum := by
  have hcounted := flushed_counted few
  have hcast : ((calls.filterMap Call.flushed?).map (Number.ofCount : Nat → Rat)).sum =
      (calls.filterMap Call.flushed?).sum := (Nat.cast_list_sum _).symm
  rw [(counts_ofCalls calls).batchSizes, RunningStats.count_ofList hcounted,
    count_mul_mean hcounted, hcast]

end Accounted

end Tally
end Metrics
end AdaptiveBatch
