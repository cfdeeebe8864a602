import AdaptiveBatch.Metrics.RunningStats

/-!
# The tally of deliveries

A sink's own account of its calls: how many of each kind, the items they carried,
the sizes of the flushes and the cost of every call.
-/

namespace AdaptiveBatch
namespace Metrics

structure Tally (ν : Type) where
  directCalls : UInt64
  batchCalls : UInt64
  singleCalls : UInt64
  totalItems : UInt64
  /-- The sizes of flushes; a single item is a flush of one. -/
  batchSizes : RunningStats ν
  callCosts : RunningStats ν
  deriving DecidableEq, Repr

namespace Tally

variable {ν : Type} [Number ν]

def empty : Tally ν :=
  { directCalls := 0, batchCalls := 0, singleCalls := 0, totalItems := 0
    batchSizes := .empty, callCosts := .empty }

def direct (t : Tally ν) (items : Nat) (cost : ν) : Tally ν :=
  { t with
    directCalls := t.directCalls + 1
    totalItems := t.totalItems + items.toUInt64
    callCosts := t.callCosts.push cost }

def batch (t : Tally ν) (items : Nat) (cost : ν) : Tally ν :=
  { t with
    batchCalls := t.batchCalls + 1
    totalItems := t.totalItems + items.toUInt64
    batchSizes := t.batchSizes.push (Number.ofCount items)
    callCosts := t.callCosts.push cost }

def single (t : Tally ν) (cost : ν) : Tally ν :=
  { t with
    singleCalls := t.singleCalls + 1
    totalItems := t.totalItems + 1
    batchSizes := t.batchSizes.push (Number.ofCount 1)
    callCosts := t.callCosts.push cost }

def totalCalls (t : Tally ν) : UInt64 := t.directCalls + t.batchCalls + t.singleCalls

end Tally

structure DeliverySummary (ν : Type) where
  directCalls : UInt64
  batchCalls : UInt64
  singleCalls : UInt64
  totalItems : UInt64
  itemsPerCall : ν
  batchSize : Summary ν
  callCost : Summary ν
  deriving DecidableEq, Repr

def Tally.summary {ν : Type} [Number ν] [SquareRoot ν] (t : Tally ν) : DeliverySummary ν :=
  { directCalls := t.directCalls
    batchCalls := t.batchCalls
    singleCalls := t.singleCalls
    totalItems := t.totalItems
    itemsPerCall :=
      if t.totalCalls = 0 then Number.ofCount 0
      else Number.ofCount t.totalItems.toNat / Number.ofCount t.totalCalls.toNat
    batchSize := t.batchSizes.summary
    callCost := t.callCosts.summary }

end Metrics
end AdaptiveBatch
