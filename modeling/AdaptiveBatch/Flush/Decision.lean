import AdaptiveBatch.Config.Settings
import AdaptiveBatch.Estimate

/-!
# Flush or wait

Once per tick the scheduler asks whether the buffered items should go now.  The
model compares what a call costs now with what it would cost one wait later, when
more items have come.  Times are milliseconds and rates are items per
millisecond.
-/

namespace AdaptiveBatch
namespace Flush

/-- What a tick knows. -/
structure Inputs (ν : Type) where
  /-- The wait that led to this tick. -/
  wait : ν
  /-- The items in the buffer. -/
  size : Nat
  /-- The waits since the last flush, without this one. -/
  lost : ν
  /-- All items that ever came, and the time in which they came. -/
  total : ν
  elapsed : ν
  estimate : Estimate ν
  draining : Bool

/-- The conditions that call for a flush; any one of them does. -/
structure Reasons where
  /-- Items come more slowly than a call takes. -/
  arrivalSlower : Bool
  /-- One wait later fewer items would go per millisecond. -/
  throughputDrop : Bool
  /-- Waiting saves less per item than a call costs. -/
  marginalGain : Bool
  /-- An item already takes longer than allowed. -/
  ceiling : Bool
  draining : Bool
  deriving DecidableEq, Repr

def Reasons.any (r : Reasons) : Bool :=
  r.arrivalSlower || r.throughputDrop || r.marginalGain || r.ceiling || r.draining

/-- The one name that a flush is recorded under. -/
inductive Reason where
  | draining
  | ceiling
  | arrivalSlower
  | throughputDrop
  | marginalGain
  | none
  deriving DecidableEq, Repr

def Reason.name : Reason → String
  | .draining => "draining"
  | .ceiling => "ceiling"
  | .arrivalSlower => "arrival_slower"
  | .throughputDrop => "throughput_drop"
  | .marginalGain => "marginal_gain"
  | .none => "none"

/-- The reason that outranks the others. -/
def Reasons.primary (r : Reasons) : Reason :=
  if r.draining then .draining
  else if r.ceiling then .ceiling
  else if r.arrivalSlower then .arrivalSlower
  else if r.throughputDrop then .throughputDrop
  else if r.marginalGain then .marginalGain
  else .none

structure Evaluation (ν : Type) where
  /-- The waits since the last flush, with this one. -/
  lost : ν
  idealItemsPerMilli : ν
  idealMillisPerItem : ν
  longestSend : ν
  itemsPerMilli : ν
  averageItem : ν
  nextLongestSend : ν
  nextItemsPerMilli : ν
  nextAverageItem : ν
  reasons : Reasons

def Evaluation.shouldFlush {ν : Type} (e : Evaluation ν) : Bool := e.reasons.any

variable {ν : Type} [Number ν]

/-- A denominator: zero, of either sign, gives way to a tiny number. -/
def nonzero (a : ν) : ν :=
  if Number.same a (Number.ofCount 0) then a + 1e-21 else a

def evaluate (i : Inputs ν) (itemCeiling : ν) (projection : Projection) : Evaluation ν :=
  let latency := i.estimate.latency
  let perItem := i.estimate.perItem
  let size : ν := Number.ofCount i.size
  let lost := i.lost + i.wait
  let idealItemsPerMilli := i.total / nonzero i.elapsed
  let idealMillisPerItem := 1.0 / nonzero idealItemsPerMilli
  let longestSend := lost + latency + size * perItem
  let itemsPerMilli := size / nonzero longestSend
  let averageItem := longestSend / nonzero size
  let projectedSize := size + i.wait * idealItemsPerMilli
  let nextLongestSend := lost + latency + i.wait + projectedSize * perItem
  let nextItemsPerMilli := projectedSize / nonzero nextLongestSend
  let nextAverageItem :=
    match projection with
    | .reference => longestSend / nonzero projectedSize
    | .corrected => nextLongestSend / nonzero projectedSize
  { lost, idealItemsPerMilli, idealMillisPerItem, longestSend, itemsPerMilli, averageItem
    nextLongestSend, nextItemsPerMilli, nextAverageItem
    reasons :=
      { arrivalSlower := Number.less latency idealMillisPerItem
        throughputDrop := Number.less nextItemsPerMilli itemsPerMilli
        marginalGain := Number.less (averageItem - nextAverageItem) latency
        ceiling := Number.less itemCeiling averageItem
        draining := i.draining } }

end Flush
end AdaptiveBatch
