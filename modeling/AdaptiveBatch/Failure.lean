import AdaptiveBatch.Fault
import AdaptiveBatch.Power

/-!
# Failures without a caller

Probes, flushes and the closing of the sink happen in the background, where no
caller waits for an answer.  What fails there is published as an event.
-/

namespace AdaptiveBatch

inductive Stage where
  | probe
  | flush
  | close
  deriving DecidableEq, Repr

def Stage.name : Stage → String
  | .probe => "probe"
  | .flush => "flush"
  | .close => "close"

structure FailureEvent (ν : Type) where
  /-- The engine that saw it. -/
  batcher : String
  stage : Stage
  /-- The items lost with a delivery; a probe or a close loses none. -/
  items : Nat
  error : EngineError ν
  deriving DecidableEq, Repr

/-- How many events a channel keeps for its slowest receiver: its capacity,
rounded up to a power of two. -/
def retained (capacity : Nat) : Nat := if capacity ≤ 1 then 1 else twoPow ((capacity - 1).log2 + 1)

/-- The largest capacity that a channel can be made with. -/
def greatestCapacity : Nat := (wordCount - 1) / 2

/-- A receiver that has had the first `seen` of the events published so far.  If
more have come since than the channel keeps, the oldest of those are lost to it:
it learns how many, and goes on with the rest. -/
def receive {α : Type} (capacity seen : Nat) (published : List α) : Nat × List α :=
  let fresh := published.drop seen
  let lost := fresh.length - retained capacity
  (lost, fresh.drop lost)

end AdaptiveBatch
