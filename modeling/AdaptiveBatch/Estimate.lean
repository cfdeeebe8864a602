import AdaptiveBatch.Number

/-!
# The latency estimate

One probe of the sink measures one round trip.  Nine tenths of it are taken for
the cost of any call, the last tenth for the cost of one item.
-/

namespace AdaptiveBatch

/-- What a sink call is expected to cost, in milliseconds. -/
structure Estimate (ν : Type) where
  /-- The cost of a call, however many items it carries. -/
  latency : ν
  /-- The cost of each item on top. -/
  perItem : ν
  deriving DecidableEq, Repr

namespace Estimate

variable {ν : Type} [Number ν]

/-- The estimate after a probe that took `probe` milliseconds. -/
def ofProbe (probe : ν) : Estimate ν := { latency := 0.9 * probe, perItem := 0.1 * probe }

/-- Before the first probe nothing is known to cost anything. -/
def zero : Estimate ν := { latency := Number.ofCount 0, perItem := Number.ofCount 0 }

end Estimate
end AdaptiveBatch
