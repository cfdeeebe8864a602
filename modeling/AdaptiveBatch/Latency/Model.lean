import AdaptiveBatch.Estimate

/-!
# The latency model

The present estimate and the packing switch.  The first estimate whose latency is
above the threshold turns packing on, and nothing turns it off again.
-/

namespace AdaptiveBatch
namespace Latency

structure Model (ν : Type) where
  estimate : Estimate ν
  packing : Bool
  threshold : ν
  deriving DecidableEq, Repr

namespace Model

variable {ν : Type} [Number ν]

def initial (threshold : ν) : Model ν := { estimate := .zero, packing := false, threshold }

/-- Whether an answer of this size calls for packing. -/
def exceeds (m : Model ν) (probe : ν) : Bool :=
  Number.less m.threshold (Estimate.ofProbe probe).latency

/-- Takes in the answer of a probe. -/
def publish (m : Model ν) (probe : ν) : Model ν :=
  { m with estimate := .ofProbe probe, packing := m.packing || m.exceeds probe }

/-- Whether taking in this answer is what turns packing on. -/
def enables (m : Model ν) (probe : ν) : Bool := !m.packing && m.exceeds probe

end Model
end Latency
end AdaptiveBatch
