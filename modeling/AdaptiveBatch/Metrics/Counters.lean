/-!
# The engine's counters

Ten counters of 64 bits, which wrap.
-/

namespace AdaptiveBatch
namespace Metrics

structure Counters where
  directCalls : UInt64 := 0
  directItems : UInt64 := 0
  bufferedItems : UInt64 := 0
  batchFlushes : UInt64 := 0
  singleFlushes : UInt64 := 0
  flushedItems : UInt64 := 0
  skippedTicks : UInt64 := 0
  probes : UInt64 := 0
  probeFailures : UInt64 := 0
  flushFailures : UInt64 := 0
  deriving DecidableEq, Repr

namespace Counters

/-- A direct call that has returned, whatever it returned. -/
def direct (c : Counters) (items : Nat) : Counters :=
  { c with directCalls := c.directCalls + 1, directItems := c.directItems + items.toUInt64 }

def buffered (c : Counters) (items : Nat) : Counters :=
  { c with bufferedItems := c.bufferedItems + items.toUInt64 }

/-- A flush that has returned; one of more than one item was a batch. -/
def flushed (c : Counters) (items : Nat) : Counters :=
  let c := { c with flushedItems := c.flushedItems + items.toUInt64 }
  if 1 < items then { c with batchFlushes := c.batchFlushes + 1 }
  else { c with singleFlushes := c.singleFlushes + 1 }

def skippedTick (c : Counters) : Counters := { c with skippedTicks := c.skippedTicks + 1 }

def probed (c : Counters) : Counters := { c with probes := c.probes + 1 }

def probeFailed (c : Counters) : Counters := { c with probeFailures := c.probeFailures + 1 }

def flushFailed (c : Counters) : Counters := { c with flushFailures := c.flushFailures + 1 }

/-- The items that the sink has been handed, directly or by a flush. -/
def delivered (c : Counters) : UInt64 := c.directItems + c.flushedItems

end Counters
end Metrics
end AdaptiveBatch
