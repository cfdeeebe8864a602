import AdaptiveBatch.Metrics.Counters

/-!
# What the counters count

Each operation adds to the counters that it is about.  Adding is adding of natural
numbers, read modulo the range of a counter.
-/

namespace AdaptiveBatch
namespace Metrics

theorem toUInt64_add (m n : Nat) : (m + n).toUInt64 = m.toUInt64 + n.toUInt64 :=
  UInt64.ofNat_add m n

namespace Counters

/-- A flush adds to two counters, the second of which depends on its size. -/
theorem flushed_eq (c : Counters) (items : Nat) :
    c.flushed items =
      { c with
        flushedItems := c.flushedItems + items.toUInt64
        batchFlushes := if 1 < items then c.batchFlushes + 1 else c.batchFlushes
        singleFlushes := if 1 < items then c.singleFlushes else c.singleFlushes + 1 } := by
  rw [flushed]
  by_cases many : 1 < items
  · simp [many]
  · simp [many]

/-- Either way a flush is one call more. -/
theorem flushed_calls (c : Counters) (items : Nat) :
    ∃ batches singles, batches + singles = c.batchFlushes + c.singleFlushes + 1 ∧
      c.flushed items =
        { c with
          flushedItems := c.flushedItems + items.toUInt64
          batchFlushes := batches
          singleFlushes := singles } := by
  refine ⟨_, _, ?_, flushed_eq c items⟩
  by_cases many : 1 < items
  · simp only [many, if_true]
    ac_rfl
  · simp only [many, if_false]
    ac_rfl

end Counters

/-! ## Counters that differ -/

/-- The counters `c` and `d` differ as `u` and `v` do, and only in the failed flushes. -/
structure Counters.Offset (u v c d : Counters) : Prop where
  rest : c = { d with flushFailures := c.flushFailures }
  failures : c.flushFailures + v.flushFailures = d.flushFailures + u.flushFailures

namespace Counters.Offset

variable {u v c d : Counters}

theorem symm (h : Offset u v c d) : Offset v u d c := by
  refine ⟨?_, h.failures.symm⟩
  rw [h.rest]

theorem direct (h : Offset u v c d) (items : Nat) : Offset u v (c.direct items) (d.direct items) :=
  ⟨congrArg (·.direct items) h.rest, h.failures⟩

theorem buffered (h : Offset u v c d) (items : Nat) :
    Offset u v (c.buffered items) (d.buffered items) :=
  ⟨congrArg (·.buffered items) h.rest, h.failures⟩

theorem flushed (h : Offset u v c d) (items : Nat) :
    Offset u v (c.flushed items) (d.flushed items) := by
  rw [flushed_eq, flushed_eq]
  refine ⟨?_, h.failures⟩
  have hrest := congrArg (·.flushed items) h.rest
  simpa only [flushed_eq] using hrest

theorem skippedTick (h : Offset u v c d) : Offset u v c.skippedTick d.skippedTick :=
  ⟨congrArg Counters.skippedTick h.rest, h.failures⟩

theorem probed (h : Offset u v c d) : Offset u v c.probed d.probed :=
  ⟨congrArg Counters.probed h.rest, h.failures⟩

theorem probeFailed (h : Offset u v c d) : Offset u v c.probeFailed d.probeFailed :=
  ⟨congrArg Counters.probeFailed h.rest, h.failures⟩

theorem flushFailed (h : Offset u v c d) : Offset u v c.flushFailed d.flushFailed := by
  refine ⟨?_, ?_⟩
  · show { c with flushFailures := c.flushFailures + 1 } = _
    rw [h.rest]
    rfl
  · show c.flushFailures + 1 + v.flushFailures = d.flushFailures + 1 + u.flushFailures
    calc c.flushFailures + 1 + v.flushFailures = c.flushFailures + v.flushFailures + 1 := by ac_rfl
      _ = d.flushFailures + u.flushFailures + 1 := by rw [h.failures]
      _ = d.flushFailures + 1 + u.flushFailures := by ac_rfl

end Counters.Offset
end Metrics
end AdaptiveBatch
