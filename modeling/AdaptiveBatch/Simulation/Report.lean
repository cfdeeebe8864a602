import AdaptiveBatch.Decimal.Instance
import AdaptiveBatch.Metrics.Report
import AdaptiveBatch.Simulation.Run

/-!
# The report of a simulation
-/

namespace AdaptiveBatch
namespace Simulation

/-- Delivered items per second; a run that took no time has no throughput. -/
def Stats.throughput {ν : Type} [Number ν] (s : Stats ν) : ν :=
  let seconds : ν := s.duration.toSeconds
  if Number.less (Number.ofCount 0) seconds then
    Number.ofCount s.delivery.totalItems.toNat / seconds
  else Number.ofCount 0

/-- The lines of one section, the last of them marked as such. -/
def sectionLines (title : String) (entries : List String) : List String :=
  title :: (entries.dropLast.map ("   ├─ " ++ ·) ++ (entries.getLast?.toList.map ("   └─ " ++ ·)))

def Stats.report (s : Stats Float) : String :=
  let n (x : UInt64) := Decimal.natText x.toNat
  Metrics.lines <|
    ["", "=== Simulation Statistics ===", ""] ++
    sectionLines "Overview" [
      "Duration: " ++ Decimal.fixed 2 s.duration.toSeconds ++ "s",
      "Items offered: " ++ Decimal.natText s.itemsOffered,
      "Items delivered: " ++ n s.delivery.totalItems,
      "Throughput: " ++ Decimal.fixed 1 s.throughput ++ " items/s",
      "Packing mode: " ++ (if s.packing then "on" else "off"),
      "Latency estimate: " ++ Decimal.fixed 3 s.latency ++ " ms",
      "Interrupted: " ++ (if s.interrupted then "true" else "false")] ++
    [""] ++
    sectionLines "Sink calls" [
      "Direct: " ++ n s.delivery.directCalls,
      "Batches: " ++ n s.delivery.batchCalls,
      "Single flushes: " ++ n s.delivery.singleCalls,
      "Items per call: " ++ Decimal.fixed 2 s.delivery.itemsPerCall,
      "Batch size: " ++ s.delivery.batchSize.text,
      "Call cost (ms): " ++ s.delivery.callCost.text] ++
    [""] ++
    sectionLines "Scheduler" [
      "Skipped ticks: " ++ n s.batcher.skippedTicks,
      "Probes: " ++ n s.batcher.probes,
      "Probe failures: " ++ n s.batcher.probeFailures,
      "Background failures: " ++ Decimal.natText s.failures] ++
    [""]

end Simulation
end AdaptiveBatch
