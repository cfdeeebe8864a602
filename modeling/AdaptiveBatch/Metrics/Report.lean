import AdaptiveBatch.Decimal.Text
import AdaptiveBatch.Metrics.Tally

/-!
# Reports of statistics
-/

namespace AdaptiveBatch
namespace Metrics

/-- One line for a sequence of values, in thousandths. -/
def Summary.text (s : Summary Float) : String :=
  if s.count = 0 then "N/A"
  else
    "min=" ++ Decimal.fixed 3 s.least ++ ", max=" ++ Decimal.fixed 3 s.greatest ++
      ", mean=" ++ Decimal.fixed 3 s.mean ++ ", std=" ++ Decimal.fixed 3 s.deviation ++
      " (n=" ++ Decimal.natText s.count.toNat ++ ")"

/-- Lines of a report, each with its end. -/
def lines (ls : List String) : String := String.join (ls.map (· ++ "\n"))

def DeliverySummary.text (s : DeliverySummary Float) : String :=
  lines [
    "=== Delivery Summary ===",
    "Total items: " ++ Decimal.natText s.totalItems.toNat,
    "Direct calls: " ++ Decimal.natText s.directCalls.toNat,
    "Batch calls: " ++ Decimal.natText s.batchCalls.toNat,
    "Single flushes: " ++ Decimal.natText s.singleCalls.toNat,
    "Items per call: " ++ Decimal.fixed 2 s.itemsPerCall,
    "Batch size: " ++ s.batchSize.text,
    "Call cost (ms): " ++ s.callCost.text]

end Metrics
end AdaptiveBatch
