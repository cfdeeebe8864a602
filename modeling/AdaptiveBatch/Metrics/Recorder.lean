import AdaptiveBatch.Estimate
import AdaptiveBatch.Failure

/-!
# Metric series

A process records counters, gauges and histograms, each under a name and labels.
One recorder may serve many engines: the engine's name is a label of every
series, and engines of one name share their series.
-/

namespace AdaptiveBatch
namespace Metrics

inductive CounterSeries where
  | directCalls (batcher : String) (success : Bool)
  | directItems (batcher : String)
  | flushes (batcher reason : String) (success : Bool)
  | flushedItems (batcher : String)
  | skippedTicks (batcher : String)
  | backgroundFailures (batcher : String) (stage : Stage)
  deriving DecidableEq, Repr

inductive GaugeSeries where
  | bufferedItems (batcher : String)
  | latency (batcher : String)
  | perItem (batcher : String)
  | packingEnabled (batcher : String)
  deriving DecidableEq, Repr

inductive HistogramSeries where
  | flushSize (batcher : String)
  | probeLatency (batcher : String)
  deriving DecidableEq, Repr

/-- A name and its labels, the labels in the order of their names. -/
def seriesText (name : String) (labels : List (String × String)) : String :=
  name ++ "\x7b" ++ String.intercalate "," (labels.map fun (k, v) => k ++ "=" ++ v) ++ "\x7d"

def statusText (success : Bool) : String := if success then "success" else "failure"

def CounterSeries.text : CounterSeries → String
  | .directCalls b s =>
    seriesText "batcher_direct_calls_total" [("batcher", b), ("status", statusText s)]
  | .directItems b => seriesText "batcher_direct_items_total" [("batcher", b)]
  | .flushes b r s =>
    seriesText "batcher_flushes_total"
      [("batcher", b), ("reason", r), ("status", statusText s)]
  | .flushedItems b => seriesText "batcher_flushed_items_total" [("batcher", b)]
  | .skippedTicks b => seriesText "batcher_skipped_ticks_total" [("batcher", b)]
  | .backgroundFailures b s =>
    seriesText "batcher_background_failures_total" [("batcher", b), ("stage", s.name)]

def GaugeSeries.text : GaugeSeries → String
  | .bufferedItems b => seriesText "batcher_buffered_items" [("batcher", b)]
  | .latency b => seriesText "batcher_latency_ms" [("batcher", b)]
  | .perItem b => seriesText "batcher_per_item_ms" [("batcher", b)]
  | .packingEnabled b => seriesText "batcher_packing_enabled" [("batcher", b)]

def HistogramSeries.text : HistogramSeries → String
  | .flushSize b => seriesText "batcher_flush_size" [("batcher", b)]
  | .probeLatency b => seriesText "batcher_probe_latency_ms" [("batcher", b)]

/-- Changes the entry of a key, or adds one that starts from `start`. -/
def upsert {κ β : Type} [DecidableEq κ] (start : β) (change : β → β) (key : κ) :
    List (κ × β) → List (κ × β)
  | [] => [(key, change start)]
  | (k, v) :: rest =>
    if k = key then (k, change v) :: rest else (k, v) :: upsert start change key rest

/-- All that has been recorded, each kind in the order of first use, and the samples
of a histogram with the latest first. -/
structure Recorder (ν : Type) where
  counters : List (CounterSeries × UInt64) := []
  gauges : List (GaugeSeries × ν) := []
  histograms : List (HistogramSeries × List ν) := []
  deriving DecidableEq, Repr

namespace Recorder

variable {ν : Type} [Number ν]

def add (r : Recorder ν) (s : CounterSeries) (n : Nat) : Recorder ν :=
  { r with counters := upsert 0 (· + n.toUInt64) s r.counters }

def set (r : Recorder ν) (s : GaugeSeries) (x : ν) : Recorder ν :=
  { r with gauges := upsert x (fun _ => x) s r.gauges }

def sample (r : Recorder ν) (s : HistogramSeries) (x : ν) : Recorder ν :=
  { r with histograms := upsert [] (x :: ·) s r.histograms }

def directSend (r : Recorder ν) (batcher : String) (items : Nat) (success : Bool) :
    Recorder ν :=
  (r.add (.directCalls batcher success) 1).add (.directItems batcher) items

def flush (r : Recorder ν) (batcher : String) (items : Nat) (reason : String)
    (success : Bool) : Recorder ν :=
  ((r.add (.flushes batcher reason success) 1).add (.flushedItems batcher) items).sample
    (.flushSize batcher) (Number.ofCount items)

def skippedTick (r : Recorder ν) (batcher : String) (buffered : Nat) : Recorder ν :=
  (r.add (.skippedTicks batcher) 1).set (.bufferedItems batcher) (Number.ofCount buffered)

def latencyEstimate (r : Recorder ν) (batcher : String) (e : Estimate ν) : Recorder ν :=
  ((r.set (.latency batcher) e.latency).set (.perItem batcher) e.perItem).sample
    (.probeLatency batcher) e.latency

def packingEnabled (r : Recorder ν) (batcher : String) : Recorder ν :=
  r.set (.packingEnabled batcher) (Number.ofCount 1)

def failure (r : Recorder ν) (batcher : String) (stage : Stage) : Recorder ν :=
  r.add (.backgroundFailures batcher stage) 1

end Recorder
end Metrics
end AdaptiveBatch
