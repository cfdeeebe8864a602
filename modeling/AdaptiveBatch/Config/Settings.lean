import AdaptiveBatch.Fault
import AdaptiveBatch.Text.Blank

/-!
# Settings

`Settings` configure an engine, `Workload` the simulated sink and its producers,
and a `Configuration` is the file that holds both.  `check` names the first rule
that is broken.
-/

namespace AdaptiveBatch

/-- How the average time per item is projected one wait ahead. -/
inductive Projection where
  /-- The present send time over the projected number of items. -/
  | reference
  /-- The projected send time over the projected number of items. -/
  | corrected
  deriving DecidableEq, Repr

structure Settings (ν : Type) where
  /-- The engine's name in errors, events and metrics. -/
  name : String
  probeInterval : UInt64
  /-- The latency above which offers are packed, in milliseconds. -/
  packingThreshold : ν
  /-- The average time per item above which a flush is forced. -/
  itemCeiling : ν
  /-- How long a probe may take, if that is limited. -/
  probeTimeout : Option UInt64
  projection : Projection
  /-- How many failure events are kept for a slow receiver. -/
  failureCapacity : UInt64
  deriving DecidableEq, Repr

structure Workload (ν : Type) where
  /-- What a probe of the simulated sink answers. -/
  probe : ν
  callOverhead : ν
  perItemCost : ν
  producers : UInt64
  itemsPerProducer : UInt64
  payloadBytes : UInt64
  deriving DecidableEq, Repr

inductive Version where
  | v1
  deriving DecidableEq, Repr

structure Configuration (ν : Type) where
  version : Version
  batcher : Settings ν
  simulation : Workload ν
  deriving DecidableEq, Repr

variable {ν : Type} [Number ν]

def Settings.standard : Settings ν :=
  { name := "batcher"
    probeInterval := 1000
    packingThreshold := 0.1
    itemCeiling := 5.0
    probeTimeout := none
    projection := .reference
    failureCapacity := 64 }

def Workload.standard : Workload ν :=
  { probe := 2.0
    callOverhead := 1.8
    perItemCost := 0.2
    producers := 4
    itemsPerProducer := 250
    payloadBytes := 64 }

def Configuration.standard : Configuration ν :=
  { version := .v1, batcher := .standard, simulation := .standard }

/-- Refuses a configuration unless a rule holds. -/
def require (rule : Bool) (field message : String) : Except Fault Unit :=
  if rule then .ok () else .error (.invalid field message)

/-- The rules an engine relies on. -/
def Settings.check (s : Settings ν) : Except Fault Unit := do
  require (!Text.allBlank s.name) "batcher.name" "name cannot be empty"
  require (s.probeInterval ≠ 0) "batcher.probe_interval_ms" "probe_interval_ms must be > 0"
  require (Number.isCost s.packingThreshold) "batcher.packing_threshold_ms"
    ("packing_threshold_ms must be finite and >= 0, got " ++ Number.text s.packingThreshold)
  require (Number.isFinite s.itemCeiling && Number.less (Number.ofCount 0) s.itemCeiling)
    "batcher.avg_item_ceiling_ms"
    ("avg_item_ceiling_ms must be finite and > 0, got " ++ Number.text s.itemCeiling)
  require (s.probeTimeout ≠ some 0) "batcher.probe_timeout_ms"
    "probe_timeout_ms must be > 0 when set"
  require (s.failureCapacity ≠ 0) "batcher.failure_channel_capacity"
    "failure_channel_capacity must be > 0"

def Workload.checkCost (field : String) (cost : ν) : Except Fault Unit :=
  require (Number.isCost cost) field ("must be finite and >= 0, got " ++ Number.text cost)

/-- The rules a simulation relies on. -/
def Workload.check (w : Workload ν) : Except Fault Unit := do
  Workload.checkCost "simulation.probe_ms" w.probe
  Workload.checkCost "simulation.call_overhead_ms" w.callOverhead
  Workload.checkCost "simulation.per_item_cost_ms" w.perItemCost
  require (w.producers ≠ 0) "simulation.producers" "producers must be > 0"

/-- Both sets of rules, those of the engine first. -/
def Configuration.check (c : Configuration ν) : Except Fault Unit := do
  c.batcher.check
  c.simulation.check

end AdaptiveBatch
