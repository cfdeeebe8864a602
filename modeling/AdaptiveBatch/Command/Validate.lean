import AdaptiveBatch.Command.Invocation
import AdaptiveBatch.Config.Load
import AdaptiveBatch.Estimate
import AdaptiveBatch.Metrics.Report

/-!
# Validating a configuration file

The verdict on a file: what is wrong with it, or what it says and what is odd about
that.
-/

namespace AdaptiveBatch
namespace Command

inductive Verdict where
  | missing
  | invalid (fault : Fault)
  | valid (configuration : Configuration Float)

def verdict (files : Files.View) (path : String) : Verdict :=
  if files.contains path then
    match Config.loadFile files path with
    | .ok c => .valid c
    | .error f => .invalid f
  else .missing

namespace Verdict

def isValid : Verdict → Bool
  | .valid _ => true
  | _ => false

/-- What is wrong, if anything is. -/
def error? (path : String) : Verdict → Option String
  | .missing => some ("File not found: " ++ path)
  | .invalid f => some f.message
  | .valid _ => none

end Verdict

/-! ## Warnings -/

inductive Warning where
  /-- A sink of this latency is never seen to be slow. -/
  | neverPacks (latency threshold : Float)
  | lateTimeout (limit interval : UInt64)
  | lowCeiling

def Warning.message : Warning → String
  | .neverPacks latency threshold =>
    "simulated latency " ++ Decimal.fixed 3 latency ++
      "ms never exceeds packing_threshold_ms " ++ Decimal.text threshold ++
      "; every offer goes direct"
  | .lateTimeout limit interval =>
    "probe_timeout_ms " ++ Decimal.natText limit.toNat ++
      " is not below probe_interval_ms " ++ Decimal.natText interval.toNat
  | .lowCeiling => "avg_item_ceiling_ms is below packing_threshold_ms; batches will rarely grow"

/-- What is odd about a configuration that breaks no rule. -/
def warnings (c : Configuration Float) : List Warning :=
  let latency := (Estimate.ofProbe c.simulation.probe).latency
  let threshold := c.batcher.packingThreshold
  (if latency ≤ threshold then [.neverPacks latency threshold] else []) ++
    (match c.batcher.probeTimeout with
    | some limit =>
      if c.batcher.probeInterval ≤ limit then [.lateTimeout limit c.batcher.probeInterval]
      else []
    | none => []) ++
    (if c.batcher.itemCeiling < threshold then [.lowCeiling] else [])

/-! ## Reports -/

def projectionTitle : Projection → String
  | .reference => "Reference"
  | .corrected => "Corrected"

def summaryLines (c : Configuration Float) : List String :=
  let n (x : UInt64) := Decimal.natText x.toNat
  ["",
    "  Version: " ++ Config.versionName c.version,
    "  Batcher: " ++ c.batcher.name,
    "  Probe interval: " ++ n c.batcher.probeInterval ++ "ms",
    "  Packing threshold: " ++ Decimal.text c.batcher.packingThreshold ++ "ms",
    "  Avg item ceiling: " ++ Decimal.text c.batcher.itemCeiling ++ "ms",
    "  Formula: " ++ projectionTitle c.batcher.projection,
    "  Simulation: " ++ n c.simulation.producers ++ " producers x " ++
      n c.simulation.itemsPerProducer ++ " items"]

def warningLines (ws : List Warning) : List String :=
  if ws.isEmpty then [] else "" :: "⚠ Warnings:" :: ws.map fun w => "  - " ++ w.message

def Verdict.text (path : String) (v : Verdict) : String :=
  Metrics.lines <|
    match v, v.error? path with
    | .valid c, _ =>
      ["✓ Configuration is valid: " ++ path] ++ summaryLines c ++ warningLines (warnings c)
    | _, error =>
      ["✗ Configuration is invalid: " ++ path] ++
        (error.toList.flatMap fun e => ["", "  Error: " ++ e])

def summaryMembers (c : Configuration Float) : List (String × Scalar) :=
  [("version", .text (Config.versionName c.version)),
    ("name", .text c.batcher.name),
    ("probe_interval_ms", .integer c.batcher.probeInterval.toNat),
    ("packing_threshold_ms", .real c.batcher.packingThreshold),
    ("avg_item_ceiling_ms", .real c.batcher.itemCeiling),
    ("next_avg_formula", .text (projectionTitle c.batcher.projection)),
    ("producers", .integer c.simulation.producers.toNat),
    ("items_per_producer", .integer c.simulation.itemsPerProducer.toNat)]

/-- The verdict as a document; what there is nothing to say about is left out. -/
def Verdict.document (path : String) (v : Verdict) : Document :=
  let head : List (String × Document) :=
    [("valid", .scalar (.bool v.isValid)), ("config_path", .scalar (.text path))]
  match v, v.error? path with
  | .valid c, _ =>
    let ws := warnings c
    let warned : List (String × Document) :=
      if ws.isEmpty then []
      else [("warnings", .list (ws.map fun w => .scalar (.text w.message)))]
    .table (head ++ warned ++ [("summary", .ofMembers (summaryMembers c))])
  | _, some e => .table (head ++ [("error", .scalar (.text e))])
  | _, none => .table head

/-- What the command prints. -/
def Verdict.print (o : ValidateOptions) (v : Verdict) : String :=
  if o.json then Json.render (v.document o.config) ++ "\n" else v.text o.config

end Command
end AdaptiveBatch
