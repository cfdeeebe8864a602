import AdaptiveBatch.Config.Format
import AdaptiveBatch.Config.Settings
import AdaptiveBatch.Decimal.Binary
import AdaptiveBatch.Decimal.Instance
import AdaptiveBatch.Document.Tree
import AdaptiveBatch.Power

/-!
# Configurations as documents

A configuration is a record of records.  A record is a table of its members by name
or a list of them in order; members that are missing have their standard values,
and names that nobody knows are passed over.  The two formats differ in little: in
JSON a list may not be too long, and what is absent is written null.
-/

namespace AdaptiveBatch
namespace Config

/-! ## Reading -/

def text? : Document → Option String
  | .scalar (.text s) => some s
  | _ => none

/-- A natural number below `2 ^ 64`. -/
def natural? : Document → Option UInt64
  | .scalar (.integer i) => if 0 ≤ i ∧ i < wordCount then some i.toNat.toUInt64 else none
  | _ => none

/-- A number, which may be written as an integer. -/
def number? : Document → Option Float
  | .scalar (.real x) => some x
  | .scalar (.integer i) => some (Decimal.signed (i < 0) (Decimal.nearest i.natAbs 1))
  | _ => none

/-- A value that may be absent. -/
def optional? {β : Type} (read : Document → Option β) : Document → Option (Option β)
  | .scalar .null => some none
  | d => (read d).map some

/-- Whether a document stands for nothing beside the name of a choice. -/
def isUnit (f : Format) (d : Document) : Bool :=
  match f, d with
  | .json, .scalar .null => true
  | .toml, .table [] | .toml, .list [] => true
  | _, _ => false

/-- One of some named choices: its name, or a table that holds nothing else. -/
def choice? {β : Type} (f : Format) (choices : List (String × β)) : Document → Option β
  | .scalar (.text s) => choices.lookup s
  | .table [(s, d)] => if isUnit f d then choices.lookup s else none
  | _ => none

/-- How often a name occurs. -/
def occurrences (name : String) (ms : List (String × Document)) : Nat :=
  (ms.filter (·.1 = name)).length

/-- The members of a record with these names.  No member may be given twice.  A
moment is a record of which nothing is known. -/
def record? (f : Format) (names : List String) : Document → Option (List (String × Document))
  | .table ms => if names.all fun n => occurrences n ms ≤ 1 then some ms else none
  | .moment => some []
  | .list ds => if f = .json ∧ names.length < ds.length then none else some (names.zip ds)
  | _ => none

/-- A member of a record, or its standard value. -/
def member? {β : Type} (ms : List (String × Document)) (name : String) (standard : β)
    (read : Document → Option β) : Option β :=
  match ms.lookup name with
  | some d => read d
  | none => some standard

def versions : List (String × Version) := [("V1", .v1)]

def projections : List (String × Projection) :=
  [("reference", .reference), ("corrected", .corrected)]

def settingsNames : List String :=
  ["name", "probe_interval_ms", "packing_threshold_ms", "avg_item_ceiling_ms",
    "probe_timeout_ms", "next_avg_formula", "failure_channel_capacity"]

def settings? (f : Format) (d : Document) : Option (Settings Float) := do
  let ms ← record? f settingsNames d
  let s : Settings Float := .standard
  return {
    name := ← member? ms "name" s.name text?
    probeInterval := ← member? ms "probe_interval_ms" s.probeInterval natural?
    packingThreshold := ← member? ms "packing_threshold_ms" s.packingThreshold number?
    itemCeiling := ← member? ms "avg_item_ceiling_ms" s.itemCeiling number?
    probeTimeout := ← member? ms "probe_timeout_ms" s.probeTimeout (optional? natural?)
    projection := ← member? ms "next_avg_formula" s.projection (choice? f projections)
    failureCapacity := ← member? ms "failure_channel_capacity" s.failureCapacity natural? }

def workloadNames : List String :=
  ["probe_ms", "call_overhead_ms", "per_item_cost_ms", "producers", "items_per_producer",
    "payload_bytes"]

def workload? (f : Format) (d : Document) : Option (Workload Float) := do
  let ms ← record? f workloadNames d
  let w : Workload Float := .standard
  return {
    probe := ← member? ms "probe_ms" w.probe number?
    callOverhead := ← member? ms "call_overhead_ms" w.callOverhead number?
    perItemCost := ← member? ms "per_item_cost_ms" w.perItemCost number?
    producers := ← member? ms "producers" w.producers natural?
    itemsPerProducer := ← member? ms "items_per_producer" w.itemsPerProducer natural?
    payloadBytes := ← member? ms "payload_bytes" w.payloadBytes natural? }

def configurationNames : List String := ["version", "batcher", "simulation"]

/-- The configuration that a document describes.  The settings of the engine may be
empty, but have to be there. -/
def configuration? (f : Format) (d : Document) : Option (Configuration Float) := do
  let ms ← record? f configurationNames d
  return {
    version := ← member? ms "version" .v1 (choice? f versions)
    batcher := ← (ms.lookup "batcher").bind (settings? f)
    simulation := ← member? ms "simulation" .standard (workload? f) }

/-! ## Writing -/

def versionName : Version → String
  | .v1 => "V1"

def projectionName : Projection → String
  | .reference => "reference"
  | .corrected => "corrected"

def settingsMembers (s : Settings Float) : List (String × Scalar) :=
  [("name", .text s.name),
    ("probe_interval_ms", .integer s.probeInterval.toNat),
    ("packing_threshold_ms", .real s.packingThreshold),
    ("avg_item_ceiling_ms", .real s.itemCeiling),
    ("probe_timeout_ms",
      match s.probeTimeout with
      | some limit => .integer limit.toNat
      | none => .null),
    ("next_avg_formula", .text (projectionName s.projection)),
    ("failure_channel_capacity", .integer s.failureCapacity.toNat)]

def workloadMembers (w : Workload Float) : List (String × Scalar) :=
  [("probe_ms", .real w.probe),
    ("call_overhead_ms", .real w.callOverhead),
    ("per_item_cost_ms", .real w.perItemCost),
    ("producers", .integer w.producers.toNat),
    ("items_per_producer", .integer w.itemsPerProducer.toNat),
    ("payload_bytes", .integer w.payloadBytes.toNat)]

/-- What a file of this configuration says. -/
def outline (c : Configuration Float) : Outline :=
  { members := [("version", .text (versionName c.version))]
    sections :=
      [("batcher", settingsMembers c.batcher), ("simulation", workloadMembers c.simulation)] }

end Config
end AdaptiveBatch
