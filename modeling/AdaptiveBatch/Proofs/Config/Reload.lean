import AdaptiveBatch.Proofs.Config.Members
import AdaptiveBatch.Proofs.Document.Json.Reader
import AdaptiveBatch.Proofs.Document.Toml.Reader

/-!
# Configurations written and loaded again

In both formats a number is written as the shortest decimal that rounds to it.  TOML is
read with the nearest number to each decimal, so a configuration is loaded as it was.  JSON
is read in two steps that both round: all but the numbers is loaded as it was, and a number
may end up next to itself.
-/

namespace AdaptiveBatch
namespace Config

open Decimal

/-! ## The document of a whole configuration -/

/-- All members. -/
def Selection.all : Selection :=
  { version := true, batcher := fun _ => true, simulation := some fun _ => true }

def fullDocument (f : Format) (c : Configuration Float) : Document :=
  .table
    [("version", .scalar (.text (versionName c.version))),
      ("batcher", .table (written f (settingsMembers c.batcher))),
      ("simulation", .table (written f (workloadMembers c.simulation)))]

theorem holds_all (f : Format) (names : List String) (known : List (String × Scalar)) :
    Holds names (written f (known.filter fun _ => true)) (written f known) := by
  refine ⟨[], by simp, ?_⟩
  rw [List.append_nil, List.filter_true]

theorem fullDocument_describes (f : Format) (c : Configuration Float) :
    Selection.all.Describes f c (fullDocument f c) :=
  ⟨_, _, _, rfl, holds_all f _ _, ⟨_, rfl, holds_all f _ _⟩, [], by simp,
    List.Perm.refl _⟩

theorem configuration?_fullDocument (f : Format) (c : Configuration Float) :
    configuration? f (fullDocument f c) = some c :=
  configuration?_of_describes (fullDocument_describes f c)

/-! ## Names and scalars of a configuration -/

instance (name : String) : Decidable (Toml.Plain name) :=
  decidable_of_iff (name.toList ≠ [] ∧ name.toList.all Toml.isKeyChar = true)
    ⟨fun h => ⟨h.1, List.all_eq_true.mp h.2⟩,
      fun h => ⟨h.nonempty, List.all_eq_true.mpr h.chars⟩⟩

theorem plain_settings (s : Settings Float) : ∀ m ∈ settingsMembers s, Toml.Plain m.1 := by
  simp only [settingsMembers, List.forall_mem_cons]
  decide

theorem plain_workload (w : Workload Float) : ∀ m ∈ workloadMembers w, Toml.Plain m.1 := by
  simp only [workloadMembers, List.forall_mem_cons]
  decide

theorem readable_natural (n : UInt64) : Toml.Readable (.integer n.toNat) := by
  have hlt := n.toNat_lt
  exact ⟨Int.natCast_nonneg _, by omega⟩

theorem isFinite_of_isCost {x : Float} (h : Number.isCost x = true) : x.isFinite = true :=
  (Bool.and_eq_true_iff.mp h).1

theorem readable_settings {s : Settings Float} (h : s.check = .ok ()) :
    ∀ m ∈ settingsMembers s, Toml.Readable m.2 := by
  obtain ⟨-, -, hthreshold, ⟨hceiling, -⟩, -, -⟩ := (check_ok s).mp h
  simp only [settingsMembers, List.forall_mem_cons]
  refine ⟨trivial, readable_natural _, isFinite_of_isCost hthreshold, hceiling, ?_, trivial,
    readable_natural _, by simp⟩
  cases s.probeTimeout with
  | none => trivial
  | some limit => exact readable_natural limit

theorem readable_workload {w : Workload Float} (h : w.check = .ok ()) :
    ∀ m ∈ workloadMembers w, Toml.Readable m.2 := by
  obtain ⟨hprobe, hoverhead, hcost, -⟩ := (Workload.check_ok w).mp h
  simp only [workloadMembers, List.forall_mem_cons]
  exact ⟨isFinite_of_isCost hprobe, isFinite_of_isCost hoverhead, isFinite_of_isCost hcost,
    readable_natural _, readable_natural _, readable_natural _, by simp⟩

/-! ## TOML -/

theorem writable_outline {c : Configuration Float} (h : c.check = .ok ()) :
    Toml.Writable (outline c) := by
  obtain ⟨hsettings, hworkload⟩ := (Configuration.check_ok c).mp h
  refine ⟨?_, ?_, ?_, ?_⟩
  · simp only [outline, List.forall_mem_cons]
    exact ⟨⟨by decide, trivial⟩, by simp⟩
  · simp only [outline, List.forall_mem_cons]
    exact ⟨⟨by decide, fun m hm => ⟨plain_settings _ m hm, readable_settings hsettings m hm⟩⟩,
      ⟨by decide, fun m hm => ⟨plain_workload _ m hm, readable_workload hworkload m hm⟩⟩, by simp⟩
  · simp [outline]
  · simp only [outline, List.forall_mem_cons]
    exact ⟨by simp [settingsMembers], by simp [workloadMembers], by simp⟩

theorem keptMembers_eq (ms : List (String × Scalar)) : Toml.keptMembers ms = written .toml ms := by
  unfold Toml.keptMembers written
  congr 1
  funext m
  obtain ⟨name, s⟩ := m
  cases s with
  | bool b => cases b <;> rfl
  | _ => rfl

theorem read?_render_toml {c : Configuration Float} (h : c.check = .ok ()) :
    Toml.read? (render c .toml) = some (fullDocument .toml c) := by
  show Toml.read? (Toml.render (outline c)) = _
  rw [Toml.read?_render (writable_outline h)]
  simp only [outline, keptMembers_eq]
  rfl

/-- A configuration that passes the check is loaded from its TOML text as it was. -/
theorem loadText_render_toml {c : Configuration Float} (h : c.check = .ok ()) :
    loadText .toml (render c .toml) = .ok c := by
  have hread : readDocument? .toml (render c .toml) = some (fullDocument .toml c) := by
    rw [readDocument?, read?_render_toml h]
  exact loadText_of_read hread (configuration?_fullDocument .toml c) h

/-- A configuration with names and numbers that are hard to write. -/
def awkward : Configuration Float :=
  { version := .v1
    batcher :=
      { name := "a \"b\" \\ ünï\n\t\u0001", probeInterval := 18446744073709551615
        packingThreshold := -0.0, itemCeiling := Float.ofBits 1
        probeTimeout := some 9223372036854775808, projection := .corrected
        failureCapacity := 18446744073709551615 }
    simulation :=
      { probe := 1.7976931348623157e308, callOverhead := 0.30000000000000004, perItemCost := 1e22
        producers := 1, itemsPerProducer := 0, payloadBytes := 9007199254740993 } }

theorem check_awkward : awkward.check = .ok () :=
  (Configuration.check_ok _).mpr
    ⟨(check_ok _).mpr (by decide +kernel), (Workload.check_ok _).mpr (by decide +kernel)⟩

theorem loadText_render_toml_of_awkward :
    awkward.check = .ok () ∧ loadText .toml (render awkward .toml) = .ok awkward :=
  ⟨check_awkward, loadText_render_toml check_awkward⟩

/-! ## JSON -/

theorem written_json (ms : List (String × Scalar)) :
    written .json ms = ms.map fun m => (m.1, Document.scalar m.2) := by
  unfold written
  exact congrFun List.filterMap_eq_map ms

/-- A configuration with other numbers in place of its own. -/
def renumber (c : Configuration Float) (threshold ceiling probe overhead cost : Float) :
    Configuration Float :=
  { c with
    batcher := { c.batcher with packingThreshold := threshold, itemCeiling := ceiling }
    simulation :=
      { c.simulation with probe := probe, callOverhead := overhead, perItemCost := cost } }

/-- Whether a configuration differs from another one in its numbers only, and in those by
little. -/
structure Nearly (c c' : Configuration Float) : Prop where
  others : c' = renumber c c'.batcher.packingThreshold c'.batcher.itemCeiling c'.simulation.probe
    c'.simulation.callOverhead c'.simulation.perItemCost
  threshold : Json.Nearby c.batcher.packingThreshold c'.batcher.packingThreshold
  ceiling : Json.Nearby c.batcher.itemCeiling c'.batcher.itemCeiling
  probe : Json.Nearby c.simulation.probe c'.simulation.probe
  overhead : Json.Nearby c.simulation.callOverhead c'.simulation.callOverhead
  cost : Json.Nearby c.simulation.perItemCost c'.simulation.perItemCost

/-- Whether the numbers of a configuration are read as these. -/
structure Renumbers (c : Configuration Float) (threshold ceiling probe overhead cost : Float) :
    Prop where
  threshold : Json.Reread c.batcher.packingThreshold threshold
  ceiling : Json.Reread c.batcher.itemCeiling ceiling
  probe : Json.Reread c.simulation.probe probe
  overhead : Json.Reread c.simulation.callOverhead overhead
  cost : Json.Reread c.simulation.perItemCost cost

theorem exists_renumbers {c : Configuration Float} (h : c.check = .ok ()) :
    ∃ threshold ceiling probe overhead cost, Renumbers c threshold ceiling probe overhead cost := by
  obtain ⟨hsettings, hworkload⟩ := (Configuration.check_ok c).mp h
  obtain ⟨-, -, hthreshold, ⟨hceiling, -⟩, -, -⟩ := (check_ok _).mp hsettings
  obtain ⟨hprobe, hoverhead, hcost, -⟩ := (Workload.check_ok _).mp hworkload
  obtain ⟨threshold, rthreshold⟩ := Json.exists_reread (isFinite_of_isCost hthreshold)
  obtain ⟨ceiling, rceiling⟩ := Json.exists_reread hceiling
  obtain ⟨probe, rprobe⟩ := Json.exists_reread (isFinite_of_isCost hprobe)
  obtain ⟨overhead, roverhead⟩ := Json.exists_reread (isFinite_of_isCost hoverhead)
  obtain ⟨cost, rcost⟩ := Json.exists_reread (isFinite_of_isCost hcost)
  exact ⟨threshold, ceiling, probe, overhead, cost, rthreshold, rceiling, rprobe, roverhead, rcost⟩

namespace Renumbers

variable {c : Configuration Float} {threshold ceiling probe overhead cost : Float}
  (r : Renumbers c threshold ceiling probe overhead cost)

include r

theorem near : Nearly c (renumber c threshold ceiling probe overhead cost) :=
  ⟨rfl, r.threshold.near, r.ceiling.near, r.probe.near, r.overhead.near, r.cost.near⟩

theorem check (h : c.check = .ok ()) :
    (renumber c threshold ceiling probe overhead cost).check = .ok () := by
  obtain ⟨hsettings, hworkload⟩ := (Configuration.check_ok c).mp h
  obtain ⟨sname, sinterval, sthreshold, ⟨-, spositive⟩, stimeout, scapacity⟩ :=
    (check_ok _).mp hsettings
  obtain ⟨wprobe, woverhead, wcost, wproducers⟩ := (Workload.check_ok _).mp hworkload
  refine (Configuration.check_ok _).mpr ⟨(check_ok _).mpr ⟨sname, sinterval, ?_, ⟨?_, ?_⟩,
    stimeout, scapacity⟩, (Workload.check_ok _).mpr ⟨?_, ?_, ?_, wproducers⟩⟩
  · exact r.threshold.cost.trans sthreshold
  · exact r.ceiling.finite
  · exact r.ceiling.positive.trans spositive
  · exact r.probe.cost.trans wprobe
  · exact r.overhead.cost.trans woverhead
  · exact r.cost.cost.trans wcost

theorem reads_settings :
    Json.Reads (Json.write 1 (.table (written .json (settingsMembers c.batcher))))
      (.table (written .json (settingsMembers
        (renumber c threshold ceiling probe overhead cost).batcher))) := by
  rw [written_json, written_json]
  refine Json.reads_table (Json.memberReads_scalar 1 _ (Json.reads_text _))
    (.cons (Json.memberReads_scalar 1 _ (Json.reads_natural c.batcher.probeInterval.toNat_lt))
    (.cons (Json.memberReads_scalar 1 _ r.threshold.reads)
    (.cons (Json.memberReads_scalar 1 _ r.ceiling.reads)
    (.cons (Json.memberReads_scalar 1 _ ?_)
    (.cons (Json.memberReads_scalar 1 _ (Json.reads_text _))
    (.cons (Json.memberReads_scalar 1 _ (Json.reads_natural c.batcher.failureCapacity.toNat_lt))
    .nil))))))
  cases hlimit : c.batcher.probeTimeout with
  | none =>
    simp only [renumber, hlimit]
    exact Json.reads_null
  | some limit =>
    simp only [renumber, hlimit]
    exact Json.reads_natural limit.toNat_lt

theorem reads_workload :
    Json.Reads (Json.write 1 (.table (written .json (workloadMembers c.simulation))))
      (.table (written .json (workloadMembers
        (renumber c threshold ceiling probe overhead cost).simulation))) := by
  rw [written_json, written_json]
  exact Json.reads_table (Json.memberReads_scalar 1 _ r.probe.reads)
    (.cons (Json.memberReads_scalar 1 _ r.overhead.reads)
    (.cons (Json.memberReads_scalar 1 _ r.cost.reads)
    (.cons (Json.memberReads_scalar 1 _ (Json.reads_natural c.simulation.producers.toNat_lt))
    (.cons (Json.memberReads_scalar 1 _ (Json.reads_natural c.simulation.itemsPerProducer.toNat_lt))
    (.cons (Json.memberReads_scalar 1 _ (Json.reads_natural c.simulation.payloadBytes.toNat_lt))
    .nil)))))

theorem read?_render :
    Json.read? (render c .json) =
      some (fullDocument .json (renumber c threshold ceiling probe overhead cost)) := by
  have hdocument : (outline c).document = fullDocument .json c := by
    unfold fullDocument
    rw [written_json, written_json]
    rfl
  show Json.read? (Json.render (outline c).document) = _
  rw [hdocument]
  exact Json.read?_render (Json.reads_table (Json.memberReads_scalar 0 _ (Json.reads_text _))
    (.cons ⟨rfl, r.reads_settings⟩
    (.cons ⟨rfl, r.reads_workload⟩ .nil)))

theorem loadText_render (h : c.check = .ok ()) : loadText .json (render c .json) =
    .ok (renumber c threshold ceiling probe overhead cost) :=
  loadText_of_read (f := .json) r.read?_render (configuration?_fullDocument .json _) (r.check h)

end Renumbers

/-- A configuration that passes the check can be loaded from its JSON text, as one that is
nearly the same. -/
theorem loadText_render_json {c : Configuration Float} (h : c.check = .ok ()) :
    ∃ c', loadText .json (render c .json) = .ok c' ∧ Nearly c c' := by
  obtain ⟨threshold, ceiling, probe, overhead, cost, r⟩ := exists_renumbers h
  exact ⟨renumber c threshold ceiling probe overhead cost, r.loadText_render h, r.near⟩

/-- A configuration with a number of seventeen digits. -/
def drifting : Configuration Float :=
  { (.standard : Configuration Float) with
    simulation := { (.standard : Workload Float) with probe := 110.00000000000001 } }

theorem check_drifting : drifting.check = .ok () :=
  (Configuration.check_ok _).mpr
    ⟨(check_ok _).mpr (by decide +kernel), (Workload.check_ok _).mpr (by decide +kernel)⟩

/-- The digits are too many for a number, and the division loses the last of them. -/
theorem reread_drifting : Json.Reread drifting.simulation.probe 110.0 := by
  have hdecimal : Json.decimal 4637440978796412929 = ⟨11000000000000001, -14⟩ := by decide +kernel
  have hrereads : Json.Rereads 4637440978796412929 4637440978796412928 := by
    refine ⟨?_, by decide, by decide, by decide, by decide, ?_⟩
    · rw [hdecimal]
      refine (Json.scale?_down (e := 14) (by decide) (by decide)).trans ?_
      exact congrArg some (eq_of_toBits (by decide +kernel))
    · rw [hdecimal]
      intro hshort
      exact absurd hshort (by decide)
  have hx : drifting.simulation.probe = number false 4637440978796412929 :=
    eq_of_toBits (by decide +kernel)
  have hy : (110.0 : Float) = number false 4637440978796412928 := eq_of_toBits (by decide +kernel)
  rw [hx, hy]
  exact Json.reread_of_rereads (by decide) hrereads

theorem loadText_render_json_of_drifting :
    drifting.check = .ok () ∧
      loadText .json (render drifting .json) = .ok (renumber drifting 0.1 5.0 110.0 1.8 0.2) ∧
      loadText .json (render drifting .json) ≠ .ok drifting := by
  have hload : loadText .json (render drifting .json) =
      .ok (renumber drifting 0.1 5.0 110.0 1.8 0.2) := by
    refine Renumbers.loadText_render ⟨?_, ?_, reread_drifting, ?_, ?_⟩ check_drifting
    all_goals exact Json.reread_self (by decide +kernel) (by decide +kernel)
  refine ⟨check_drifting, hload, fun h => ?_⟩
  have hprobe := congrArg (fun c => c.simulation.probe.toBits) (Except.ok.inj (hload.symm.trans h))
  exact absurd hprobe (by decide +kernel)

/-- The awkward configuration with that number, and with others that do not drift. -/
def awkwardDrift : Configuration Float :=
  { awkward with
    batcher := { awkward.batcher with itemCeiling := 5.0 }
    simulation :=
      { awkward.simulation with probe := drifting.simulation.probe, callOverhead := 1.8 } }

theorem check_awkwardDrift : awkwardDrift.check = .ok () :=
  (Configuration.check_ok _).mpr
    ⟨(check_ok _).mpr (by decide +kernel), (Workload.check_ok _).mpr (by decide +kernel)⟩

theorem loadText_render_json_of_awkwardDrift :
    awkwardDrift.check = .ok () ∧
      ∃ c', loadText .json (render awkwardDrift .json) = .ok c' ∧ Nearly awkwardDrift c' ∧
        c' = renumber awkwardDrift (-0.0) 5.0 110.0 1.8 1e22 := by
  obtain ⟨c', hload, hnear⟩ := loadText_render_json check_awkwardDrift
  have hreload : loadText .json (render awkwardDrift .json) =
      .ok (renumber awkwardDrift (-0.0) 5.0 110.0 1.8 1e22) := by
    refine Renumbers.loadText_render ⟨?_, ?_, reread_drifting, ?_, ?_⟩ check_awkwardDrift
    all_goals exact Json.reread_self (by decide +kernel) (by decide +kernel)
  exact ⟨check_awkwardDrift, c', hload, hnear, Except.ok.inj (hload.symm.trans hreload)⟩

end Config
end AdaptiveBatch
