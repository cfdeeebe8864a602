import Mathlib
import AdaptiveBatch.Command.Simulate
import AdaptiveBatch.Proofs.Config.Check
import AdaptiveBatch.Proofs.Power

/-!
# What a document leaves out

A configuration is read off a document member by member.  A member that is missing has
its standard value, the order of the members does not matter, and neither do members
whose names nobody knows.  So a document can be described by the members it selects.
-/

namespace AdaptiveBatch
namespace Config

/-! ## Looking up a name -/

section Lookup

variable {β : Type} {n : String}

theorem lookup_eq_head? (ms : List (String × β)) :
    ms.lookup n = ((ms.filter (·.1 = n)).map Prod.snd).head? := by
  induction ms with
  | nil => rfl
  | cons m ms ih =>
    rw [List.lookup_cons, List.filter_cons]
    by_cases hm : m.1 = n
    · simp [hm]
    · have hne : (n == m.1) = false := beq_eq_false_iff_ne.mpr fun h => hm h.symm
      simp [hm, hne, ih]

/-- What is said under one name, if it is said once at most. -/
theorem lookup_of_once {ms : List (String × β)} {o : Option β}
    (once : (ms.filter (·.1 = n)).Perm (o.toList.map (n, ·))) : ms.lookup n = o := by
  rw [lookup_eq_head?]
  cases o with
  | none => rw [List.perm_nil.mp once]; rfl
  | some b => rw [List.perm_singleton.mp once]; rfl

end Lookup

theorem occurrences_of_once {ms : List (String × Document)} {n : String}
    {o : Option Document} (once : (ms.filter (·.1 = n)).Perm (o.toList.map (n, ·))) :
    occurrences n ms ≤ 1 := by
  have hlength := once.length_eq
  rw [occurrences, hlength, List.length_map]
  cases o <;> simp

/-! ## Documents with gaps -/

/-- Whether a table has these members, in any order, among others of which no name is
known. -/
def Holds (names : List String) (given ms : List (String × Document)) : Prop :=
  ∃ others, (∀ m ∈ others, m.1 ∉ names) ∧ ms.Perm (given ++ others)

/-- Under a known name there is what was given. -/
theorem Holds.only {names : List String} {given ms : List (String × Document)}
    (h : Holds names given ms) {n : String} (known : n ∈ names) :
    (ms.filter (·.1 = n)).Perm (given.filter (·.1 = n)) := by
  obtain ⟨others, unknown, hperm⟩ := h
  have hothers : others.filter (·.1 = n) = [] := by
    rw [List.filter_eq_nil_iff]
    intro m hm hn
    rw [decide_eq_true_iff] at hn
    exact unknown m hm (hn ▸ known)
  have hfilter := hperm.filter (·.1 = n)
  rwa [List.filter_append, hothers, List.append_nil] at hfilter

/-- What stands for a scalar in a document of a format.  Only JSON has a null. -/
def written? : Format → Scalar → Option Document
  | .toml, .null => none
  | _, s => some (.scalar s)

/-- Members as a document has them. -/
def written (f : Format) (ms : List (String × Scalar)) : List (String × Document) :=
  ms.filterMap fun m => (written? f m.2).map (m.1, ·)

theorem written_cons (f : Format) (m : String × Scalar) (ms : List (String × Scalar)) :
    written f (m :: ms) = (written? f m.2).toList.map (m.1, ·) ++ written f ms := by
  rw [written, List.filterMap_cons]
  cases written? f m.2 <;> rfl

theorem written_filter (f : Format) (ms : List (String × Scalar)) (p : String → Bool) :
    (written f ms).filter (fun m => p m.1) = written f (ms.filter fun m => p m.1) := by
  induction ms with
  | nil => rfl
  | cons m ms ih =>
    have hhead : ((written? f m.2).toList.map (m.1, ·)).filter (fun d => p d.1) =
        if p m.1 then (written? f m.2).toList.map (m.1, ·) else [] := by
      cases written? f m.2 <;> cases hp : p m.1 <;> simp [hp]
    rw [written_cons, List.filter_append, ih, hhead, List.filter_cons]
    cases p m.1 with
    | true => exact (written_cons f m _).symm
    | false => rfl

/-- What a table says under a known name, if it holds some of the members of a record. -/
theorem Holds.once {f : Format} {names : List String} {keep : String → Bool}
    {known : List (String × Scalar)} {ms : List (String × Document)}
    (h : Holds names (written f (known.filter fun m => keep m.1)) ms) {n : String}
    (hn : n ∈ names) {s : Scalar} (single : known.filter (·.1 = n) = [(n, s)]) :
    (ms.filter (·.1 = n)).Perm
      ((if keep n then written? f s else none).toList.map (n, ·)) := by
  have honly := h.only hn
  have hboth : (known.filter fun m => keep m.1).filter (·.1 = n) =
      if keep n then [(n, s)] else [] := by
    rw [List.filter_filter]
    have hcomm : (known.filter fun m => decide (m.1 = n) && keep m.1) =
        (known.filter (·.1 = n)).filter fun m => keep m.1 := by
      rw [List.filter_filter]
      exact List.filter_congr fun m _ => Bool.and_comm _ _
    rw [hcomm, single, List.filter_cons]
    rfl
  rw [written_filter f _ (fun m => decide (m = n)), hboth] at honly
  cases hk : keep n with
  | false => simpa [hk, written] using honly
  | true =>
    rw [hk, if_pos rfl] at honly
    rw [if_pos rfl]
    cases hs : written? f s with
    | none => simpa [written, hs] using honly
    | some d => simpa [written, hs] using honly

/-! ## Reading what was given -/

/-- A member that is said once at most, and what it is read as. -/
theorem member?_of_once {β : Type} {ms : List (String × Document)} {n : String}
    {o : Option Document} (once : (ms.filter (·.1 = n)).Perm (o.toList.map (n, ·)))
    (standard : β) (read : Document → Option β) :
    member? ms n standard read = o.elim (some standard) read := by
  rw [member?, lookup_of_once once]
  cases o <;> rfl

/-- A member of a record of which some members are given. -/
theorem Holds.member? {β : Type} {f : Format} {names : List String} {keep : String → Bool}
    {known : List (String × Scalar)} {ms : List (String × Document)} {n : String} {s : Scalar}
    {standard value : β} {read : Document → Option β}
    (h : Holds names (written f (known.filter fun m => keep m.1)) ms) (hn : n ∈ names)
    (single : known.filter (·.1 = n) = [(n, s)])
    (reads : (written? f s).elim (some standard) read = some value) :
    Config.member? ms n standard read = some (if keep n then value else standard) := by
  rw [member?_of_once (h.once hn single)]
  cases keep n with
  | true => exact reads
  | false => rfl

theorem natural?_toNat (n : UInt64) : natural? (.scalar (.integer n.toNat)) = some n := by
  have hlt : (n.toNat : Int) < wordCount := by
    rw [wordCount_eq]
    exact Int.ofNat_lt.mpr n.toNat_lt
  have hnonneg : 0 ≤ (n.toNat : Int) := Int.natCast_nonneg _
  rw [natural?, if_pos ⟨hnonneg, hlt⟩, Int.toNat_natCast]
  exact congrArg some n.ofNat_toNat

theorem text_read (f : Format) (s standard : String) :
    (written? f (.text s)).elim (some standard) text? = some s := by
  cases f <;> rfl

theorem number_read (f : Format) (x standard : Float) :
    (written? f (.real x)).elim (some standard) number? = some x := by
  cases f <;> rfl

theorem natural_read (f : Format) (n standard : UInt64) :
    (written? f (.integer n.toNat)).elim (some standard) natural? = some n := by
  have hwritten : written? f (.integer n.toNat) = some (.scalar (.integer n.toNat)) := by
    cases f <;> rfl
  rw [hwritten, Option.elim_some, natural?_toNat]

theorem version_read (f : Format) (v : Version) :
    choice? f versions (.scalar (.text (versionName v))) = some v := by
  cases v
  rfl

theorem projection_read (f : Format) (p standard : Projection) :
    (written? f (.text (projectionName p))).elim (some standard) (choice? f projections) =
      some p := by
  cases f <;> cases p <;> rfl

/-- A time limit as a member.  In a format without null its absence goes without
saying. -/
theorem limit_read (f : Format) (limit standard : Option UInt64)
    (absent : standard = none) :
    (written? f (match limit with
      | some l => .integer l.toNat
      | none => .null)).elim (some standard) (optional? natural?) = some limit := by
  subst absent
  cases limit with
  | none => cases f <;> rfl
  | some l =>
    have hwritten : written? f (.integer l.toNat) = some (.scalar (.integer l.toNat)) := by
      cases f <;> rfl
    show (written? f (.integer l.toNat)).elim _ _ = _
    rw [hwritten, Option.elim_some, optional?, natural?_toNat]
    · rfl
    · exact fun h => nomatch h

/-! ## Selections -/

/-- Which members a document gives, of those that it may leave out. -/
structure Selection where
  version : Bool
  /-- Members of the table of settings, which itself has to be there. -/
  batcher : String → Bool
  /-- Members of the table of the workload, if there is that table. -/
  simulation : Option (String → Bool)

namespace Selection

def settings (keep : String → Bool) (s : Settings Float) : Settings Float :=
  let standard : Settings Float := .standard
  { name := if keep "name" then s.name else standard.name
    probeInterval := if keep "probe_interval_ms" then s.probeInterval else standard.probeInterval
    packingThreshold :=
      if keep "packing_threshold_ms" then s.packingThreshold else standard.packingThreshold
    itemCeiling := if keep "avg_item_ceiling_ms" then s.itemCeiling else standard.itemCeiling
    probeTimeout := if keep "probe_timeout_ms" then s.probeTimeout else standard.probeTimeout
    projection := if keep "next_avg_formula" then s.projection else standard.projection
    failureCapacity :=
      if keep "failure_channel_capacity" then s.failureCapacity else standard.failureCapacity }

def workload (keep : String → Bool) (w : Workload Float) : Workload Float :=
  let standard : Workload Float := .standard
  { probe := if keep "probe_ms" then w.probe else standard.probe
    callOverhead := if keep "call_overhead_ms" then w.callOverhead else standard.callOverhead
    perItemCost := if keep "per_item_cost_ms" then w.perItemCost else standard.perItemCost
    producers := if keep "producers" then w.producers else standard.producers
    itemsPerProducer :=
      if keep "items_per_producer" then w.itemsPerProducer else standard.itemsPerProducer
    payloadBytes := if keep "payload_bytes" then w.payloadBytes else standard.payloadBytes }

/-- The standard configuration with the selected members of another one. -/
def pick (S : Selection) (c : Configuration Float) : Configuration Float :=
  { version := if S.version then c.version else .v1
    batcher := settings S.batcher c.batcher
    simulation := S.simulation.elim .standard (workload · c.simulation) }

/-- Whether a table gives these members of the settings, and a list of them. -/
def GivesSettings (f : Format) (keep : String → Bool) (s : Settings Float)
    (ms : List (String × Document)) : Prop :=
  Holds settingsNames (written f ((settingsMembers s).filter fun m => keep m.1)) ms

def GivesWorkload (f : Format) (keep : String → Bool) (w : Workload Float)
    (ms : List (String × Document)) : Prop :=
  Holds workloadNames (written f ((workloadMembers w).filter fun m => keep m.1)) ms

/-- Whether a document gives the selected members of a configuration and no others of
known names, each record in any order. -/
def Describes (S : Selection) (f : Format) (c : Configuration Float) (d : Document) : Prop :=
  ∃ ms bs simulation, d = .table ms ∧ GivesSettings f S.batcher c.batcher bs ∧
    (match S.simulation with
      | none => simulation = []
      | some keep => ∃ ws, simulation = [("simulation", .table ws)] ∧
          GivesWorkload f keep c.simulation ws) ∧
    Holds configurationNames
      ((if S.version then [("version", .scalar (.text (versionName c.version)))] else []) ++
        ("batcher", .table bs) :: simulation) ms

end Selection

/-! ## Decoding -/

theorem record?_of_holds {f : Format} {names : List String} {keep : String → Bool}
    {known : List (String × Scalar)} {ms : List (String × Document)}
    (h : Holds names (written f (known.filter fun m => keep m.1)) ms)
    (single : ∀ n ∈ names, ∃ s, known.filter (·.1 = n) = [(n, s)]) :
    record? f names (.table ms) = some ms := by
  have hall : (names.all fun n => occurrences n ms ≤ 1) = true := by
    rw [List.all_eq_true]
    intro n hn
    obtain ⟨s, hs⟩ := single n hn
    exact decide_eq_true (occurrences_of_once (h.once hn hs))
  rw [record?, if_pos hall]

theorem settings?_of_gives {f : Format} {keep : String → Bool} {s : Settings Float}
    {ms : List (String × Document)} (h : Selection.GivesSettings f keep s ms) :
    settings? f (.table ms) = some (Selection.settings keep s) := by
  obtain ⟨usual, husual⟩ : ∃ u : Settings Float, u = .standard := ⟨_, rfl⟩
  have hrecord := record?_of_holds h (by simp [settingsNames, settingsMembers])
  have hname := h.member? (n := "name") (by simp [settingsNames])
    (by simp [settingsMembers]) (text_read f s.name usual.name)
  have hinterval := h.member? (n := "probe_interval_ms") (by simp [settingsNames])
    (by simp [settingsMembers]) (natural_read f s.probeInterval usual.probeInterval)
  have hthreshold := h.member? (n := "packing_threshold_ms") (by simp [settingsNames])
    (by simp [settingsMembers])
    (number_read f s.packingThreshold usual.packingThreshold)
  have hceiling := h.member? (n := "avg_item_ceiling_ms") (by simp [settingsNames])
    (by simp [settingsMembers]) (number_read f s.itemCeiling usual.itemCeiling)
  have hlimit := h.member? (n := "probe_timeout_ms")
    (by simp [settingsNames]) (by rfl)
    (limit_read f s.probeTimeout usual.probeTimeout (by rw [husual]; rfl))
  have hprojection := h.member? (n := "next_avg_formula") (by simp [settingsNames])
    (by simp [settingsMembers])
    (projection_read f s.projection usual.projection)
  have hcapacity := h.member? (n := "failure_channel_capacity") (by simp [settingsNames])
    (by simp [settingsMembers])
    (natural_read f s.failureCapacity usual.failureCapacity)
  simp only [settings?, ← husual, hrecord, Option.bind_eq_bind, Option.bind_some, Option.pure_def, hname,
    hinterval, hthreshold, hceiling, hlimit, hprojection, hcapacity]
  subst husual
  rfl

theorem workload?_of_gives {f : Format} {keep : String → Bool} {w : Workload Float}
    {ms : List (String × Document)} (h : Selection.GivesWorkload f keep w ms) :
    workload? f (.table ms) = some (Selection.workload keep w) := by
  obtain ⟨usual, husual⟩ : ∃ u : Workload Float, u = .standard := ⟨_, rfl⟩
  have hrecord := record?_of_holds h (by simp [workloadNames, workloadMembers])
  have hprobe := h.member? (n := "probe_ms") (by simp [workloadNames])
    (by simp [workloadMembers]) (number_read f w.probe usual.probe)
  have hoverhead := h.member? (n := "call_overhead_ms") (by simp [workloadNames])
    (by simp [workloadMembers]) (number_read f w.callOverhead usual.callOverhead)
  have hcost := h.member? (n := "per_item_cost_ms") (by simp [workloadNames])
    (by simp [workloadMembers]) (number_read f w.perItemCost usual.perItemCost)
  have hproducers := h.member? (n := "producers") (by simp [workloadNames])
    (by simp [workloadMembers]) (natural_read f w.producers usual.producers)
  have hitems := h.member? (n := "items_per_producer") (by simp [workloadNames])
    (by simp [workloadMembers])
    (natural_read f w.itemsPerProducer usual.itemsPerProducer)
  have hbytes := h.member? (n := "payload_bytes") (by simp [workloadNames])
    (by simp [workloadMembers]) (natural_read f w.payloadBytes usual.payloadBytes)
  simp only [workload?, ← husual, hrecord, Option.bind_eq_bind, Option.bind_some, Option.pure_def, hprobe,
    hoverhead, hcost, hproducers, hitems, hbytes]
  subst husual
  rfl

theorem configuration?_of_describes {S : Selection} {f : Format} {c : Configuration Float}
    {d : Document} (h : S.Describes f c d) : configuration? f d = some (S.pick c) := by
  obtain ⟨ms, bs, simulation, rfl, hsettings, hworkload, hms⟩ := h
  obtain ⟨o, rfl, hread⟩ : ∃ o : Option Document, simulation = o.toList.map ("simulation", ·) ∧
      o.elim (some .standard) (workload? f) =
        some (S.simulation.elim .standard (Selection.workload · c.simulation)) := by
    cases hS : S.simulation with
    | none =>
      rw [hS] at hworkload
      exact ⟨none, hworkload, rfl⟩
    | some keep =>
      rw [hS] at hworkload
      obtain ⟨ws, rfl, hws⟩ := hworkload
      exact ⟨some (.table ws), rfl, workload?_of_gives hws⟩
  have hversion : (ms.filter (·.1 = "version")).Perm
      ((if S.version then some (Document.scalar (.text (versionName c.version)))
        else none).toList.map ("version", ·)) := by
    have honly := hms.only (n := "version") (by simp [configurationNames])
    cases hv : S.version <;> cases o <;> simpa [hv] using honly
  have hbatcher : (ms.filter (·.1 = "batcher")).Perm
      ((some (Document.table bs)).toList.map ("batcher", ·)) := by
    have honly := hms.only (n := "batcher") (by simp [configurationNames])
    cases hv : S.version <;> cases o <;> simpa [hv] using honly
  have hsimulation : (ms.filter (·.1 = "simulation")).Perm
      (o.toList.map ("simulation", ·)) := by
    have honly := hms.only (n := "simulation") (by simp [configurationNames])
    cases hv : S.version <;> cases o <;> simpa [hv] using honly
  have hrecord : record? f configurationNames (.table ms) = some ms := by
    rw [record?, if_pos]
    simp [configurationNames, occurrences_of_once hversion, occurrences_of_once hbatcher,
      occurrences_of_once hsimulation]
  have hv : Config.member? ms "version" .v1 (choice? f versions) =
      some (if S.version then c.version else .v1) := by
    rw [member?_of_once hversion]
    cases S.version with
    | true => exact version_read f c.version
    | false => rfl
  have hb : (ms.lookup "batcher").bind (settings? f) =
      some (Selection.settings S.batcher c.batcher) := by
    rw [lookup_of_once hbatcher]
    exact settings?_of_gives hsettings
  have hs : Config.member? ms "simulation" .standard (workload? f) =
      some (S.simulation.elim .standard (Selection.workload · c.simulation)) := by
    rw [member?_of_once hsimulation, hread]
  simp only [configuration?, hrecord, Option.bind_eq_bind, Option.bind_some, Option.pure_def,
    hv, hb, hs]
  rfl

/-! ## The check -/

theorem check_settings {keep : String → Bool} {s : Settings Float} (h : s.check = .ok ()) :
    (Selection.settings keep s).check = .ok () := by
  have hstandard : (Settings.standard : Settings Float).check = .ok () :=
    (check_ok _).mpr (by decide +kernel)
  rw [check_ok] at h hstandard ⊢
  simp only [Selection.settings]
  refine ⟨?_, ?_, ?_, ⟨?_, ?_⟩, ?_, ?_⟩ <;> split <;> simp_all

theorem check_workload {keep : String → Bool} {w : Workload Float} (h : w.check = .ok ()) :
    (Selection.workload keep w).check = .ok () := by
  have hstandard : (Workload.standard : Workload Float).check = .ok () :=
    (Workload.check_ok _).mpr (by decide +kernel)
  rw [Workload.check_ok] at h hstandard ⊢
  simp only [Selection.workload]
  refine ⟨?_, ?_, ?_, ?_⟩ <;> split <;> simp_all

theorem check_pick {c : Configuration Float} (h : c.check = .ok ()) (S : Selection) :
    (S.pick c).check = .ok () := by
  have hstandard : (Workload.standard : Workload Float).check = .ok () :=
    (Workload.check_ok _).mpr (by decide +kernel)
  rw [Configuration.check_ok] at h ⊢
  refine ⟨check_settings h.1, ?_⟩
  cases hS : S.simulation with
  | none =>
    simp only [Selection.pick, hS]
    exact hstandard
  | some keep =>
    simp only [Selection.pick, hS]
    exact check_workload h.2

theorem check_standard : (Configuration.standard : Configuration Float).check = .ok () :=
  (Configuration.check_ok _).mpr
    ⟨(check_ok _).mpr (by decide +kernel), (Workload.check_ok _).mpr (by decide +kernel)⟩

theorem loadText_of_read {f : Format} {text : String} {d : Document} {c : Configuration Float}
    (hread : readDocument? f text = some d) (hdecode : configuration? f d = some c)
    (hcheck : c.check = .ok ()) : loadText f text = .ok c := by
  simp only [loadText, hread, hdecode, hcheck]
  rfl

/-! ## Missing members, and members in another order -/

/-- A document without any members but the one that has to be there. -/
def emptyDocument : Document := .table [("batcher", .table [])]

def emptyText : Format → String
  | .toml => "[batcher]\n"
  | .json => "\x7b\"batcher\": \x7b\x7d\x7d"

theorem read_emptyText (f : Format) : readDocument? f (emptyText f) = some emptyDocument := by
  cases f with
  | toml => cbv
  | json => cbv

theorem configuration?_emptyDocument (f : Format) :
    configuration? f emptyDocument = some .standard := by
  cases f <;> rfl

theorem loadText_emptyText (f : Format) : loadText f (emptyText f) = .ok .standard :=
  loadText_of_read (read_emptyText f) (configuration?_emptyDocument f) check_standard

/-- Whatever members of a configuration a document leaves out, in whatever order it has
the others, and whatever else it has. -/
structure FillsGaps (c : Configuration Float) : Prop where
  decodes : ∀ {S : Selection} {f d}, S.Describes f c d → configuration? f d = some (S.pick c)
  checks : ∀ S : Selection, (S.pick c).check = .ok ()
  /-- With nothing in it a file is what a simulation starts from without one. -/
  empty : ∀ f files, configuration? f emptyDocument = some .standard ∧
    loadText f (emptyText f) = .ok .standard ∧
    Command.loadConfiguration files none = .ok .standard

theorem fillsGaps_of_check {c : Configuration Float} (h : c.check = .ok ()) : FillsGaps c :=
  ⟨configuration?_of_describes, check_pick h,
    fun f _ => ⟨configuration?_emptyDocument f, loadText_emptyText f, rfl⟩⟩

/-- A configuration of which little is standard. -/
def busy : Configuration Float :=
  { version := .v1
    batcher :=
      { name := "busy", probeInterval := 20, packingThreshold := 0.5, itemCeiling := 9.0
        probeTimeout := some 250, projection := .corrected, failureCapacity := 1 }
    simulation := { (.standard : Workload Float) with producers := 9, payloadBytes := 0 } }

theorem check_busy : busy.check = .ok () :=
  (Configuration.check_ok _).mpr
    ⟨(check_ok _).mpr (by decide +kernel), (Workload.check_ok _).mpr (by decide +kernel)⟩

/-- Two of its settings and one number of its workload, backwards and among others. -/
def busyDocument : Document :=
  .table
    [("comment", .moment),
      ("simulation", .table [("colour", .broken), ("producers", .scalar (.integer 9))]),
      ("batcher", .table
        [("next_avg_formula", .scalar (.text "corrected")),
          ("probe_timeout_ms", .scalar (.integer 250))])]

def busySelection : Selection :=
  { version := false
    batcher := (["probe_timeout_ms", "next_avg_formula"].contains ·)
    simulation := some (· = "producers") }

theorem busyDocument_describes (f : Format) : busySelection.Describes f busy busyDocument := by
  refine ⟨_, _, _, rfl, ⟨[], by simp, ?_⟩, ⟨_, rfl, [("colour", .broken)], ?_, ?_⟩,
    [("comment", .moment)], ?_, List.reverse_perm [_, _, _]⟩
  · cases f <;> exact List.reverse_perm [_, _]
  · simp [workloadNames]
  · cases f <;> exact List.reverse_perm [_, _]
  · simp [configurationNames]

theorem fillsGaps_of_busy :
    busy.check = .ok () ∧ busySelection.Describes .toml busy busyDocument ∧
      configuration? .toml busyDocument = configuration? .json busyDocument ∧
      configuration? .json busyDocument = some
        { (.standard : Configuration Float) with
          batcher :=
            { (.standard : Settings Float) with
              probeTimeout := some 250, projection := .corrected }
          simulation := { (.standard : Workload Float) with producers := 9 } } := by
  have hgaps := fillsGaps_of_check check_busy
  have htoml := hgaps.decodes (busyDocument_describes .toml)
  have hjson := hgaps.decodes (busyDocument_describes .json)
  exact ⟨check_busy, busyDocument_describes .toml, htoml.trans hjson.symm, hjson⟩

end Config
end AdaptiveBatch
