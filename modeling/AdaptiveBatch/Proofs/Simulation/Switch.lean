import AdaptiveBatch.Command.Validate
import AdaptiveBatch.Proofs.Decimal.Order
import AdaptiveBatch.Proofs.Simulation.Conservation

/-!
# The packing switch in a simulation

The simulated sink answers every probe alike, and its first answer comes before any offer.
So the switch stays as the seed probe has left it, and all items of a simulation go the same
way.  Which one that is can be told from the configuration.
-/

namespace AdaptiveBatch

/-- A call that is no flush hands over neither a batch nor a single item. -/
theorem Request.kind_of_unflushed {α : Type} {r : Request α} (h : r.flush? = none) :
    r.isBatch = false ∧ r.isSingle = false := by
  cases r with
  | sendBatch | sendSingle => cases h
  | _ => exact ⟨rfl, rfl⟩

namespace Engine

variable {α ν : Type}

/-! ## One way to the sink -/

/-- Nothing has gone but by way of the buffer. -/
structure Packed (s : State α ν) : Prop where
  returned : s.returnedDirects = []
  outside : s.Without .sending

/-- The direct calls that have returned were of one item each. -/
def Singly (s : State α ν) : Prop := ∀ xs ∈ s.returnedDirects, xs.length = 1

theorem Singly.length_flatten {s : State α ν} (h : Singly s) :
    s.returnedDirects.flatten.length = s.returnedDirects.length := by
  rw [List.length_flatten, List.map_eq_replicate_iff.mpr h, List.sum_replicate, smul_eq_mul,
    Nat.mul_one]

variable [Number ν] {s t : State α ν} {e : Event α ν}

/-- A direct call that returns was that of an offer under way. -/
theorem returnedDirects_move (h : Move s e t) :
    t.returnedDirects = s.returnedDirects ∨
      ∃ n k, s.ticket? n = some k ∧ k.phase = .sending ∧
        t.returnedDirects = s.returnedDirects ++ [k.offer.items] := by
  cases h with
  | @directReturns n k fault found phase =>
    have hreturned := returnedDirects_note s (.offer n) k.offer.request fault
    rw [direct?_request] at hreturned
    exact .inr ⟨n, k, found, phase, hreturned⟩
  | @flushReturns items reason =>
    exact .inl (returnedDirects_other s .scheduler none (direct?_flushRequest items))
  | @flushFails items reason fault =>
    exact .inl (returnedDirects_other s .scheduler (some fault) (direct?_flushRequest items))
  | closeReturns => exact .inl (returnedDirects_other s .scheduler (r := .close) none rfl)
  | closeFails fault =>
    exact .inl (returnedDirects_other s .scheduler (r := .close) (some fault) rfl)
  | _ => exact .inl rfl

theorem packed_move (h : Move s e t) (packing : s.model.packing = true) (hs : Packed s) :
    Packed t := by
  have houtside := hs.outside
  constructor
  · rcases returnedDirects_move h with same | ⟨n, k, found, phase, -⟩
    · exact same.trans hs.returned
    · exact absurd phase (houtside _ (ticket?_mem found))
  · cases h with
    | offer => exact without_arrive houtside (by decide) _ _
    | refuse => exact without_answer houtside _ _
    | @lineUp n => exact without_setPhase houtside n (by decide)
    | send found phase opened running direct =>
      rw [packing] at direct
      cases direct
    | @bounce n => exact without_answer (s := s) houtside n (.refused (.closed s.settings.name))
    | @append n => exact without_answer (s := s) houtside n .accepted
    | directReturns fault found phase | directCrashes found phase =>
      exact absurd phase (houtside _ (ticket?_mem found))
    | _ => exact houtside

theorem singly_move (h : Move s e t) (hs : Smooth s) (singly : Singly s) : Singly t := by
  intro xs hxs
  rcases returnedDirects_move h with same | ⟨n, k, found, -, grown⟩
  · rw [same] at hxs
    exact singly xs hxs
  · rw [grown, List.mem_append, List.mem_singleton] at hxs
    obtain ⟨x, hx⟩ := hs.singles k (ticket?_mem found)
    rcases hxs with hxs | rfl
    · exact singly xs hxs
    · rw [hx]
      rfl

/-! ## One answer to all probes -/

/-- An engine whose probes have all been answered with `v`. -/
structure Switched (settings : Settings ν) (v : ν) (s : State α ν) : Prop where
  informed : ∃ n, Informed settings (List.replicate (n + 1) v) s
  unpacked : s.model.packing = false → Unpacked s
  packed : s.model.packing = true → Packed s
  singly : Singly s

variable {settings : Settings ν} {v : ν}

theorem packing_of_informed {n : Nat} (h : Informed settings (List.replicate (n + 1) v) s) :
    s.model.packing = Number.less settings.packingThreshold (Estimate.ofProbe v).latency := by
  rw [Bool.eq_iff_iff, h.packing]
  constructor
  · rintro ⟨w, hw, above⟩
    rwa [List.eq_of_mem_replicate hw] at above
  · exact fun above => ⟨v, List.mem_replicate.mpr ⟨Nat.succ_ne_zero n, rfl⟩, above⟩

namespace Switched

theorem packing (h : Switched settings v s) :
    s.model.packing = Number.less settings.packingThreshold (Estimate.ofProbe v).latency := by
  obtain ⟨n, hn⟩ := h.informed
  exact packing_of_informed hn

theorem move (h : Switched settings v s) (hmove : Move s e t) (hs : Smooth s)
    (answer : ∀ w, e.answer? = some w → w = v) : Switched settings v t := by
  obtain ⟨n, hn⟩ := h.informed
  have hinformed := informed_move hmove hn
  obtain ⟨m, hm⟩ : ∃ m, List.replicate (n + 1) v ++ e.answer?.toList = List.replicate (m + 1) v := by
    cases hanswer : e.answer? with
    | none => exact ⟨n, List.append_nil _⟩
    | some w =>
      rw [answer w hanswer]
      exact ⟨n + 1, List.replicate_succ'.symm⟩
  rw [hm] at hinformed
  have hsame : t.model.packing = s.model.packing :=
    (packing_of_informed hinformed).trans h.packing.symm
  refine ⟨⟨m, hinformed⟩, fun direct => ?_, fun packing => ?_, singly_move hmove hs h.singly⟩
  · exact unpacked_move hmove (orderly_of_raced hs.raced) direct h.unpacked
  · rw [hsame] at packing
    exact packed_move hmove packing (h.packed packing)

theorem reorder (h : Switched settings v s) (line : List Waiter) :
    Switched settings v { s with line } := by
  obtain ⟨n, hn⟩ := h.informed
  refine ⟨⟨n, hn.keep⟩, fun direct => ?_, fun packing => ?_, h.singly⟩
  · obtain ⟨empty, flushed, skips, skipped, outside⟩ := h.unpacked direct
    exact ⟨empty, flushed, skips, skipped, outside⟩
  · obtain ⟨returned, outside⟩ := h.packed packing
    exact ⟨returned, outside⟩

end Switched

theorem switched_of_spawn {sink : String} {now delay : Nat}
    (h : State.spawn settings sink now delay (.answer v) = .ok s) : Switched settings v s := by
  have fresh := fresh_of_spawn h
  have hreturned : s.returnedDirects = [] := by
    have hnone : s.returned = [] := seen_fresh fresh rfl fun _ => rfl
    rw [State.returnedDirects, hnone]
    rfl
  have houtside : s.Without .sending := by
    intro k hk
    rw [fresh.offers] at hk
    cases hk
  obtain ⟨b, millis, blank, counts, hb⟩ := blank_of_spawn h
  have hv : millis = v := by
    rw [ProbeReply.cost?] at counts
    split at counts
    · exact (Option.some.inj counts).symm
    · cases counts
  refine ⟨⟨0, ?_⟩, fun _ => unpacked_fresh fresh, fun _ => ⟨hreturned, houtside⟩, ?_⟩
  · rw [hb, hv]
    exact ((Informed.blank blank).learn v).keep
  · intro xs hxs
    rw [hreturned] at hxs
    cases hxs

end Engine

namespace Simulation

open Decimal Engine

/-! ## Turns and the engine -/

section Turns

variable {ν : Type} [Number ν] {workload : Workload ν} {w u : World ν} {c : Run ν}

/-- Nobody but the prober has an answer to bring. -/
theorem answer?_of_other {task : Task} {e : Event Payload ν} (other : task ≠ .prober)
    (h : c.event? task = some e) : e.answer? = none := by
  cases task with
  | prober => exact absurd rfl other
  | _ =>
    simp only [Clock.event?, Clock.offerEvent?, Clock.directEnd, Clock.acquireEvent?,
      Clock.tickEvent?, Clock.schedulerEvent?, Clock.beatEvent?] at h
    repeat' split at h
    all_goals cases h <;> rfl

/-- The sink answers nothing but what the workload says. -/
theorem answer_of_task {task : Task} {e : Event Payload ν} (hc : Aloft workload c)
    (h : c.event? task = some e) : ∀ v, e.answer? = some v → v = workload.probe := by
  intro v hv
  by_cases hprober : task = .prober
  · subst hprober
    simp only [Clock.event?, Clock.proberEvent?] at h
    split at h
    · split at h
      · rw [← Option.some.inj h] at hv
        cases hv
      · cases h
    · rename_i probing
      obtain ⟨f, hprobe, hreply⟩ := hc.probe probing
      simp only [hprobe, hreply] at h
      split at h
      · rw [← Option.some.inj h] at hv
        simp only [Event.answer?, Sink.Reply.probe, ProbeReply.cost?] at hv
        split at hv
        · exact (Option.some.inj hv).symm
        · cases hv
      · cases h
    · cases h
  · rw [answer?_of_other hprober h] at hv
    cases hv

/-- What a turn does to the engine. -/
inductive Steered (workload : Workload ν) (s : State Payload ν) : State Payload ν → Prop
  | still : Steered workload s s
  | reorder (line : List Waiter) : Steered workload s { s with line }
  | step {e : Event Payload ν} {t : State Payload ν} (h : s.step? e = some t)
      (answer : ∀ v, e.answer? = some v → v = workload.probe) : Steered workload s t

theorem steered_next (p : Producer) (size : Nat) (c : Run ν) :
    Steered workload c.engine (p.next size c).2.engine := by
  rw [Producer.next]
  split
  · exact .still
  · split
    · rename_i payload hpayload
      have hstep : c.engine.step? (.offer (.one payload)) =
          some (c.engine.arrive (.one payload)) := rfl
      have hengine := Clock.engine_apply hstep
      refine hengine ▸ .step hstep ?_
      intro v hv
      cases hv
    · exact .still

theorem steered_of_step {size : Nat} {t : Turn} (hw : Kept workload w)
    (checked : workload.check = .ok ()) (h : w.step? size t = some (.ok u)) :
    Steered workload w.run.engine u.run.engine := by
  generalize hr : Except.ok u = r at h
  cases took_of_step h with
  | elapse ms =>
    obtain rfl := Except.ok.inj hr
    exact .step (e := .elapse ms) rfl nofun
  | @task task e event =>
    obtain rfl := Except.ok.inj hr
    have orders := orders_of_task hw.aloft (isCost_of_check checked) event
    obtain ⟨s, hs⟩ := Option.isSome_iff_exists.mp orders.enabled
    have hengine := Clock.engine_apply hs
    exact hengine.symm ▸ .step hs (answer_of_task hw.aloft event)
  | reorder order =>
    obtain rfl := Except.ok.inj hr
    exact .reorder _
  | @begins i before after p place fresh =>
    obtain rfl := Except.ok.inj hr
    exact steered_next p size w.run
  | @resumes i before after p n now o place waits =>
    cases o with
    | accepted =>
      obtain rfl := Except.ok.inj hr
      exact steered_next _ size w.run
    | refused e =>
      cases e with
      | closed name =>
        obtain rfl := Except.ok.inj hr
        exact .still
      | _ => cases hr
    | crashed =>
      obtain rfl := Except.ok.inj hr
      exact .still
  | shutdown =>
    obtain rfl := Except.ok.inj hr
    exact .step (e := .close) rfl nofun
  | wrapUp =>
    obtain rfl := Except.ok.inj hr
    exact .step (e := .close) rfl nofun

/-- Whatever turns are taken, the switch stays as it is. -/
theorem switched_play {settings : Settings ν} (checked : workload.check = .ok ())
    (payable : Payable workload (total workload)) {ts : List Turn} {w u : World ν}
    (hw : Kept workload w) (hs : Switched settings workload.probe w.run.engine)
    (h : w.play? workload.payloadBytes.toNat ts = some (.ok u)) :
    Switched settings workload.probe u.run.engine := by
  refine play_induction
    (motive := fun w _ u => Kept workload w → Switched settings workload.probe w.run.engine →
      Switched settings workload.probe u.run.engine)
    (fun _ _ => id) ?_ h hw hs
  intro w v u t ts hstep _ ih hw hs
  refine ih (hw.stepped checked payable hstep) ?_
  have hsteered := steered_of_step hw checked hstep
  generalize v.run.engine = after at hsteered ⊢
  cases hsteered with
  | still => exact hs
  | reorder line => exact hs.reorder line
  | step h answer => exact hs.move (move_of_step h) hw.smooth answer

end Turns

/-! ## Figures of one way -/

section Figures

variable {ν : Type} [Number ν] [SquareRoot ν] {settings : Settings ν} {workload : Workload ν}
  {w : World ν}

/-- With the switch off all items are sent as they are offered. -/
theorem Kept.figures_direct (hw : Kept workload w)
    (hs : Switched settings workload.probe w.run.engine) (hover : w.isOver = true)
    (direct : w.run.engine.model.packing = false) :
    w.stats.delivery.batchCalls = 0 ∧ w.stats.delivery.singleCalls = 0 ∧
      w.stats.delivery.directCalls = w.stats.itemsOffered.toUInt64 := by
  have booked := hw.smooth.booked
  have tallies := hw.aloft.tallies
  have hflushes : w.run.engine.returnedFlushes = [] := by
    have hreturn : FlushesReturn w.run.engine := hw.smooth.returns
    rw [FlushesReturn, (hs.unpacked direct).flushed] at hreturn
    exact (List.append_eq_nil_iff.mp hreturn.symm).1
  have hkinds : ∀ c ∈ w.run.engine.returned, c.1.isBatch = false ∧ c.1.isSingle = false := by
    rw [State.returnedFlushes, List.filterMap_eq_nil_iff] at hflushes
    exact fun c hc => Request.kind_of_unflushed (hflushes c hc)
  have hbatches : (w.run.engine.returned.countP fun c => c.1.isBatch) = 0 :=
    List.countP_eq_zero.mpr fun c hc => Bool.eq_false_iff.mp (hkinds c hc).1
  have hsingles : (w.run.engine.returned.countP fun c => c.1.isSingle) = 0 :=
    List.countP_eq_zero.mpr fun c hc => Bool.eq_false_iff.mp (hkinds c hc).2
  refine ⟨?_, ?_, ?_⟩
  · exact tallies.batchCalls.trans (booked.batches.trans (congrArg Nat.toUInt64 hbatches))
  · exact tallies.singleCalls.trans (booked.singles.trans (congrArg Nat.toUInt64 hsingles))
  · have hdelivered := (hw.conserves hover).delivered
    have hitems : w.run.engine.counters.delivered = w.run.engine.counters.directCalls := by
      rw [Metrics.Counters.delivered, booked.directItems, booked.flushed, hflushes,
        booked.directCalls, hs.singly.length_flatten]
      exact UInt64.add_zero _
    exact tallies.directCalls.trans (hitems.symm.trans hdelivered)

/-- With the switch on nothing is sent but by way of the buffer. -/
theorem Kept.figures_packed (hw : Kept workload w)
    (hs : Switched settings workload.probe w.run.engine)
    (packing : w.run.engine.model.packing = true) : w.stats.delivery.directCalls = 0 := by
  have hcalls := hw.smooth.booked.directCalls
  rw [(hs.packed packing).returned] at hcalls
  exact hw.aloft.tallies.directCalls.trans hcalls

end Figures

/-! ## The warning -/

/-- Whether a configuration is warned about because nothing will be packed. -/
def WarnsOfDirect (c : Configuration Float) : Prop :=
  ∃ latency threshold, Command.Warning.neverPacks latency threshold ∈ Command.warnings c

theorem warnsOfDirect_iff_le {c : Configuration Float} :
    WarnsOfDirect c ↔
      (Estimate.ofProbe c.simulation.probe).latency ≤ c.batcher.packingThreshold := by
  rw [WarnsOfDirect, Command.warnings]
  by_cases hle : (Estimate.ofProbe c.simulation.probe).latency ≤ c.batcher.packingThreshold
  · rw [if_pos hle]
    exact ⟨fun _ => hle, fun _ => ⟨_, _, List.mem_cons_self⟩⟩
  · rw [if_neg hle]
    refine ⟨?_, fun h => absurd h hle⟩
    rintro ⟨latency, threshold, hmem⟩
    simp only [List.nil_append, List.mem_append] at hmem
    rcases hmem with hlate | hlow
    · split at hlate
      · split at hlate <;> simp at hlate
      · cases hlate
    · split at hlow <;> simp at hlow

theorem isNaN_latency {x : Float} (h : Number.isCost x = true) :
    (Estimate.ofProbe x).latency.isNaN = false := by
  have hfactor : (0.9 : Float) = number false 4606281698874543309 := eq_of_toBits (by decide +kernel)
  show (0.9 * x).isNaN = false
  rw [hfactor]
  rcases exists_cost h with rfl | ⟨n, hn, rfl⟩
  · decide +kernel
  · rcases Nat.eq_zero_or_pos n with rfl | hpos
    · decide +kernel
    · obtain ⟨k, -, hk⟩ := mul_number (a := 4606281698874543309) (by decide) ⟨hpos, hn⟩
      rw [hk]
      exact isNaN_number (Nat.min_le_left _ _)

/-- The warning is given if the latency of the simulated sink leaves the switch off. -/
theorem warnsOfDirect_iff {c : Configuration Float} (checked : c.check = .ok ()) :
    WarnsOfDirect c ↔ Number.less c.batcher.packingThreshold
      (Estimate.ofProbe c.simulation.probe).latency = false := by
  obtain ⟨hsettings, hworkload⟩ := (Configuration.check_ok c).mp checked
  have hthreshold := ((check_ok _).mp hsettings).2.2.1
  have hle := Decimal.decide_le_eq_not (isNaN_latency (isCost_of_check hworkload))
    (Decimal.isNaN_of_isFinite (Bool.and_eq_true_iff.mp hthreshold).1)
  rw [warnsOfDirect_iff_le, ← decide_eq_true_iff (p := _ ≤ _), hle, Bool.not_eq_true']
  rfl

/-- What the warning, or that there is none, says about the figures of a simulation. -/
structure Foretold (c : Configuration Float) (s : Stats Float) : Prop where
  direct : WarnsOfDirect c →
    s.packing = false ∧ s.delivery.batchCalls = 0 ∧ s.delivery.singleCalls = 0 ∧
      s.delivery.directCalls = s.itemsOffered.toUInt64
  packed : ¬ WarnsOfDirect c → s.packing = true ∧ s.delivery.directCalls = 0

/-- What a simulation that starts as `w₀` comes to, in whichever order its turns come and
whenever shutdown is requested. -/
structure Foretells (c : Configuration Float) (w₀ : World Float) : Prop where
  figures : ∀ {ts r}, w₀.play? c.simulation.payloadBytes.toNat ts = some r →
    ∃ w, r = .ok w ∧ (w.isOver = true → w.conclude = .ok w.stats ∧ Foretold c w.stats)
  ends : ∀ {ts w}, w₀.play? c.simulation.payloadBytes.toNat ts = some (.ok w) →
    ∃ more u, w.play? c.simulation.payloadBytes.toNat more = some (.ok u) ∧ u.isOver = true

theorem foretells_of_check {c : Configuration Float} (checked : c.check = .ok ())
    (capacity : c.batcher.failureCapacity.toNat ≤ greatestCapacity)
    (payable : Payable c.simulation (total c.simulation)) :
    ∃ w₀, World.start c.batcher c.simulation = .ok w₀ ∧ Foretells c w₀ := by
  obtain ⟨hsettings, hworkload⟩ := (Configuration.check_ok c).mp checked
  obtain ⟨s, delay, hspawn, hstart⟩ := start_ok hsettings (isCost_of_check hworkload) capacity
  have hkept : Kept c.simulation (World.begun c.batcher c.simulation s) := kept_of_spawn hspawn
  have hswitched : Switched c.batcher c.simulation.probe
      (World.begun c.batcher c.simulation s).run.engine := switched_of_spawn hspawn
  refine ⟨_, hstart, ?_, ?_⟩
  · intro ts r h
    obtain ⟨w, rfl, hw⟩ := Kept.play hworkload payable hkept h
    have hs := switched_play hworkload payable hkept hswitched h
    refine ⟨w, rfl, fun hover => ⟨hw.concluded, ?_, ?_⟩⟩
    · intro warned
      have direct := hs.packing.trans ((warnsOfDirect_iff checked).mp warned)
      exact ⟨direct, hw.figures_direct hs hover direct⟩
    · intro silent
      have packing := hs.packing.trans
        (Bool.not_eq_false _ ▸ mt (warnsOfDirect_iff checked).mpr silent)
      exact ⟨packing, hw.figures_packed hs packing⟩
  · intro ts w h
    have hw := hkept.played hworkload payable h
    obtain ⟨more, u, -, hplay, hover⟩ := Kept.ends hworkload payable hw
    exact ⟨more, u, hplay, hover⟩

/-- A sink whose latency is the threshold, and no more. -/
def borderline : Configuration Float :=
  { (.standard : Configuration Float) with
    batcher := { (.standard : Settings Float) with packingThreshold := 1.8 }
    simulation :=
      { (.standard : Workload Float) with probe := 2.0, producers := 1, itemsPerProducer := 2 } }

theorem check_borderline : borderline.check = .ok () :=
  (Configuration.check_ok _).mpr
    ⟨(check_ok _).mpr (by decide +kernel), (Workload.check_ok _).mpr (by decide +kernel)⟩

theorem payable_borderline : Payable borderline.simulation (total borderline.simulation) := by
  unfold Payable
  decide +kernel

theorem foretells_of_borderline :
    borderline.check = .ok () ∧ borderline.batcher.failureCapacity.toNat ≤ greatestCapacity ∧
      Payable borderline.simulation (total borderline.simulation) ∧ WarnsOfDirect borderline ∧
      ∃ w₀ ts w, World.start borderline.batcher borderline.simulation = .ok w₀ ∧
        w₀.play? borderline.simulation.payloadBytes.toNat ts = some (.ok w) ∧
        w.isOver = true ∧ w.stats.packing = false ∧
        w.stats.delivery.directCalls = w.stats.itemsOffered.toUInt64 := by
  have hwarns : WarnsOfDirect borderline :=
    (warnsOfDirect_iff check_borderline).mpr (by decide +kernel)
  obtain ⟨w₀, hstart, hforetells⟩ :=
    foretells_of_check check_borderline (by decide) payable_borderline
  have hstill : w₀.play? borderline.simulation.payloadBytes.toNat [] = some (.ok w₀) := rfl
  obtain ⟨ts, w, hplay, hover⟩ := hforetells.ends hstill
  obtain ⟨w', hw, hfigures⟩ := hforetells.figures hplay
  obtain rfl := Except.ok.inj hw
  have hdirect := (hfigures hover).2.direct hwarns
  exact ⟨check_borderline, by decide, payable_borderline, hwarns, w₀, ts, w, hstart, hplay, hover,
    hdirect.1, hdirect.2.2.2⟩

end Simulation
end AdaptiveBatch
