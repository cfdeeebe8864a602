import Mathlib.Data.Nat.Sqrt
import AdaptiveBatch.Decimal.Instance
import AdaptiveBatch.Proofs.Engine.Ledger
import AdaptiveBatch.Proofs.Simulation.Schedule

/-!
# Conservation of items

What the producers have offered with success, what the engine has counted and what the
sink has counted are three accounts, kept by different tasks.  Once a simulation is over
they agree, whoever took turns when, and whenever shutdown was requested.
-/

namespace AdaptiveBatch

namespace Engine

variable {α ν : Type} [Number ν] {s : State α ν}

/-- Once the scheduler has ended, what is counted as delivered is what was accepted. -/
theorem delivered_of_smooth (hs : Smooth s) (ended : s.schedulerEnded = true) :
    s.counters.delivered = s.accepted.length.toUInt64 := by
  obtain ⟨crashed, hphase⟩ := ended_of_schedulerEnded ended
  have hflushed : s.flushed = s.returnedFlushes := by
    have hreturns := hs.returns
    rw [FlushesReturn, hphase] at hreturns
    exact hreturns.trans (List.append_nil _)
  have hjoined : s.returnedFlushes.flatten = s.appended.flatten := by
    have horder := inOrder_of_raced hs.raced
    rw [InOrder, hs.staged.empty ended, List.append_nil, hflushed] at horder
    exact horder
  rw [Metrics.Counters.delivered, hs.booked.directItems, hs.booked.flushed,
    ← Metrics.toUInt64_add, hjoined, hs.accounted]

theorem flushFailures_of_smooth (hs : Smooth s) : s.counters.flushFailures = 0 := by
  have hnone : (s.returned.countP fun c => c.1.flush?.isSome && c.2.isSome) = 0 := by
    rw [List.countP_eq_zero]
    intro c hc
    rw [hs.faultless c hc]
    simp
  rw [hs.booked.failures, hnone]
  rfl

end Engine

namespace Simulation

open Engine

/-! ## When all producers are done -/

theorem waiting_done {ps : List Producer} (done : ∀ p ∈ ps, p.phase = .done) :
    waiting ps = [] := by
  rw [waiting, List.filterMap_eq_nil_iff]
  intro p hp
  rw [Producer.waitsFor?, done p hp]

section Whole

variable {ν : Type} [Number ν] {workload : Workload ν} {w : World ν}

/-- What the engine has accepted is what the producers have counted. -/
theorem Kept.counted_eq (hw : Kept workload w) (done : ∀ p ∈ w.producers, p.phase = .done) :
    counted w.producers = w.run.engine.accepted.length := by
  have haccepted := hw.manned.accepted
  rw [waiting_done done] at haccepted
  exact haccepted

/-- Unless it is interrupted, a simulation offers all there is. -/
theorem Kept.counted_total (hw : Kept workload w) (done : ∀ p ∈ w.producers, p.phase = .done)
    (running : w.interrupted = false) (makes : Makes workload) :
    counted w.producers = total workload := by
  rw [total, ← hw.number]
  refine counted_even fun p hp => ?_
  obtain ⟨hsum, hleft⟩ := hw.whole running makes p hp
  have hnone := hleft (done p hp)
  omega

omit [Number ν] in
theorem makes_of_short (short : workload.payloadBytes.toNat < 2 ^ 63) : Makes workload := by
  have short' : workload.payloadBytes.toNat < 0x8000000000000000 := short
  rw [Makes, Payload.make?, if_pos short']
  rfl

theorem Kept.joinError? (hw : Kept workload w) : w.run.joinError? = none := by
  have hprober := hw.smooth.prober
  have hscheduler := hw.smooth.scheduler
  rw [Clock.joinError?]
  split
  · rename_i hended
    exact absurd hended hprober
  · rename_i hended _
    exact absurd hended hscheduler
  · rfl

end Whole

/-! ## The figures -/

variable {ν : Type}

/-- What the figures of a simulation that is over say.  The engine and the sink count in 64
bits. -/
structure Conserves (workload : Workload ν) (s : Stats ν) : Prop where
  delivered : s.batcher.delivered = s.itemsOffered.toUInt64
  totalItems : s.delivery.totalItems = s.itemsOffered.toUInt64
  directCalls : s.delivery.directCalls = s.batcher.directCalls
  batchCalls : s.delivery.batchCalls = s.batcher.batchFlushes
  singleCalls : s.delivery.singleCalls = s.batcher.singleFlushes
  failures : s.failures = 0
  probeFailures : s.batcher.probeFailures = 0
  flushFailures : s.batcher.flushFailures = 0
  /-- No producer leaves anything out, as long as its payloads can be made. -/
  whole : s.interrupted = false → workload.payloadBytes.toNat < 2 ^ 63 →
    s.itemsOffered = total workload
  atMost : s.itemsOffered ≤ total workload

variable [Number ν] [SquareRoot ν] {workload : Workload ν} {w : World ν}

theorem Kept.conserves (hw : Kept workload w) (hover : w.isOver = true) :
    Conserves workload w.stats := by
  rw [World.isOver, Bool.and_eq_true, Clock.tasksEnded, Bool.and_eq_true] at hover
  obtain ⟨hwrapped, -, hended⟩ := hover
  have done := hw.wrapped hwrapped
  have hcounted := hw.counted_eq done
  have hdelivered := delivered_of_smooth hw.smooth hended
  have tallies := hw.aloft.tallies
  rw [← hcounted] at hdelivered
  constructor
  · exact hdelivered
  · exact tallies.totalItems.trans hdelivered
  · exact tallies.directCalls
  · exact tallies.batchCalls
  · exact tallies.singleCalls
  · exact congrArg List.length hw.smooth.quiet
  · exact hw.smooth.probes
  · exact flushFailures_of_smooth hw.smooth
  · exact fun running short => hw.counted_total done running (makes_of_short short)
  · have hroom := hw.room
    show counted w.producers ≤ _
    omega

theorem Kept.concluded (hw : Kept workload w) : w.conclude = .ok w.stats := by
  rw [World.conclude, hw.joinError?]

/-! ## All runs -/

/-- What a simulation that starts as `w₀` comes to, in whichever order its turns come. -/
structure Concludes (settings : Settings ν) (workload : Workload ν) (w₀ : World ν) : Prop where
  /-- No run fails, and when it is over its figures agree. -/
  returns : ∀ {ts r}, w₀.play? workload.payloadBytes.toNat ts = some r →
    ∃ w, r = .ok w ∧ (w.isOver = true → w.conclude = .ok w.stats ∧ Conserves workload w.stats)
  /-- Every run can be brought to its end, without an interruption. -/
  ends : ∀ {ts w}, w₀.play? workload.payloadBytes.toNat ts = some (.ok w) →
    ∃ more u, .shutdown ∉ more ∧ w.play? workload.payloadBytes.toNat more = some (.ok u) ∧
      u.isOver = true
  /-- And it cannot be put off but by the timers of the engine. -/
  bounded : ∀ {ts w}, w₀.play? workload.payloadBytes.toNat ts = some (.ok w) →
    ts.countP (·.isStep) ≤
      8 * total workload + workload.producers.toNat + 8 + 2 * ts.countP (·.isTimer)
  /-- On the clock a simulation is one of these runs, and answers with the figures that it has
  when it is over, unless that takes too many turns. -/
  clocked : ∀ shutdown, ∃ ts w, w₀.play? workload.payloadBytes.toNat ts = some (.ok w) ∧
    run settings workload shutdown = .ok (w.stats, w.run.engine) ∧
    (w.isOver = true ∨ Clock.enough ≤ ts.length)

/-- A simulation of a configuration that passes the check conserves its items, if the costs of
its calls are times and its events have room. -/
theorem concludes_of_check {c : Configuration ν} (checked : c.check = .ok ())
    (capacity : c.batcher.failureCapacity.toNat ≤ greatestCapacity)
    (payable : Payable c.simulation (total c.simulation)) :
    ∃ w₀, World.start c.batcher c.simulation = .ok w₀ ∧
      Concludes c.batcher c.simulation w₀ := by
  obtain ⟨hsettings, hworkload⟩ := (Configuration.check_ok c).mp checked
  obtain ⟨s, delay, hspawn, hstart⟩ := start_ok hsettings (isCost_of_check hworkload) capacity
  have hkept : Kept c.simulation (World.begun c.batcher c.simulation s) := kept_of_spawn hspawn
  refine ⟨_, hstart, ?_, ?_, ?_, ?_⟩
  · intro ts r h
    obtain ⟨w, rfl, hw⟩ := Kept.play hworkload payable hkept h
    exact ⟨w, rfl, fun hover => ⟨hw.concluded, hw.conserves hover⟩⟩
  · intro ts w h
    exact Kept.ends hworkload payable (hkept.played hworkload payable h)
  · intro ts w h
    have hbounded := Kept.bounded hworkload payable hkept h
    rw [effort_begun (fresh_of_spawn hspawn)] at hbounded
    omega
  · intro shutdown
    obtain ⟨ts, w, hplay, hdrive, hend⟩ :=
      Kept.drive hworkload payable hkept shutdown Clock.enough
    have hw := hkept.played hworkload payable hplay
    refine ⟨ts, w, hplay, ?_, hend⟩
    simp only [run, hstart, bind, Except.bind] at hdrive ⊢
    rw [hdrive]
    simp only [hw.concluded]
    rfl

/-! ## Two simulations -/

/-- Exact for squares. -/
instance : SquareRoot Rat where
  sqrt x := (Nat.sqrt (x.num.toNat * x.den) : Rat) / x.den

/-- Two producers of two items each. -/
def smallCrew : Configuration Rat :=
  { Configuration.standard with
    simulation := { Workload.standard with producers := 2, itemsPerProducer := 2 } }

/-- One item is buffered when shutdown is requested.  Another offer has passed the gate by
then, is overtaken by the scheduler and comes to a sealed buffer, and a third comes to the
gate too late. -/
def interruptedTurns : List Turn :=
  [.producer 0, .task (.offer 0), .task .line, .producer 0, .task (.offer 1), .producer 1,
    .shutdown, .task (.offer 2), .producer 1, .task .scheduler,
    .reorder [.scheduler, .offer 1], .task .line, .elapse 2, .task .scheduler,
    .reorder [.scheduler, .offer 1], .task .line, .task .line, .producer 0, .wrapUp,
    .task .scheduler, .task .scheduler, .task .prober]

theorem concludes_of_interruptedTurns :
    ∃ w₀ w, World.start smallCrew.batcher smallCrew.simulation = .ok w₀ ∧
      w₀.play? smallCrew.simulation.payloadBytes.toNat interruptedTurns = some (.ok w) ∧
      w.isOver = true ∧ w.stats.interrupted = true ∧ w.stats.itemsOffered = 1 ∧
      Concludes smallCrew.batcher smallCrew.simulation w₀ := by
  have checked : smallCrew.check = .ok () := by decide +kernel
  have payable : Payable smallCrew.simulation (total smallCrew.simulation) := by
    unfold Payable
    decide +kernel
  have hplay : (World.start smallCrew.batcher smallCrew.simulation).toOption.bind (fun w₀ =>
      ((w₀.play? smallCrew.simulation.payloadBytes.toNat interruptedTurns).bind
        Except.toOption).map fun w => (w.isOver, w.interrupted, counted w.producers)) =
      some (true, true, 1) := by decide +kernel
  obtain ⟨w₀, hstart, hconcludes⟩ := concludes_of_check checked (by decide) payable
  rw [hstart] at hplay
  obtain ⟨w, hw, hfacts⟩ := Option.map_eq_some_iff.mp hplay
  obtain ⟨r, hr, hw⟩ := Option.bind_eq_some_iff.mp hw
  obtain ⟨v, rfl, -⟩ := hconcludes.returns hr
  obtain rfl := Option.some.inj hw
  simp only [Prod.mk.injEq] at hfacts
  exact ⟨w₀, v, hstart, hr, hfacts.1, hfacts.2.1, hfacts.2.2, hconcludes⟩

/-- One producer of one item that cannot be made. -/
def oversized : Configuration Rat :=
  { Configuration.standard with
    simulation :=
      { Workload.standard with
        producers := 1, itemsPerProducer := 1, payloadBytes := 0x8000000000000000 } }

/-- Its producer goes down, and the simulation ends with nothing offered all the same. -/
theorem oversized_offersNothing :
    oversized.check = .ok () ∧ oversized.batcher.failureCapacity.toNat ≤ greatestCapacity ∧
      Payable oversized.simulation (total oversized.simulation) ∧
      ∃ s e, run oversized.batcher oversized.simulation none = .ok (s, e) ∧
        s.interrupted = false ∧ s.itemsOffered ≠ total oversized.simulation := by
  have payable : Payable oversized.simulation (total oversized.simulation) := by
    unfold Payable
    decide +kernel
  have hrun : (run oversized.batcher oversized.simulation none).toOption.map
      (fun (s, _) => (s.interrupted, s.itemsOffered)) = some (false, 0) := by decide +kernel
  refine ⟨by decide +kernel, by decide, payable, ?_⟩
  obtain ⟨⟨s, e⟩, hs, hfacts⟩ := Option.map_eq_some_iff.mp hrun
  simp only [Prod.mk.injEq] at hfacts
  refine ⟨s, e, ?_, hfacts.1, ?_⟩
  · cases hr : run oversized.batcher oversized.simulation none with
    | error failure => rw [hr] at hs; cases hs
    | ok r => rw [hr] at hs; rw [Option.some.inj hs]
  · rw [hfacts.2]
    decide

end Simulation
end AdaptiveBatch
