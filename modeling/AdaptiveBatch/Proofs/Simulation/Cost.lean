import AdaptiveBatch.Decimal.Instance
import AdaptiveBatch.Proofs.Simulation.Conservation

/-!
# What calls of the simulated sink may cost

A call that costs anything sleeps for it, and no timer runs for `2 ^ 64` seconds.  The check
of a configuration asks for costs that are finite and no more than that, so a call of a
simulation that passes it may bring its caller down.  As long as the costs are times, it
does not.  A producer may still go down over a payload that is too long to be made, and over
nothing else.
-/

namespace AdaptiveBatch
namespace Simulation

open Engine

variable {ν : Type} [Number ν] {workload : Workload ν} {w : World ν}

/-- A producer `p` has become `q` in a turn that has not brought it down: it keeps count of
what it has offered, and if it stops, it has offered all its items or has been told that the
engine is closed. -/
structure Survives (w : World ν) (p q : Producer) : Prop where
  counts : p.accepted ≤ q.accepted
  whole : q.accepted + q.left = p.accepted + p.left
  stops : q.phase = .done → q.left = 0 ∨ ∃ n now name, p.phase = .waiting n ∧
    w.run.engine.outcome? n = some (now, .refused (.closed name))

/-- What is so of a simulation none of whose calls has brought its caller down, and none of
whose calls under way will. -/
structure Unharmed (workload : Workload ν) (w : World ν) : Prop where
  prober : w.run.engine.prober ≠ .ended true
  scheduler : w.run.engine.scheduler ≠ .ended true
  offers : ∀ {n now o}, w.run.engine.outcome? n = some (now, o) → o ≠ .crashed
  next : ∀ {task e}, w.run.event? task = some e → e.crashes = false
  /-- Payloads of less than `2 ^ 63` bytes can be made, so no turn brings a producer down. -/
  producers : workload.payloadBytes.toNat < 2 ^ 63 → ∀ {i : Nat} {p r}, w.producers[i]? = some p →
    p.turn? workload.payloadBytes.toNat w.run = some r →
      ∃ q run, r = .ok (q, run) ∧ Survives w p q

/-- A producer that goes on to its next offer makes it, unless there is none left. -/
theorem next_of_makes (makes : Makes workload) (p : Producer) (c : Run ν) :
    let q := (p.next workload.payloadBytes.toNat c).1
    q.accepted = p.accepted ∧ q.left = p.left ∧ (q.phase = .done → q.left = 0) := by
  simp only [Producer.next]
  split
  · rename_i hleft
    exact ⟨rfl, rfl, fun _ => hleft⟩
  · split
    · exact ⟨rfl, rfl, fun h => by cases h⟩
    · rename_i hmade
      rw [Makes, ← make?_isSome p.index p.accepted, hmade] at makes
      cases makes

theorem Kept.survives (hw : Kept workload w) (makes : Makes workload) {i : Nat} {p : Producer}
    {r : Except (EngineError ν) (Producer × Run ν)} (place : w.producers[i]? = some p)
    (turn : p.turn? workload.payloadBytes.toNat w.run = some r) :
    ∃ q run, r = .ok (q, run) ∧ Survives w p q := by
  have employed := hw.manned.employed p (List.mem_of_getElem? place)
  rw [Producer.turn?] at turn
  split at turn
  · obtain rfl := Option.some.inj turn
    obtain ⟨haccepted, hleft, hdone⟩ := next_of_makes makes p w.run
    exact ⟨_, (p.next workload.payloadBytes.toNat w.run).2, rfl, haccepted.ge,
      congrArg₂ (· + ·) haccepted hleft, fun done => .inl (hdone done)⟩
  · rename_i n waits
    split at turn
    · cases turn
    · obtain ⟨⟨now, o⟩, ended, rfl⟩ := Option.map_eq_some_iff.mp turn
      rcases answer_of_smooth hw.smooth ended with ⟨rfl, -⟩ | ⟨rfl, -⟩
      · have hmore : 0 < p.left := employed.more (by rw [Producer.waitsFor?, waits]; rfl)
        let credited : Producer := { p with accepted := p.accepted + 1, left := p.left - 1 }
        obtain ⟨haccepted, hleft, hdone⟩ := next_of_makes makes credited w.run
        have hwhole : credited.accepted + credited.left = p.accepted + p.left := by
          show p.accepted + 1 + (p.left - 1) = _
          omega
        exact ⟨_, (credited.next workload.payloadBytes.toNat w.run).2, rfl,
          haccepted.ge.trans' (Nat.le_succ p.accepted),
          (congrArg₂ (· + ·) haccepted hleft).trans hwhole, fun done => .inl (hdone done)⟩
      · exact ⟨_, _, rfl, Nat.le_refl _, rfl, fun _ => .inr ⟨n, now, _, waits, ended⟩⟩
  · cases turn

theorem Kept.unharmed (hw : Kept workload w) (checked : workload.check = .ok ()) :
    Unharmed workload w := by
  refine ⟨hw.smooth.prober, hw.smooth.scheduler, ?_, ?_,
    fun short _ _ _ => hw.survives (makes_of_short short)⟩
  · intro n now o ended hcrashed
    rcases answer_of_smooth hw.smooth ended with ⟨rfl, -⟩ | ⟨rfl, -⟩ <;> cases hcrashed
  · intro task e event
    exact crashes_of_smooth (orders_of_task hw.aloft (isCost_of_check checked) event).smooth

/-- As long as every cost is a time, no call of a simulation brings its caller down, in
whichever order its turns come. -/
theorem unharmed_of_payable {c : Configuration ν} (checked : c.check = .ok ())
    (capacity : c.batcher.failureCapacity.toNat ≤ greatestCapacity)
    (payable : Payable c.simulation (total c.simulation)) :
    ∃ w₀, World.start c.batcher c.simulation = .ok w₀ ∧
      ∀ {ts r}, w₀.play? c.simulation.payloadBytes.toNat ts = some r →
        ∃ w, r = .ok w ∧ Unharmed c.simulation w := by
  obtain ⟨hsettings, hworkload⟩ := (Configuration.check_ok c).mp checked
  obtain ⟨s, delay, hspawn, hstart⟩ := start_ok hsettings (isCost_of_check hworkload) capacity
  refine ⟨_, hstart, fun h => ?_⟩
  obtain ⟨w, hw, hkept⟩ := Kept.play hworkload payable (kept_of_spawn hspawn) h
  exact ⟨w, hw, hkept.unharmed hworkload⟩

/-- Two producers of two items each. -/
def brisk : Configuration Float :=
  { (.standard : Configuration Float) with
    simulation := { (.standard : Workload Float) with producers := 2, itemsPerProducer := 2 } }

/-- The first items of both producers are buffered, one producer overtakes the other on its
way to the buffer, and the scheduler hands them to the sink. -/
def briskTurns : List Turn :=
  [.producer 0, .task (.offer 0), .producer 1, .task (.offer 1), .reorder [.offer 1, .offer 0],
    .task .line, .task .line, .producer 1, .task .scheduler, .elapse 2, .task .tick, .task .line]

theorem unharmed_of_brisk :
    ∃ w₀ w, brisk.check = .ok () ∧ brisk.batcher.failureCapacity.toNat ≤ greatestCapacity ∧
      Payable brisk.simulation (total brisk.simulation) ∧
      World.start brisk.batcher brisk.simulation = .ok w₀ ∧
      w₀.play? brisk.simulation.payloadBytes.toNat briskTurns = some (.ok w) ∧
      w.run.engine.flushed.map List.length = [2] ∧ Unharmed brisk.simulation w := by
  have checked : brisk.check = .ok () :=
    (Configuration.check_ok _).mpr
      ⟨(check_ok _).mpr (by decide +kernel), (Workload.check_ok _).mpr (by decide +kernel)⟩
  have payable : Payable brisk.simulation (total brisk.simulation) := by
    unfold Payable
    decide +kernel
  have hplay : (World.start brisk.batcher brisk.simulation).toOption.bind (fun w₀ =>
      ((w₀.play? brisk.simulation.payloadBytes.toNat briskTurns).bind Except.toOption).map
        fun w => w.run.engine.flushed.map List.length) = some [2] := by
    decide +kernel
  obtain ⟨w₀, hstart, hunharmed⟩ := unharmed_of_payable checked (by decide) payable
  rw [hstart] at hplay
  obtain ⟨w, hw, hflushed⟩ := Option.map_eq_some_iff.mp hplay
  obtain ⟨r, hr, hw⟩ := Option.bind_eq_some_iff.mp hw
  obtain ⟨v, rfl, unharmed⟩ := hunharmed hr
  obtain rfl := Option.some.inj hw
  exact ⟨w₀, v, checked, by decide, payable, hstart, hr, hflushed, unharmed⟩

/-- One item, whose call is meant to take a little more than `2 ^ 64` seconds. -/
def endless : Configuration Float :=
  { (.standard : Configuration Float) with
    simulation :=
      { (.standard : Workload Float) with
        probe := 0.0, callOverhead := 2e22, perItemCost := 0.0, producers := 1
        itemsPerProducer := 1 } }

theorem check_endless : endless.check = .ok () :=
  (Configuration.check_ok _).mpr
    ⟨(check_ok _).mpr (by decide +kernel), (Workload.check_ok _).mpr (by decide +kernel)⟩

theorem endless_crashes :
    endless.check = .ok () ∧ endless.batcher.failureCapacity.toNat ≤ greatestCapacity ∧
      Number.less (Number.ofCount 0) (callCost endless.simulation 1) = true ∧
      Duration.ofMillis? (callCost endless.simulation 1) = none ∧
      ∃ s e, run endless.batcher endless.simulation none = .ok (s, e) ∧
        e.outcome? 0 = some (0, .crashed) ∧ s.itemsOffered = 0 := by
  have hrun : (run endless.batcher endless.simulation none).toOption.map
      (fun r => (r.2.outcome? 0, r.1.itemsOffered)) = some (some (0, .crashed), 0) := by
    decide +kernel
  refine ⟨check_endless, by decide, by decide +kernel, by decide +kernel, ?_⟩
  obtain ⟨⟨s, e⟩, hs, hfacts⟩ := Option.map_eq_some_iff.mp hrun
  simp only [Prod.mk.injEq] at hfacts
  refine ⟨s, e, ?_, hfacts⟩
  cases hr : run endless.batcher endless.simulation none with
  | error failure => rw [hr] at hs; cases hs
  | ok r => rw [hr] at hs; rw [Option.some.inj hs]

end Simulation
end AdaptiveBatch
