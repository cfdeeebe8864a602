import AdaptiveBatch.Proofs.Simulation.Progress

/-!
# Simulations on a clock are simulations

The clock chooses a turn as long as a simulation is not over, and only turns that can be
taken.  So a simulation on the clock is one of the runs that there are, and it goes on to
the end.
-/

namespace AdaptiveBatch

namespace Engine
namespace Clock

variable {σ α ν : Type} {c : Clock σ α ν}

/-! ## Which task is next -/

theorem event?_of_nextOffer? (distinct : (c.engine.offers.map (·.number)).Nodup) {n : Nat}
    (h : c.nextOffer? = some n) : (c.offerEvent? n).isSome = true := by
  rw [nextOffer?, Option.orElse_eq_orElse, Option.orElse_eq_or, Option.or_eq_some_iff] at h
  rcases h with h | ⟨-, h⟩
  · obtain ⟨p, hp, rfl⟩ := Option.map_eq_some_iff.mp h
    have hlanded := List.find?_some hp
    simp only [Bool.and_eq_true] at hlanded
    exact hlanded.2
  · split at h
    · rename_i opened
      obtain ⟨k, hk, rfl⟩ := Option.map_eq_some_iff.mp h
      have phase : k.phase = .atGate := by simpa using List.find?_some hk
      have found := ticket?_of_mem distinct (List.mem_of_find?_eq_some hk)
      simp [offerEvent?, found, phase, opened]
    · cases h

theorem nextOffer?_isSome {n : Nat} (h : (c.offerEvent? n).isSome = true) :
    c.nextOffer?.isSome = true := by
  have hevent := h
  simp only [offerEvent?] at h
  split at h
  · rename_i k found
    rw [nextOffer?, Option.orElse_eq_orElse, Option.orElse_eq_or, Option.isSome_or,
      Bool.or_eq_true]
    split at h
    · rename_i phase
      split at h
      · rename_i opened
        refine .inr ?_
        rw [if_pos opened, Option.isSome_map, List.find?_isSome]
        exact ⟨k, ticket?_mem found, by simp [phase]⟩
      · cases h
    · split at h
      · rename_i m f hfound
        obtain rfl : m = n := by simpa using List.find?_some hfound
        split at h
        · rename_i landed
          refine .inl ?_
          rw [Option.isSome_map, List.find?_isSome]
          exact ⟨_, List.mem_of_find?_eq_some hfound, by simp [landed, hevent]⟩
        · cases h
      · cases h
    · cases h
  · cases h

variable [Number ν]

theorem event?_of_nextTask? (distinct : (c.engine.offers.map (·.number)).Nodup) {t : Task}
    (h : c.nextTask? = some t) : (c.event? t).isSome = true := by
  rw [nextTask?, Option.orElse_eq_orElse, Option.orElse_eq_or, Option.or_eq_some_iff] at h
  rcases h with h | ⟨-, h⟩
  · obtain ⟨n, hn, rfl⟩ := Option.map_eq_some_iff.mp h
    exact event?_of_nextOffer? distinct hn
  · have hevent := List.find?_some h
    exact hevent

theorem nextTask?_isSome {t : Task} (h : (c.event? t).isSome = true) :
    c.nextTask?.isSome = true := by
  rw [nextTask?, Option.orElse_eq_orElse, Option.orElse_eq_or, Option.isSome_or, Bool.or_eq_true,
    Option.isSome_map, List.find?_isSome]
  cases t with
  | offer n => exact .inl (nextOffer?_isSome h)
  | _ => exact .inr ⟨_, by simp, h⟩

/-! ## Time -/

/-- With no call under way, nobody has to wait for time to pass, except for a timer. -/
theorem event?_elapse (direct : c.direct = []) (delivery : c.delivery = none)
    (probe : c.probe = none) (ms : Nat) {t : Task} (steady : t.isTimer = false) :
    (c.apply (.elapse ms)).event? t = c.event? t := by
  have hdirect : (c.apply (.elapse ms)).direct = [] := direct
  have hdelivery : (c.apply (.elapse ms)).delivery = none := delivery
  have hprobe : (c.apply (.elapse ms)).probe = none := probe
  have hticket : ∀ n, (c.apply (.elapse ms)).engine.ticket? n = c.engine.ticket? n := fun _ => rfl
  cases t with
  | offer n =>
    simp only [event?, offerEvent?, hdirect, direct, hticket]
    rfl
  | line => rfl
  | scheduler =>
    simp only [event?, schedulerEvent?, hdelivery, delivery]
    rfl
  | prober =>
    simp only [event?, proberEvent?, hprobe, probe]
    rfl
  | tick | beat => cases steady

omit [Number ν] in
/-- As long as a call is under way there is something to wait for. -/
theorem idle_of_nextDue? (h : c.nextDue? = none) :
    c.direct = [] ∧ c.delivery = none ∧ c.probe = none := by
  rw [nextDue?, List.min?_eq_none_iff, List.append_eq_nil_iff, List.filterMap_eq_nil_iff,
    List.map_eq_nil_iff] at h
  exact ⟨h.2, by simpa using h.1 (c.delivery.map (·.due)) (by simp),
    by simpa using h.1 (c.probe.map (·.due)) (by simp)⟩

end Clock
end Engine

namespace Simulation

open Engine

variable {ν : Type} [Number ν] {workload : Workload ν}

/-- As long as somebody goes on, a task is next or there is something to wait for. -/
theorem next_of_goes {c : Run ν} (h : Goes c) :
    c.nextTask?.isSome = true ∨ c.nextDue?.isSome = true := by
  obtain ⟨task, ms, steady, hevent⟩ := h
  cases hdue : c.nextDue? with
  | some t => exact .inr rfl
  | none =>
    obtain ⟨direct, delivery, probe⟩ := Clock.idle_of_nextDue? hdue
    rw [Clock.event?_elapse direct delivery probe ms steady] at hevent
    exact .inl (Clock.nextTask?_isSome hevent)

/-! ## The turns of the clock -/

namespace World

/-- Whether a turn is chosen, and can be taken. -/
def Takes (size : Nat) (w : World ν) (chosen : Option Turn) : Prop :=
  (chosen.bind (w.step? size)).isSome = true

variable {size : Nat} {w : World ν}

theorem takes_orElse {first second : Option Turn}
    (one : first.isSome = true → w.Takes size first)
    (other : first = none → w.Takes size second) : w.Takes size (first <|> second) := by
  cases first with
  | some t => exact one rfl
  | none => exact other rfl

theorem takes_wait {stop : Option Nat} (h : w.run.nextDue?.isSome = true) :
    w.Takes size (w.waitTurn? stop) := by
  obtain ⟨t, ht⟩ := Option.isSome_iff_exists.mp h
  have hmin : (([w.run.nextDue?, stop].filterMap id).min?).isSome = true := by
    rw [ht]
    cases stop <;> rfl
  obtain ⟨u, hu⟩ := Option.isSome_iff_exists.mp hmin
  rw [Takes, waitTurn?, hu]
  rfl

theorem takes_task (distinct : (w.run.engine.offers.map (·.number)).Nodup)
    (h : w.taskTurn?.isSome = true) : w.Takes size w.taskTurn? := by
  rw [taskTurn?, Option.isSome_map] at h
  obtain ⟨t, ht⟩ := Option.isSome_iff_exists.mp h
  have hevent := Clock.event?_of_nextTask? distinct ht
  rw [Takes, taskTurn?, ht]
  show (w.step? size (.task t)).isSome = true
  rw [World.step?, Option.isSome_map]
  exact hevent

end World

theorem Kept.takes_of_goes {w : World ν} (hw : Kept workload w) (size : Nat) (goes : Goes w.run)
    (stop : Option Nat) : w.Takes size (w.taskTurn? <|> w.waitTurn? stop) := by
  refine World.takes_orElse (World.takes_task (numbers_of_raced hw.smooth.raced))
    fun hnone => World.takes_wait ?_
  rw [World.taskTurn?, Option.map_eq_none_iff] at hnone
  rcases next_of_goes goes with hnext | hdue
  · rw [hnone] at hnext
    cases hnext
  · exact hdue

/-- So as long as a producer is busy either it goes on or another. -/
theorem Kept.takes_of_busy {w : World ν} (hw : Kept workload w) (stop : Option Nat)
    (busy : ∃ p ∈ w.producers, p.phase ≠ .done) :
    w.Takes workload.payloadBytes.toNat
      ((w.producers.findIdx? (·.ready w.run)).map Turn.producer <|> w.taskTurn? <|>
        w.waitTurn? stop) := by
  refine World.takes_orElse (fun hsome => ?_) fun hnone => ?_
  · rw [Option.isSome_map] at hsome
    obtain ⟨i, hi⟩ := Option.isSome_iff_exists.mp hsome
    obtain ⟨hlt, ready, -⟩ := List.findIdx?_eq_some_iff_getElem.mp hi
    have hturn := hw.turn?_of_ready (List.getElem_mem hlt) ready
    simp [World.Takes, World.step?, hi, hlt, hturn]
  · obtain ⟨p, hp, busy⟩ := busy
    rw [Option.map_eq_none_iff, List.findIdx?_eq_none_iff] at hnone
    exact hw.takes_of_goes _ (hw.goes_of_unready busy (hnone p hp)) _

/-- The clock does not stop before a simulation is over. -/
theorem Kept.takes {w : World ν} (hw : Kept workload w) (shutdown : Option Nat)
    (unfinished : w.isOver = false) :
    w.Takes workload.payloadBytes.toNat (w.clockTurn? shutdown) := by
  have hraced := hw.smooth.raced
  rw [World.clockTurn?, unfinished, if_neg Bool.false_ne_true]
  by_cases hwrapped : w.wrapped = true
  · have closing : w.run.engine.closing = true := by
      rw [hw.closing, hwrapped, Bool.or_true]
    have hended : w.run.tasksEnded = false := by
      rw [World.isOver, hwrapped, Bool.true_and] at unfinished
      exact unfinished
    rw [if_pos hwrapped]
    exact hw.takes_of_goes _ (goes_of_closing hw.aloft hraced closing hended) none
  rw [if_neg hwrapped]
  by_cases hall : w.producers.all (·.phase = .done) = true
  · rw [if_pos hall]
    refine World.takes_orElse (World.takes_task (numbers_of_raced hraced)) fun _ => ?_
    simp [World.Takes, World.step?, hwrapped, hall]
  rw [if_neg hall]
  generalize hstop : (if w.interrupted = true then none else shutdown) = stop
  dsimp only
  split
  · -- shutdown is requested only as long as it has not been
    rename_i due
    have running : w.interrupted = false := by
      cases hi : w.interrupted with
      | false => rfl
      | true =>
        rw [hi, if_pos rfl] at hstop
        rw [← hstop] at due
        cases due
    simp [World.Takes, World.step?, hwrapped, running]
  · exact hw.takes_of_busy stop (by simpa using hall)

/-! ## Driving -/

/-- What is driven is a run, which stops because no turn is chosen that can be taken, or when
the fuel is used up. -/
theorem drive_play (size : Nat) (choose : World ν → Option Turn) (fuel : Nat) :
    ∀ w : World ν, ∃ ts, w.play? size ts = some (w.drive size choose fuel) ∧
      ∀ u, w.drive size choose fuel = .ok u → ¬ u.Takes size (choose u) ∨ ts.length = fuel := by
  induction fuel with
  | zero => exact fun w => ⟨[], rfl, fun _ _ => .inr rfl⟩
  | succ fuel ih =>
    intro w
    rw [World.drive]
    split
    · rename_i hstop
      refine ⟨[], rfl, fun u hu => .inl ?_⟩
      rw [← Except.ok.inj hu, World.Takes, hstop]
      exact Bool.false_ne_true
    · rename_i e hfail
      obtain ⟨t, -, ht⟩ := Option.bind_eq_some_iff.mp hfail
      refine ⟨[t], ?_, fun u hu => by cases hu⟩
      rw [World.play?, ht]
    · rename_i v hnext
      obtain ⟨t, -, ht⟩ := Option.bind_eq_some_iff.mp hnext
      obtain ⟨ts, hts, hstop⟩ := ih v
      refine ⟨t :: ts, (play?_cons ht).trans hts, fun u hu => ?_⟩
      exact (hstop u hu).imp_right (congrArg (· + 1))

/-- A simulation on the clock is a run that comes to its end, unless the fuel is used up
first. -/
theorem Kept.drive {w₀ : World ν} (checked : workload.check = .ok ())
    (payable : Payable workload (total workload)) (hw : Kept workload w₀)
    (shutdown : Option Nat) (fuel : Nat) :
    ∃ ts w, w₀.play? workload.payloadBytes.toNat ts = some (.ok w) ∧
      (w₀.drive workload.payloadBytes.toNat World.taskTurn? fuel >>= fun v =>
        v.drive workload.payloadBytes.toNat (World.clockTurn? shutdown) fuel) = .ok w ∧
      (w.isOver = true ∨ fuel ≤ ts.length) := by
  obtain ⟨early, hearly, -⟩ := drive_play _ World.taskTurn? fuel w₀
  obtain ⟨v, hv, hkept⟩ := Kept.play checked payable hw hearly
  obtain ⟨late, hlate, hstop⟩ := drive_play _ (World.clockTurn? shutdown) fuel v
  obtain ⟨w, hdriven, hkept'⟩ := Kept.play checked payable hkept hlate
  rw [hv] at hearly
  refine ⟨early ++ late, w, ?_, ?_, ?_⟩
  · rw [play?_append hearly, hlate, hdriven]
  · rw [hv]
    exact hdriven
  · cases hover : w.isOver with
    | true => exact .inl rfl
    | false =>
      -- the clock always has a turn to take, so it was the fuel that ended it
      rcases hstop w hdriven with hnone | hlength
      · exact absurd (hkept'.takes shutdown hover) hnone
      · rw [List.length_append]
        omega

end Simulation
end AdaptiveBatch
