import AdaptiveBatch.Proofs.Decimal.Span
import AdaptiveBatch.Proofs.Engine.Deferral
import AdaptiveBatch.Proofs.Engine.Smooth

/-!
# What brings an engine down

An engine asks for two things that it may not get: a channel of the capacity that its
settings name, and a timer for the wait between two ticks.  The wait is between a tenth of a
millisecond and a minute whatever the probes have answered, so there is always a timer.  But
settings are only asked for a capacity that is not zero, and a channel has a largest one.
Apart from that only a call of the sink brings anything down.
-/

namespace AdaptiveBatch
namespace Engine

/-! ## The timer -/

section Timer

open Decimal

/-- The pattern of a tenth. -/
def tenth : Nat := 1019 * 2 ^ 52 + 2702159776422298

/-- The pattern of the milliseconds of a minute. -/
def minute : Nat := 1038 * 2 ^ 52 + 3742737580949504

theorem shortestWait_eq : (shortestWait : Float) = number false tenth := by decide +kernel

theorem longestWait_eq : (longestWait : Float) = number false minute := by decide +kernel

theorem ofMillis?_tenth :
    Duration.ofMillis? (number false tenth) = some ⟨100000⟩ := by decide +kernel

theorem ofMillis?_minute :
    Duration.ofMillis? (number false minute) = some ⟨60000000000⟩ := by decide +kernel

/-- The wait is between its two bounds, even if the estimate is no number. -/
theorem exists_tickWait (latency : Float) :
    ∃ n, tenth ≤ n ∧ n ≤ minute ∧ tickWait latency = number false n := by
  rw [tickWait, shortestWait_eq, longestWait_eq]
  split
  · exact ⟨tenth, le_rfl, by decide, rfl⟩
  · rename_i defined
    split
    · exact ⟨tenth, le_rfl, by decide, rfl⟩
    · rename_i low
      split
      · exact ⟨minute, by decide, le_rfl, rfl⟩
      · rename_i high
        rw [Bool.not_eq_true] at defined low high
        exact exists_between (by decide) (by decide) defined low high

theorem ofMillis?_tickWait (latency : Float) :
    ∃ d, Duration.ofMillis? (tickWait latency) = some d ∧
      100000 ≤ d.nanoseconds ∧ d.nanoseconds ≤ 60000000000 := by
  obtain ⟨n, low, high, hwait⟩ := exists_tickWait latency
  have hpos : 0 < tenth := by decide
  have hfinite : minute < infinity := by decide
  obtain ⟨d, hd, hlong⟩ := ofMillis?_le (hpos.trans_le low) high hfinite ofMillis?_minute
  obtain ⟨d', hd', hshort⟩ := ofMillis?_le hpos low (high.trans_lt hfinite) hd
  rw [ofMillis?_tenth] at hd'
  obtain rfl := Option.some.inj hd'
  exact ⟨d, by rw [hwait, hd], hshort, hlong⟩

end Timer

/-! ## Starting -/

variable {α : Type}

section Starting

variable {ν : Type} [Number ν]

theorem seed_not_crashed (s : State α ν) (reply : ProbeReply ν) : s.seed reply ≠ .error .crashed := by
  intro hcrashed
  rw [State.seed] at hcrashed
  split at hcrashed <;> cases hcrashed

theorem spawn_crashed_iff {settings : Settings ν} {sink : String} {now delay : Nat}
    {reply : ProbeReply ν} :
    (State.spawn settings sink now delay reply : Except (SpawnFailure ν) (State α ν)) =
        .error .crashed ↔
      settings.check = .ok () ∧ greatestCapacity < settings.failureCapacity.toNat := by
  have hbuild : (State.build settings sink now : Except (SpawnFailure ν) (State α ν)) =
      .error .crashed ↔ settings.check = .ok () ∧
        greatestCapacity < settings.failureCapacity.toNat := build_crashed_iff
  rw [← hbuild, State.spawn]
  cases (State.build settings sink now : Except (SpawnFailure ν) (State α ν)) with
  | error failure => rfl
  | ok b =>
    have hseed := seed_not_crashed { b with now := b.now + delay } reply
    simp only [bind, Except.bind, reduceCtorEq, iff_false]
    exact hseed

theorem unharmed_of_steady {s : State α ν} (hs : Steady s) :
    s.prober ≠ .ended true ∧ s.scheduler ≠ .ended true := by
  refine of_steady (P := fun s => s.prober ≠ .ended true ∧ s.scheduler ≠ .ended true) ?_
    (fun _ calm h => unharmed_move h calm) (fun _ hs => hs) hs
  intro s fresh
  rw [fresh.prober, fresh.scheduler]
  exact ⟨nofun, nofun⟩

end Starting

/-- What is so of an engine after some acts. -/
structure Endures (as : List (Act α Float)) (s : State α Float) : Prop where
  prober : Calm as → s.prober ≠ .ended true
  scheduler : Calm as → s.scheduler ≠ .ended true
  /-- There is a timer for each sleep, which is neither shorter than a tenth of a millisecond
  nor longer than a minute, even if calls of the sink have brought their callers down. -/
  sleeps : ∀ {wait}, s.scheduler = .sleeping wait →
    ∃ d, Duration.ofMillis? wait = some d ∧
      100000 ≤ d.nanoseconds ∧ d.nanoseconds ≤ 60000000000

/-- Settings that pass the check bring an engine down by their capacity only, and not once
it runs, whatever the sink answers. -/
theorem endures_of_check {settings : Settings Float} (checked : settings.check = .ok ())
    {sink : String} {now delay : Nat} {reply : ProbeReply Float} :
    ((State.spawn settings sink now delay reply :
        Except (SpawnFailure Float) (State α Float)) = .error .crashed ↔
      greatestCapacity < settings.failureCapacity.toNat) ∧
    ∀ {s t : State α Float} {as : List (Act α Float)},
      State.spawn settings sink now delay reply = .ok s → s.race? as = some t →
        Endures as t := by
  refine ⟨?_, ?_⟩
  · rw [spawn_crashed_iff]
    exact and_iff_right checked
  · intro s t as hspawn hrun
    have hunharmed := fun calm => unharmed_of_steady (steady_of_race (.spawn hspawn) calm hrun)
    refine ⟨fun calm => (hunharmed calm).1, fun calm => (hunharmed calm).2, ?_⟩
    intro wait asleep
    obtain ⟨latency, rfl⟩ := ticked_of_raced (raced_of_race (.spawn hspawn) hrun) wait
      (by rw [asleep]; rfl)
    exact ofMillis?_tickWait latency

/-- The scheduler goes to sleep while an offer, which somebody has overtaken, waits for the
buffer lock. -/
def longSleep : List (Act Nat Float) :=
  List.map .event [.offer (.one 7), .enter 0, .measure] ++
  .reorder [.observer 1, .offer 0] :: List.map .event [.acquire, .schedulerWakes]

/-- A sink that seems to need longer than the universe has lasted is looked at again in a
minute. -/
theorem endures_of_hugeProbe :
    ∃ s t : State Nat Float, (.standard : Settings Float).check = .ok () ∧
      State.spawn .standard "sink" 0 0 (.answer 1e300) = .ok s ∧
      s.race? longSleep = some t ∧ t.scheduler = .sleeping 60000.0 ∧
      Endures longSleep t := by
  have checked : (.standard : Settings Float).check = .ok () :=
    (check_ok _).mpr (by decide +kernel)
  have hplay : (State.play? .standard "sink" 1e300 longSleep).map (·.scheduler) =
      some (.sleeping 60000.0) := by
    decide +kernel
  obtain ⟨t, ht, hasleep⟩ := Option.map_eq_some_iff.mp hplay
  obtain ⟨s, hspawn, hrun⟩ := spawn_of_play ht
  exact ⟨s, t, checked, hspawn, hrun, hasleep, (endures_of_check checked).2 hspawn hrun⟩

/-- Settings that ask for more failures to be kept than any channel keeps. -/
def hoarding : Settings Float :=
  { (.standard : Settings Float) with failureCapacity := 0x8000000000000000 }

theorem hoarding_crashes :
    hoarding.check = .ok () ∧
      (State.spawn hoarding "sink" 0 0 (.answer 0.05) :
        Except (SpawnFailure Float) (State Nat Float)) = .error .crashed := by
  have checked : hoarding.check = .ok () := (check_ok _).mpr (by decide +kernel)
  exact ⟨checked, spawn_crashed_iff.mpr ⟨checked, by decide⟩⟩

end Engine
end AdaptiveBatch
