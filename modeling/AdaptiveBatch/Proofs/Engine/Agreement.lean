import Mathlib.Algebra.Field.Rat
import Mathlib.Tactic.SplitIfs
import AdaptiveBatch.Proofs.Engine.Ledger
import AdaptiveBatch.Proofs.Engine.Probe
import AdaptiveBatch.Proofs.Engine.Race

/-!
# Counters and metric series

Whatever happens is counted twice, in the engine's own counters and in the metric series
of a recorder that it may share with others.  The two are written side by side wherever
something is counted, and they agree in every state that a run can stop in, modulo the
range of a counter.
-/

namespace AdaptiveBatch

namespace Metrics

/-! ## Series that are read together -/

namespace CounterSeries

/-- The direct calls of an engine, whatever became of them. -/
@[simp]
def isDirect (name : String) : CounterSeries → Bool
  | .directCalls b _ => b = name
  | _ => false

/-- The flushes of an engine, for whatever reason and whatever became of them. -/
@[simp]
def isFlush (name : String) : CounterSeries → Bool
  | .flushes b _ _ => b = name
  | _ => false

@[simp]
def isFailedFlush (name : String) : CounterSeries → Bool
  | .flushes b _ success => b = name && !success
  | _ => false

end CounterSeries

variable {ν : Type} [Number ν]

/-- What a recorder shows of an engine with these counters whose flushes so far had these
sizes, the latest first. -/
structure Agree (name : String) (sizes : List Nat) (c : Counters) (r : Recorder ν) : Prop where
  directCalls : r.total (CounterSeries.isDirect name) = c.directCalls
  directItems : r.count (.directItems name) = c.directItems
  flushes : r.total (CounterSeries.isFlush name) = c.batchFlushes + c.singleFlushes
  failedFlushes : r.total (CounterSeries.isFailedFlush name) = c.flushFailures
  flushFailures : r.count (.backgroundFailures name .flush) = c.flushFailures
  flushedItems : r.count (.flushedItems name) = c.flushedItems
  skippedTicks : r.count (.skippedTicks name) = c.skippedTicks
  probeFailures : r.count (.backgroundFailures name .probe) = c.probeFailures
  probes : (r.samples (.probeLatency name)).length.toUInt64 = c.probes
  flushSizes : r.samples (.flushSize name) = sizes.map Number.ofCount
  flushCount : sizes.length.toUInt64 = c.batchFlushes + c.singleFlushes
  flushSum : sizes.sum.toUInt64 = c.flushedItems

namespace Agree

variable {name : String} {sizes : List Nat} {c : Counters} {r : Recorder ν}

theorem blank (name : String) : Agree name [] {} ({} : Recorder ν) := by
  constructor <;> rfl

theorem buffered (h : Agree name sizes c r) (items : Nat) :
    Agree name sizes (c.buffered items) r :=
  ⟨h.directCalls, h.directItems, h.flushes, h.failedFlushes, h.flushFailures, h.flushedItems,
    h.skippedTicks, h.probeFailures, h.probes, h.flushSizes, h.flushCount, h.flushSum⟩

theorem direct (h : Agree name sizes c r) (items : Nat) (success : Bool) :
    Agree name sizes (c.direct items) (r.directSend name items success) := by
  cases h
  constructor <;>
    simp [Recorder.directSend, Counters.direct, Recorder.count_add, Recorder.total_add, *]

theorem skippedTick (h : Agree name sizes c r) (buffered : Nat) :
    Agree name sizes c.skippedTick (r.skippedTick name buffered) := by
  cases h
  constructor <;>
    simp [Recorder.skippedTick, Counters.skippedTick, Recorder.count_add, Recorder.total_add, *]

theorem probed (h : Agree name sizes c r) (e : Estimate ν) :
    Agree name sizes c.probed (r.latencyEstimate name e) := by
  cases h
  constructor <;>
    simp [Recorder.latencyEstimate, Counters.probed, Recorder.samples_sample, *]

theorem set (h : Agree name sizes c r) (g : GaugeSeries) (x : ν) :
    Agree name sizes c (r.set g x) :=
  ⟨h.directCalls, h.directItems, h.flushes, h.failedFlushes, h.flushFailures, h.flushedItems,
    h.skippedTicks, h.probeFailures, h.probes, h.flushSizes, h.flushCount, h.flushSum⟩

theorem probeFailed (h : Agree name sizes c r) :
    Agree name sizes c.probeFailed (r.failure name .probe) := by
  cases h
  constructor <;>
    simp [Recorder.failure, Counters.probeFailed, Recorder.count_add, Recorder.total_add, *]

theorem closeFailed (h : Agree name sizes c r) :
    Agree name sizes c (r.failure name .close) := by
  cases h
  constructor <;> simp [Recorder.failure, Recorder.count_add, Recorder.total_add, *]

/-- A flush that has returned; the failure of one is counted beside it. -/
theorem flush (h : Agree name sizes c r) (items : Nat) (reason : String) (success : Bool) :
    Agree name (items :: sizes)
      (if success then c.flushed items else (c.flushed items).flushFailed)
      (if success then r.flush name items reason true
        else (r.flush name items reason false).failure name .flush) := by
  obtain ⟨batches, singles, hcalls, hflushed⟩ := c.flushed_calls items
  have hcount : (sizes.length + 1).toUInt64 = batches + singles := by
    rw [toUInt64_add, h.flushCount, hcalls]
    rfl
  have hsum : (items + sizes.sum).toUInt64 = c.flushedItems + items.toUInt64 := by
    rw [toUInt64_add, h.flushSum, UInt64.add_comm]
  rw [hflushed]
  cases h
  cases success <;> constructor <;>
    simp [Recorder.flush, Recorder.failure, Counters.flushFailed, Recorder.count_add,
      Recorder.total_add, Recorder.samples_sample, *]

end Agree
end Metrics

/-! ## Flushes have a reason -/

namespace Flush

theorem primary_ne_none {r : Reasons} (h : r.any = true) : r.primary ≠ .none := by
  intro hnone
  rw [Reasons.primary] at hnone
  split_ifs at hnone with draining ceiling arrivalSlower throughputDrop marginalGain
  simp [Reasons.any, draining, ceiling, arrivalSlower, throughputDrop, marginalGain] at h

theorem name_ne_none {r : Reason} (h : r ≠ .none) : r.name ≠ "none" := by
  cases r with
  | none => exact absurd rfl h
  | _ => decide

end Flush

namespace Engine

open Metrics

variable {α ν : Type} [Number ν]

def Reasoned (s : State α ν) : Prop :=
  ∀ items reason, s.scheduler = .delivering items reason → reason ≠ .none

theorem reasoned_move {s t : State α ν} {e : Event α ν} (h : Move s e t) (hs : Reasoned s) :
    Reasoned t := by
  intro items reason delivering
  obtain ⟨old, -, -⟩ | ⟨wait, draining, rest, decision, rfl⟩ := delivering_move h delivering
  · exact hs items reason old
  · obtain ⟨-, rfl⟩ := SchedulerPhase.delivering.inj delivering
    exact Flush.primary_ne_none decision

/-! ## What the recorder shows -/

/-- The sizes of the flushes that have returned, the latest first. -/
def State.returnedSizes (s : State α ν) : List Nat := (s.returnedFlushes.map List.length).reverse

/-- What an engine that has a recorder to itself shows there. -/
structure Recorded (s : State α ν) : Prop where
  agree : Agree s.settings.name s.returnedSizes s.counters s.recorder
  latency : s.recorder.gauge? (.latency s.settings.name) = some s.model.estimate.latency
  perItem : s.recorder.gauge? (.perItem s.settings.name) = some s.model.estimate.perItem
  owned : s.recorder.Owned s.settings.name

omit [Number ν] in
theorem returnedSizes_flush {s t : State α ν} {items : List α} {fault : Option Fault}
    (h : t.returned = s.returned ++ [(State.flushRequest items, fault)]) :
    t.returnedSizes = items.length :: s.returnedSizes := by
  rw [State.returnedSizes, returnedFlushes_of_returned h, flush?_flushRequest]
  simp [State.returnedSizes]

omit [Number ν] in
theorem returnedSizes_other {s t : State α ν} {r : Request α} {fault : Option Fault}
    (h : t.returned = s.returned ++ [(r, fault)]) (other : r.flush? = none) :
    t.returnedSizes = s.returnedSizes := by
  rw [State.returnedSizes, returnedFlushes_of_returned h, other]
  simp [State.returnedSizes]

theorem recorded_learn {s : State α ν} (millis : ν)
    (agree : Agree s.settings.name s.returnedSizes s.counters s.recorder)
    (owned : s.recorder.Owned s.settings.name) : Recorded (s.learn millis) := by
  have hlearn : Recorded { s.learn millis with
      recorder := s.recorder.latencyEstimate s.settings.name
        (s.model.publish millis).estimate } := by
    refine ⟨agree.probed _, ?_, ?_, ((owned.set rfl _).set rfl _).sample rfl _⟩ <;>
      simp [Recorder.latencyEstimate, Recorder.gauge?_set, State.learn, State.note]
  cases enables : s.model.enables millis with
  | false => simpa [State.learn, State.note, enables] using hlearn
  | true =>
    -- the switch has a gauge of its own, and no series but that one hears of it
    have hgauge := Recorder.gauge?_set (s.recorder.latencyEstimate s.settings.name
      (s.model.publish millis).estimate) (.packingEnabled s.settings.name)
    have hset : (s.learn millis).recorder = (s.recorder.latencyEstimate s.settings.name
        (s.model.publish millis).estimate).packingEnabled s.settings.name := if_pos enables
    constructor
    · rw [hset]
      exact hlearn.agree.set _ _
    · rw [hset]
      exact (hgauge _ _).trans hlearn.latency
    · rw [hset]
      exact (hgauge _ _).trans hlearn.perItem
    · rw [hset]
      exact hlearn.owned.set rfl _

theorem recorded_move {s t : State α ν} {e : Event α ν} (h : Move s e t)
    (reasoned : Reasoned s) (hs : Recorded s) : Recorded t := by
  cases h with
  | append => exact ⟨hs.agree.buffered _, hs.latency, hs.perItem, hs.owned⟩
  | @directReturns n k fault =>
    have hsizes := returnedSizes_other (returned_note s (.offer n) k.offer.request fault)
      (flush?_request k.offer)
    exact ⟨hsizes ▸ hs.agree.direct _ _, hs.latency, hs.perItem,
      (hs.owned.add rfl (by simp) _).add rfl (by simp) _⟩
  | defer =>
    have hgauge := s.recorder.gauge?_set (.bufferedItems s.settings.name)
    refine ⟨hs.agree.skippedTick _, ?_, ?_, (hs.owned.add rfl (by simp) _).set rfl _⟩
    · exact (hgauge _ _).trans hs.latency
    · exact (hgauge _ _).trans hs.perItem
  | @learn reply millis =>
    have hlearn := recorded_learn millis hs.agree hs.owned
    exact ⟨hlearn.agree, hlearn.latency, hlearn.perItem, hlearn.owned⟩
  | probeFails =>
    exact ⟨hs.agree.probeFailed, hs.latency, hs.perItem,
      hs.owned.add rfl (by simp) _⟩
  | @flushReturns items reason delivering =>
    have hsizes := returnedSizes_flush
      (returned_note s .scheduler (State.flushRequest items) none)
    have known := Flush.name_ne_none (reasoned items reason delivering)
    exact ⟨hsizes ▸ hs.agree.flush _ _ true, hs.latency, hs.perItem,
      hs.owned.flush _ known true⟩
  | @flushFails items reason fault delivering =>
    have hsizes := returnedSizes_flush
      (returned_note s .scheduler (State.flushRequest items) (some fault))
    have known := Flush.name_ne_none (reasoned items reason delivering)
    exact ⟨hsizes ▸ hs.agree.flush _ _ false, hs.latency, hs.perItem,
      (hs.owned.flush _ known false).add rfl (by simp) _⟩
  | closeReturns =>
    have hsizes := returnedSizes_other (returned_note s .scheduler .close none) rfl
    exact ⟨hsizes ▸ hs.agree, hs.latency, hs.perItem, hs.owned⟩
  | closeFails fault =>
    have hsizes := returnedSizes_other (returned_note s .scheduler .close (some fault)) rfl
    exact ⟨hsizes ▸ hs.agree.closeFailed, hs.latency, hs.perItem,
      hs.owned.add rfl (by simp) _⟩
  | _ => exact ⟨hs.agree, hs.latency, hs.perItem, hs.owned⟩

theorem recorded_of_raced {s : State α ν} (hs : Raced s) : Reasoned s ∧ Recorded s := by
  refine raced_induction (P := fun s => Reasoned s ∧ Recorded s) ?_ ?_ ?_ hs
  · intro settings sink now delay reply s h
    constructor
    · intro items reason delivering
      rw [(fresh_of_spawn h).scheduler] at delivering
      cases delivering
    · obtain ⟨b, seed, blank, _, rfl⟩ := blank_of_spawn h
      obtain ⟨now, hlog⟩ := blank.log
      have hsizes : b.returnedSizes = [] := by
        simp [State.returnedSizes, State.returnedFlushes, State.returned, State.seen, hlog]
      have hlearn : Recorded (b.learn seed) := by
        refine recorded_learn seed ?_ ?_
        · rw [hsizes, blank.counters, blank.recorder]
          exact .blank _
        · rw [blank.recorder]
          exact .blank _
      exact ⟨hlearn.agree, hlearn.latency, hlearn.perItem, hlearn.owned⟩
  · exact fun _ hmove ih => ⟨reasoned_move hmove ih.1, recorded_move hmove ih.1 ih.2⟩
  · exact fun _ ih => ⟨ih.1, ih.2.agree, ih.2.latency, ih.2.perItem, ih.2.owned⟩

/-! ## The two agree -/

/-- What the metric series of an engine say, beside what its counters and its model say. -/
structure SeriesAgree (s : State α ν) : Prop extends Recorded s where
  /-- Every flush that has returned has left its size as a sample. -/
  sampleCount : (s.recorder.samples (.flushSize s.settings.name)).length.toUInt64 =
    s.counters.batchFlushes + s.counters.singleFlushes
  /-- Read exactly, the samples add up to a number that is counted as flushed. -/
  sampleSum : ∀ {value : ν → Rat}, Exact value →
    ∃ items : Nat, ((s.recorder.samples (.flushSize s.settings.name)).map value).sum = items ∧
      items.toUInt64 = s.counters.flushedItems
  packing : s.recorder.gauge? (.packingEnabled s.settings.name) =
    if s.model.packing then some (Number.ofCount 1) else none

theorem sum_of_counts {value : ν → Rat} (exact : Exact value) (sizes : List Nat) :
    ((sizes.map Number.ofCount).map value).sum = sizes.sum := by
  induction sizes with
  | nil => rfl
  | cons n sizes ih =>
    rw [List.map_cons, List.map_cons, List.sum_cons, ih, exact.count, List.sum_cons]
    exact (Rat.natCast_add n sizes.sum).symm

/-- The metric series and the counters of an engine agree in every state, whatever its sink
does and whatever the timing of its tasks. -/
theorem seriesAgree_of_raced {s : State α ν} (hs : Raced s) : SeriesAgree s := by
  have recorded := (recorded_of_raced hs).2
  obtain ⟨vs, informed⟩ := informed_of_raced hs
  refine ⟨recorded, ?_, ?_, informed.recorded⟩
  · rw [recorded.agree.flushSizes, List.length_map]
    exact recorded.agree.flushCount
  · intro value exact
    refine ⟨s.returnedSizes.sum, ?_, recorded.agree.flushSum⟩
    rw [recorded.agree.flushSizes]
    exact sum_of_counts exact _

theorem seriesAgree_of_everyKindOfCall :
    ∃ s, State.play? .standard "sink" 0 everyKindOfCall = some s ∧ Raced s ∧
      s.recorder.total (CounterSeries.isDirect s.settings.name) = 2 ∧
      s.recorder.total (CounterSeries.isFlush s.settings.name) = 2 ∧
      s.recorder.total (CounterSeries.isFailedFlush s.settings.name) = 1 ∧
      s.recorder.samples (.flushSize s.settings.name) = [1, 2] ∧ SeriesAgree s := by
  have hplay : (State.play? .standard "sink" 0 everyKindOfCall).map
      (fun s => (s.recorder.total (CounterSeries.isDirect s.settings.name),
        s.recorder.total (CounterSeries.isFlush s.settings.name),
        s.recorder.total (CounterSeries.isFailedFlush s.settings.name),
        s.recorder.samples (.flushSize s.settings.name))) = some (2, 2, 1, [1, 2]) := by
    decide +kernel
  obtain ⟨s, hs, hfacts⟩ := Option.map_eq_some_iff.mp hplay
  simp only [Prod.mk.injEq] at hfacts
  obtain ⟨hdirect, hflush, hfailed, hsizes⟩ := hfacts
  have raced : Raced s := raced_of_play hs
  exact ⟨s, hs, raced, hdirect, hflush, hfailed, hsizes, seriesAgree_of_raced raced⟩

end Engine
end AdaptiveBatch
