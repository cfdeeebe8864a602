import Mathlib.Data.UInt
import AdaptiveBatch.Metrics.Recorder

/-!
# What a recorder shows

A recorder is read by its series.  Recording one thing changes the series that it
is about and leaves every other series as it was.
-/

namespace AdaptiveBatch
namespace Metrics

theorem lookup_upsert {κ β : Type} [DecidableEq κ] (start : β) (change : β → β) (key k : κ)
    (entries : List (κ × β)) :
    (upsert start change key entries).lookup k =
      if k = key then some (change ((entries.lookup key).getD start))
      else entries.lookup k := by
  induction entries with
  | nil =>
    by_cases hk : k = key
    · simp [upsert, hk]
    · have hbeq : (k == key) = false := beq_eq_false_iff_ne.mpr hk
      simp [upsert, List.lookup_cons, hk, hbeq]
  | cons entry rest ih =>
    obtain ⟨j, v⟩ := entry
    by_cases hj : j = key
    · subst hj
      by_cases hk : k = j
      · simp [upsert, hk]
      · have hbeq : (k == j) = false := beq_eq_false_iff_ne.mpr hk
        simp [upsert, List.lookup_cons, hk, hbeq]
    · have hkey : (key == j) = false := beq_eq_false_iff_ne.mpr fun e => hj e.symm
      by_cases hk : k = j
      · subst hk
        simp [upsert, hj]
      · have hbeq : (k == j) = false := beq_eq_false_iff_ne.mpr hk
        simp [upsert, hj, hkey, hbeq, List.lookup_cons, ih]

/-- A change of the entry of one key changes a total of the entries by as much. -/
theorem sum_upsert {κ : Type} [DecidableEq κ] (n : UInt64) (key : κ)
    (entries : List (κ × UInt64)) (p : κ → Bool) :
    (((upsert 0 (· + n) key entries).filter fun e => p e.1).map Prod.snd).sum =
      ((entries.filter fun e => p e.1).map Prod.snd).sum + if p key then n else 0 := by
  induction entries with
  | nil => cases hkey : p key <;> simp [upsert, hkey]
  | cons entry rest ih =>
    obtain ⟨j, v⟩ := entry
    by_cases hj : j = key
    · subst hj
      cases hp : p j with
      | true => simp [upsert, hp, UInt64.add_assoc, UInt64.add_comm]
      | false => simp [upsert, hp]
    · cases hp : p j with
      | true => simp [upsert, hj, hp, ih, UInt64.add_assoc]
      | false => simp [upsert, hj, hp, ih]

/-- The engine that a series is about. -/
def CounterSeries.batcher : CounterSeries → String
  | .directCalls b _ | .directItems b | .flushes b _ _ | .flushedItems b | .skippedTicks b
  | .backgroundFailures b _ => b

def GaugeSeries.batcher : GaugeSeries → String
  | .bufferedItems b | .latency b | .perItem b | .packingEnabled b => b

def HistogramSeries.batcher : HistogramSeries → String
  | .flushSize b | .probeLatency b => b

namespace Recorder

variable {ν : Type}

/-- What a counter shows; one that was never used shows zero. -/
def count (r : Recorder ν) (s : CounterSeries) : UInt64 := (r.counters.lookup s).getD 0

/-- What a gauge was last set to. -/
def gauge? (r : Recorder ν) (s : GaugeSeries) : Option ν := r.gauges.lookup s

/-- What the counters that `p` picks show together. -/
def total (r : Recorder ν) (p : CounterSeries → Bool) : UInt64 :=
  ((r.counters.filter fun e => p e.1).map Prod.snd).sum

/-- What was recorded in a histogram, the latest first. -/
def samples (r : Recorder ν) (s : HistogramSeries) : List ν := (r.histograms.lookup s).getD []

theorem count_add [Number ν] (r : Recorder ν) (s k : CounterSeries) (n : Nat) :
    (r.add s n).count k = r.count k + if k = s then n.toUInt64 else 0 := by
  simp only [count, add, lookup_upsert]
  by_cases hk : k = s
  · simp [hk]
  · simp [hk]

theorem total_add [Number ν] (r : Recorder ν) (s : CounterSeries) (n : Nat)
    (p : CounterSeries → Bool) :
    (r.add s n).total p = r.total p + if p s then n.toUInt64 else 0 :=
  sum_upsert n.toUInt64 s r.counters p

theorem samples_sample [Number ν] (r : Recorder ν) (s k : HistogramSeries) (x : ν) :
    (r.sample s x).samples k = if k = s then x :: r.samples k else r.samples k := by
  simp only [samples, sample, lookup_upsert]
  by_cases hk : k = s
  · simp [hk]
  · simp [hk]

theorem gauge?_set [Number ν] (r : Recorder ν) (s k : GaugeSeries) (x : ν) :
    (r.set s x).gauge? k = if k = s then some x else r.gauge? k :=
  lookup_upsert x (fun _ => x) s k r.gauges

section Kinds

/-! Each kind of record leaves the other kinds alone. -/

variable (r : Recorder ν) (c : CounterSeries) (g : GaugeSeries) (h : HistogramSeries)

@[simp] theorem count_set (x : ν) : (r.set g x).count c = r.count c := rfl

@[simp] theorem count_sample (x : ν) : (r.sample h x).count c = r.count c := rfl

@[simp] theorem total_set (p : CounterSeries → Bool) (x : ν) :
    (r.set g x).total p = r.total p := rfl

@[simp] theorem total_sample (p : CounterSeries → Bool) (x : ν) :
    (r.sample h x).total p = r.total p := rfl

@[simp] theorem gauge?_add (n : Nat) : (r.add c n).gauge? g = r.gauge? g := rfl

@[simp] theorem gauge?_sample (x : ν) : (r.sample h x).gauge? g = r.gauge? g := rfl

@[simp] theorem samples_add (n : Nat) : (r.add c n).samples h = r.samples h := rfl

@[simp] theorem samples_set (x : ν) : (r.set g x).samples h = r.samples h := rfl

end Kinds

end Recorder

/-! ## Whose series there are -/

/-- What holds of all keys, and of the one that is changed, holds of all of them then. -/
theorem forall_keys_upsert {κ β : Type} [DecidableEq κ] {start : β} {change : β → β} {key : κ}
    {entries : List (κ × β)} {P : κ → Prop} (new : P key) (old : ∀ e ∈ entries, P e.1) :
    ∀ e ∈ upsert start change key entries, P e.1 := by
  induction entries with
  | nil =>
    intro e he
    rw [List.mem_singleton.mp he]
    exact new
  | cons entry rest ih =>
    obtain ⟨hentry, hrest⟩ := List.forall_mem_cons.mp old
    rw [upsert]
    split
    · exact List.forall_mem_cons.mpr ⟨hentry, hrest⟩
    · exact List.forall_mem_cons.mpr ⟨hentry, ih hrest⟩

/-- All series are those of the engine of this name, and all flushes have a reason. -/
structure Recorder.Owned {ν : Type} (name : String) (r : Recorder ν) : Prop where
  counters : ∀ e ∈ r.counters, e.1.batcher = name
  reasons : ∀ e ∈ r.counters, ∀ b success, e.1 ≠ .flushes b "none" success
  gauges : ∀ e ∈ r.gauges, e.1.batcher = name
  histograms : ∀ e ∈ r.histograms, e.1.batcher = name

namespace Recorder.Owned

variable {ν : Type} {name : String} {r : Recorder ν}

theorem blank (name : String) : Owned name ({} : Recorder ν) := by
  constructor <;> exact fun _ h => (by cases h)

theorem add (h : Owned name r) {s : CounterSeries} (own : s.batcher = name)
    (reason : ∀ b success, s ≠ .flushes b "none" success) (n : Nat) : Owned name (r.add s n) where
  counters := forall_keys_upsert (P := fun k : CounterSeries => k.batcher = name) own h.counters
  reasons :=
    forall_keys_upsert (P := fun k : CounterSeries => ∀ b success, k ≠ .flushes b "none" success)
      reason h.reasons
  gauges := h.gauges
  histograms := h.histograms

theorem set (h : Owned name r) {s : GaugeSeries} (own : s.batcher = name) (x : ν) :
    Owned name (r.set s x) where
  counters := h.counters
  reasons := h.reasons
  gauges := forall_keys_upsert (P := fun k : GaugeSeries => k.batcher = name) own h.gauges
  histograms := h.histograms

theorem sample (h : Owned name r) {s : HistogramSeries} (own : s.batcher = name) (x : ν) :
    Owned name (r.sample s x) where
  counters := h.counters
  reasons := h.reasons
  gauges := h.gauges
  histograms :=
    forall_keys_upsert (P := fun k : HistogramSeries => k.batcher = name) own h.histograms

theorem flush [Number ν] (h : Owned name r) (items : Nat) {reason : String}
    (known : reason ≠ "none") (success : Bool) : Owned name (r.flush name items reason success) :=
  ((h.add rfl (by simp [known]) _).add rfl (by simp) _).sample rfl _

end Recorder.Owned

/-! ## Recorders that differ -/

/-- The recorders `r` and `q` differ as `u` and `v` do, and only in counters. -/
structure Recorder.Offset {ν : Type} (u v r q : Recorder ν) : Prop where
  counts : ∀ k, r.count k + v.count k = q.count k + u.count k
  gauges : r.gauges = q.gauges
  histograms : r.histograms = q.histograms

namespace Recorder.Offset

variable {ν : Type} {u v r q : Recorder ν}

theorem symm (h : Offset u v r q) : Offset v u q r :=
  ⟨fun k => (h.counts k).symm, h.gauges.symm, h.histograms.symm⟩

theorem set (h : Offset u v r q) (s : GaugeSeries) (x : ν) :
    Offset u v (r.set s x) (q.set s x) :=
  ⟨h.counts, congrArg (upsert x (fun _ => x) s) h.gauges, h.histograms⟩

theorem sample (h : Offset u v r q) (s : HistogramSeries) (x : ν) :
    Offset u v (r.sample s x) (q.sample s x) :=
  ⟨h.counts, h.gauges, congrArg (upsert [] (x :: ·) s) h.histograms⟩

theorem latencyEstimate (h : Offset u v r q) (batcher : String) (e : Estimate ν) :
    Offset u v (r.latencyEstimate batcher e) (q.latencyEstimate batcher e) :=
  ((h.set _ _).set _ _).sample _ _

variable [Number ν]

theorem add (h : Offset u v r q) (s : CounterSeries) (n : Nat) :
    Offset u v (r.add s n) (q.add s n) := by
  refine ⟨fun k => ?_, h.gauges, h.histograms⟩
  rw [count_add, count_add]
  generalize (if k = s then n.toUInt64 else 0) = more
  calc r.count k + more + v.count k = r.count k + v.count k + more := by ac_rfl
    _ = q.count k + u.count k + more := by rw [h.counts k]
    _ = q.count k + more + u.count k := by ac_rfl

theorem directSend (h : Offset u v r q) (batcher : String) (items : Nat) (success : Bool) :
    Offset u v (r.directSend batcher items success) (q.directSend batcher items success) :=
  (h.add _ _).add _ _

theorem flush (h : Offset u v r q) (batcher : String) (items : Nat) (reason : String)
    (success : Bool) :
    Offset u v (r.flush batcher items reason success) (q.flush batcher items reason success) :=
  ((h.add _ _).add _ _).sample _ _

theorem skippedTick (h : Offset u v r q) (batcher : String) (buffered : Nat) :
    Offset u v (r.skippedTick batcher buffered) (q.skippedTick batcher buffered) :=
  (h.add _ _).set _ _

end Recorder.Offset
end Metrics
end AdaptiveBatch
