import AdaptiveBatch.Engine.Clock
import AdaptiveBatch.Proofs.Engine.Endurance
import AdaptiveBatch.Sink.Scripted

/-!
# What comes of a start

A start looks at its settings first and then asks the sink, once.  Either may keep an engine
from running, each for a reason of its own, and what is left then is a sink that has had one
call at most.  An engine that runs knows the answer of its seed probe and nothing else.
-/

namespace AdaptiveBatch

/-! ## The fate of a probe -/

namespace Sink
namespace Plan

variable {ν : Type}

/-- The call ends before it is given up. -/
def InTime (p : Plan ν) (limit : Option UInt64) : Prop :=
  ∀ millis, limit = some millis → p.delay < millis.toNat

theorem within_of_inTime {p : Plan ν} {limit : Option UInt64} (h : p.InTime limit) :
    p.within limit = p := by
  cases limit with
  | none => rfl
  | some millis => exact if_neg (Nat.not_le.mpr (h millis rfl))

theorem within_of_late {p : Plan ν} {millis : UInt64} (h : millis.toNat ≤ p.delay) :
    p.within (some millis) = { delay := millis.toNat, reply := .late } := if_pos h

theorem inTime_or_late (p : Plan ν) (limit : Option UInt64) :
    p.InTime limit ∨ ∃ millis, limit = some millis ∧ millis.toNat ≤ p.delay := by
  cases limit with
  | none => exact .inl nofun
  | some millis =>
    rcases Nat.lt_or_ge p.delay millis.toNat with hlt | hge
    · refine .inl ?_
      intro other hother
      exact Option.some.inj hother ▸ hlt
    · exact .inr ⟨millis, rfl, hge⟩

/-- A probe with this fate answers `v`. -/
def Answers [Number ν] (p : Plan ν) (v : ν) : Prop :=
  p.reply ≠ .crash ∧ p.reply.probe = .answer v

end Plan
end Sink

namespace Engine

variable {σ α ν : Type} [Number ν]

/-! ## Reasons -/

/-- Settings that an engine can be built from. -/
structure Ready (settings : Settings ν) : Prop where
  checked : settings.check = .ok ()
  capacity : settings.failureCapacity.toNat ≤ greatestCapacity

/-- Why an engine does not start, given the fate of its seed probe. -/
inductive Refuses (settings : Settings ν) (name : String) (p : Sink.Plan ν) :
    EngineError ν → Prop where
  | settings {fault : Fault} (broken : settings.check = .error fault) :
      Refuses settings name p (.settings fault)
  | late {limit : UInt64} (ready : Ready settings) (limited : settings.probeTimeout = some limit)
      (late : limit.toNat ≤ p.delay) : Refuses settings name p (.probeTimeout name limit)
  | fault {fault : Fault} (ready : Ready settings) (inTime : p.InTime settings.probeTimeout)
      (fails : p.reply = .fault fault) : Refuses settings name p (.sink fault)
  | invalid {v : ν} (ready : Ready settings) (inTime : p.InTime settings.probeTimeout)
      (answers : p.Answers v)
      (bad : Number.isFinite v = false ∨ Number.less v (Number.ofCount 0) = true) :
      Refuses settings name p (.invalidProbe name v)

/-- What brings a start down, given the fate of its seed probe. -/
inductive Crashes (settings : Settings ν) (p : Sink.Plan ν) : Prop where
  | hoarding (checked : settings.check = .ok ())
      (large : greatestCapacity < settings.failureCapacity.toNat)
  | probe (ready : Ready settings) (inTime : p.InTime settings.probeTimeout)
      (crash : p.reply = .crash)

/-- An engine starts, and `v` is what it learns of the sink. -/
structure Seeds (settings : Settings ν) (p : Sink.Plan ν) (v : ν) : Prop where
  ready : Ready settings
  inTime : p.InTime settings.probeTimeout
  answers : p.Answers v
  finite : Number.isFinite v = true
  nonneg : Number.less v (Number.ofCount 0) = false

/-- An engine that knows the answer of its seed probe and nothing else. -/
structure Begun (settings : Settings ν) (v : ν) (s : State α ν) : Prop where
  same : s.settings = settings
  estimate : s.model.estimate = .ofProbe v
  packing : s.model.packing = Number.less settings.packingThreshold (Estimate.ofProbe v).latency
  counters : s.counters = { probes := 1 }
  empty : s.buffer.items = []
  unsealed : s.buffer.sealed = false
  running : s.closing = false
  calls : s.calls = [(0, .probe)]
  failures : s.failures = []
  tasks : s.prober = .sleeping ∧ s.scheduler = .parked

/-! ## Traces -/

/-- What an engine has done as others see it, and the sink that it has done it to. -/
structure Trace (σ α ν : Type) where
  calls : List (Nat × Request α)
  failures : List (FailureEvent ν)
  counters : Metrics.Counters
  recorder : Metrics.Recorder ν
  sink : σ

/-- Nothing but these calls has been done. -/
def Trace.quiet (calls : List (Nat × Request α)) (sink : σ) : Trace σ α ν :=
  { calls, failures := [], counters := {}, recorder := {}, sink }

def Clock.Aborted.trace (a : Clock.Aborted σ α ν) : Trace σ α ν :=
  { calls := a.calls, failures := a.failures, counters := a.counters, recorder := a.recorder
    sink := a.sink }

def Clock.trace (c : Clock σ α ν) : Trace σ α ν :=
  { calls := c.engine.calls, failures := c.engine.failures, counters := c.engine.counters
    recorder := c.engine.recorder, sink := c.sink }

/-! ## The course of a start -/

section Course

variable {behaviour : Sink.Behaviour σ α ν} {sink : σ} {settings : Settings ν}

/-- What is left of an engine that could not be built. -/
def unbuilt (sink : σ) (failure : SpawnFailure ν) : Clock.Aborted σ α ν :=
  { failure, now := 0, calls := [], failures := [], counters := {}, recorder := {}, sink }

theorem start_of_broken {fault : Fault} (broken : settings.check = .error fault) :
    Clock.start behaviour sink settings =
      .error (unbuilt sink (.refused (.settings fault))) := by
  rw [Clock.start, State.build, broken]
  rfl

theorem start_of_hoarding (checked : settings.check = .ok ())
    (large : greatestCapacity < settings.failureCapacity.toNat) :
    Clock.start behaviour sink settings = .error (unbuilt sink .crashed) := by
  rw [Clock.start, build_crashed_iff.mpr ⟨checked, large⟩]
  rfl

/-- The fate of the seed probe under the limit that the settings give it. -/
def seedPlan (behaviour : Sink.Behaviour σ α ν) (sink : σ) (settings : Settings ν) :
    Sink.Plan ν :=
  (behaviour.start sink .probe).2.within settings.probeTimeout

/-- What is left of an engine whose seed probe has come to nothing. -/
def unseeded (behaviour : Sink.Behaviour σ α ν) (sink : σ) (settings : Settings ν)
    (failure : SpawnFailure ν) : Clock.Aborted σ α ν :=
  { failure
    now := (seedPlan behaviour sink settings).delay
    calls := [(0, .probe)]
    failures := []
    counters := {}
    recorder := {}
    sink := (behaviour.start sink .probe).1 }

/-- An engine that has called for its seed probe at the start of time. -/
structure Unseeded (settings : Settings ν) (name : String) (s : State α ν) : Prop extends
    Blank settings s where
  named : s.sink = name
  early : s.now = 0
  called : s.log = [(0, .called .starter .probe)]
  buffer : s.buffer = .empty (Duration.ofMilliseconds 0)
  running : s.closing = false
  parked : s.scheduler = .parked

theorem exists_unseeded (ready : Ready settings) (name : String) :
    ∃ s : State α ν, State.build settings name 0 = .ok s ∧ Unseeded settings name s := by
  rw [State.build, ready.checked]
  simp only [if_neg (Nat.not_lt.mpr ready.capacity)]
  exact ⟨_, rfl, ⟨ready.checked, rfl, rfl, rfl, rfl, ⟨0, rfl⟩⟩, rfl, rfl, rfl, rfl, rfl, rfl⟩

/-- What a start leaves if it is given up once the seed probe is over. -/
theorem unseeded_eq {s : State α ν} (h : Unseeded settings (behaviour.name sink) s)
    (failure : SpawnFailure ν) :
    unseeded behaviour sink settings failure =
      { failure
        now := s.now + (seedPlan behaviour sink settings).delay
        calls := s.calls
        failures := s.failures
        counters := s.counters
        recorder := s.recorder
        sink := (behaviour.start sink .probe).1 } := by
  simp only [unseeded, State.calls, State.failures, h.called, h.early, h.counters, h.recorder,
    Nat.zero_add]
  rfl

theorem start_of_crash (ready : Ready settings)
    (crash : (seedPlan behaviour sink settings).reply = .crash) :
    Clock.start behaviour sink settings = .error (unseeded behaviour sink settings .crashed) := by
  obtain ⟨s, hbuild, h⟩ := exists_unseeded (α := α) ready (behaviour.name sink)
  rw [unseeded_eq h]
  rw [seedPlan] at crash
  simp only [Clock.start, hbuild, crash]
  rfl

theorem begun_of_unseeded {s : State α ν} {name : String} (h : Unseeded settings name s)
    (now : Nat) (v : ν) :
    Begun settings v { State.learn { s with now } v with prober := .sleeping } := by
  constructor
  · exact h.same
  · rfl
  · show (s.model.packing || s.model.exceeds v) = _
    rw [h.model]
    rfl
  · show s.counters.probed = _
    rw [h.counters]
    rfl
  · show s.buffer.items = _
    rw [h.buffer]
    rfl
  · show s.buffer.sealed = _
    rw [h.buffer]
    rfl
  · exact h.running
  · show State.calls { s with log := _ :: s.log } = _
    rw [State.calls, h.called]
    rfl
  · show State.failures { s with log := _ :: s.log } = _
    rw [State.failures, h.called]
    rfl
  · exact ⟨rfl, h.parked⟩

theorem start_of_error (ready : Ready settings)
    (alive : (seedPlan behaviour sink settings).reply ≠ .crash) {e : EngineError ν}
    (bad : judgeProbe (behaviour.name sink) settings.probeTimeout
      (seedPlan behaviour sink settings).reply.probe = .error e) :
    Clock.start behaviour sink settings =
      .error (unseeded behaviour sink settings (.refused e)) := by
  obtain ⟨s, hbuild, h⟩ := exists_unseeded (α := α) ready (behaviour.name sink)
  have hseed : State.seed { s with now := s.now + (seedPlan behaviour sink settings).delay }
      (seedPlan behaviour sink settings).reply.probe = .error (.refused e) := by
    simp only [State.seed, h.named, h.same, bad]
  rw [unseeded_eq h]
  -- a start looks for a crash before it looks at the reply, and `alive` is what it finds
  rw [seedPlan] at hseed alive
  simp only [Clock.start, hbuild, hseed]
  rfl

theorem start_of_answer (ready : Ready settings)
    (alive : (seedPlan behaviour sink settings).reply ≠ .crash) {v : ν}
    (good : judgeProbe (behaviour.name sink) settings.probeTimeout
      (seedPlan behaviour sink settings).reply.probe = .ok v) :
    ∃ c : Clock σ α ν, Clock.start behaviour sink settings = .ok c ∧
      c.sink = (behaviour.start sink .probe).1 ∧ Begun settings v c.engine := by
  obtain ⟨s, hbuild, h⟩ := exists_unseeded (α := α) ready (behaviour.name sink)
  have hseed : State.seed { s with now := s.now + (seedPlan behaviour sink settings).delay }
      (seedPlan behaviour sink settings).reply.probe =
        .ok { State.learn
          { s with now := s.now + (seedPlan behaviour sink settings).delay } v with
            prober := .sleeping } := by
    simp only [State.seed, h.named, h.same, good]
  have hbegun := begun_of_unseeded h (s.now + (seedPlan behaviour sink settings).delay) v
  rw [seedPlan] at hseed alive hbegun
  simp only [Clock.start, hbuild, hseed]
  exact ⟨_, rfl, rfl, hbegun⟩

/-- A start that ends with this failure. -/
def Fails (behaviour : Sink.Behaviour σ α ν) (sink : σ) (settings : Settings ν)
    (failure : SpawnFailure ν) : Prop :=
  ∃ a, Clock.start behaviour sink settings = .error a ∧ a.failure = failure

theorem Fails.unique {failure other : SpawnFailure ν}
    (h : Fails behaviour sink settings failure) (h' : Fails behaviour sink settings other) :
    failure = other := by
  obtain ⟨a, ha, rfl⟩ := h
  obtain ⟨a', ha', rfl⟩ := h'
  exact congrArg _ (Except.error.inj (ha.symm.trans ha'))

theorem Fails.not_ok {failure : SpawnFailure ν} {c : Clock σ α ν}
    (h : Fails behaviour sink settings failure)
    (hc : Clock.start behaviour sink settings = .ok c) : False := by
  obtain ⟨a, ha, -⟩ := h
  cases ha.symm.trans hc

theorem fails_of_refuses {e : EngineError ν}
    (h : Refuses settings (behaviour.name sink) (behaviour.start sink .probe).2 e) :
    Fails behaviour sink settings (.refused e) := by
  cases h with
  | settings broken => exact ⟨_, start_of_broken broken, rfl⟩
  | @late limit ready limited late =>
    have hplan : seedPlan behaviour sink settings =
        { delay := limit.toNat, reply := .late } := by
      rw [seedPlan, limited]
      exact Sink.Plan.within_of_late late
    refine ⟨_, start_of_error ready ?_ ?_, rfl⟩
    · rw [hplan]
      nofun
    · rw [hplan, limited]
      rfl
  | fault ready inTime fails =>
    have hplan : seedPlan behaviour sink settings = _ := Sink.Plan.within_of_inTime inTime
    refine ⟨_, start_of_error ready ?_ ?_, rfl⟩
    · rw [hplan, fails]
      nofun
    · rw [hplan, fails]
      rfl
  | invalid ready inTime answers bad =>
    have hplan : seedPlan behaviour sink settings = _ := Sink.Plan.within_of_inTime inTime
    refine ⟨_, start_of_error ready ?_ ?_, rfl⟩
    · rw [hplan]
      exact answers.1
    · rw [hplan, answers.2, judgeProbe_error]
      refine if_neg ?_
      rintro ⟨finite, nonneg⟩
      rcases bad with bad | bad
      · exact Bool.false_ne_true (bad.symm.trans finite)
      · exact Bool.false_ne_true (nonneg.symm.trans bad)

theorem fails_of_crashes
    (h : Crashes settings (behaviour.start sink .probe).2) :
    Fails behaviour sink settings .crashed := by
  cases h with
  | hoarding checked large => exact ⟨_, start_of_hoarding checked large, rfl⟩
  | probe ready inTime crash =>
    refine ⟨_, start_of_crash ready ?_, rfl⟩
    rw [seedPlan, Sink.Plan.within_of_inTime inTime, crash]

theorem start_of_seeds {v : ν} (h : Seeds settings (behaviour.start sink .probe).2 v) :
    ∃ c : Clock σ α ν, Clock.start behaviour sink settings = .ok c ∧
      c.sink = (behaviour.start sink .probe).1 ∧ Begun settings v c.engine := by
  have hplan : seedPlan behaviour sink settings = _ := Sink.Plan.within_of_inTime h.inTime
  refine start_of_answer h.ready ?_ ?_
  · rw [hplan]
    exact h.answers.1
  · rw [hplan, h.answers.2, judgeProbe_ok]
    exact if_pos ⟨h.finite, h.nonneg⟩

/-- A start comes to one of three ends. -/
theorem refuses_or_crashes_or_seeds (settings : Settings ν) (name : String) {p : Sink.Plan ν}
    (patient : p.reply ≠ .late) :
    (∃ e, Refuses settings name p e) ∨ Crashes settings p ∨ ∃ v, Seeds settings p v := by
  cases checked : settings.check with
  | error fault => exact .inl ⟨_, .settings checked⟩
  | ok u =>
    rcases Nat.lt_or_ge greatestCapacity settings.failureCapacity.toNat with large | small
    · exact .inr (.inl (.hoarding checked large))
    · have ready : Ready settings := ⟨checked, small⟩
      rcases p.inTime_or_late settings.probeTimeout with inTime | ⟨limit, limited, late⟩
      · have judge : ∀ v, p.Answers v →
            (∃ e, Refuses settings name p e) ∨ Crashes settings p ∨ ∃ v, Seeds settings p v := by
          intro v answers
          cases finite : Number.isFinite v with
          | false => exact .inl ⟨_, .invalid ready inTime answers (.inl finite)⟩
          | true =>
            cases negative : Number.less v (Number.ofCount 0) with
            | true => exact .inl ⟨_, .invalid ready inTime answers (.inr negative)⟩
            | false => exact .inr (.inr ⟨v, ready, inTime, answers, finite, negative⟩)
        cases hreply : p.reply with
        | crash => exact .inr (.inl (.probe ready inTime hreply))
        | late => exact absurd hreply patient
        | fault f => exact .inl ⟨_, .fault ready inTime hreply⟩
        | done => exact judge _ ⟨by rw [hreply]; nofun, by rw [hreply]; rfl⟩
        | answer v => exact judge v ⟨by rw [hreply]; nofun, by rw [hreply]; rfl⟩
      · exact .inl ⟨_, .late ready limited late⟩

/-- What is left of a start that has failed. -/
theorem eq_of_error {a : Clock.Aborted σ α ν}
    (h : Clock.start behaviour sink settings = .error a) :
    (¬Ready settings ∧ a.trace = .quiet [] sink) ∨
      (Ready settings ∧ a.trace = .quiet [(0, .probe)] (behaviour.start sink .probe).1) := by
  cases checked : settings.check with
  | error fault =>
    rw [start_of_broken checked] at h
    obtain rfl := Except.error.inj h
    refine .inl ⟨?_, rfl⟩
    intro ready
    cases ready.checked.symm.trans checked
  | ok u =>
    rcases Nat.lt_or_ge greatestCapacity settings.failureCapacity.toNat with large | small
    · rw [start_of_hoarding checked large] at h
      obtain rfl := Except.error.inj h
      exact .inl ⟨fun ready => Nat.not_lt.mpr ready.capacity large, rfl⟩
    · have ready : Ready settings := ⟨checked, small⟩
      refine .inr ⟨ready, ?_⟩
      by_cases crash : (seedPlan behaviour sink settings).reply = .crash
      · rw [start_of_crash ready crash] at h
        obtain rfl := Except.error.inj h
        rfl
      · cases verdict : judgeProbe (behaviour.name sink) settings.probeTimeout
            (seedPlan behaviour sink settings).reply.probe with
        | error e =>
          rw [start_of_error ready crash verdict] at h
          obtain rfl := Except.error.inj h
          rfl
        | ok v =>
          obtain ⟨c, hc, -⟩ := start_of_answer ready crash verdict
          cases hc.symm.trans h

end Course

/-! ## Starts -/

/-- What may be seen of a start, right after it or after any events that follow. -/
inductive Seen (behaviour : Sink.Behaviour σ α ν) (sink : σ) (settings : Settings ν) :
    Trace σ α ν → Prop where
  | aborted {a : Clock.Aborted σ α ν} (h : Clock.start behaviour sink settings = .error a) :
      Seen behaviour sink settings a.trace
  | running {c : Clock σ α ν} (es : List (Event α ν))
      (h : Clock.start behaviour sink settings = .ok c) :
      Seen behaviour sink settings (es.foldl Clock.apply c).trace

/-- What a start comes to. -/
structure Launches (behaviour : Sink.Behaviour σ α ν) (sink : σ) (settings : Settings ν) :
    Prop where
  refused : ∀ e, Fails behaviour sink settings (.refused e) ↔
    Refuses settings (behaviour.name sink) (behaviour.start sink .probe).2 e
  crashed : Fails behaviour sink settings .crashed ↔
    Crashes settings (behaviour.start sink .probe).2
  starts : ∀ v, Seeds settings (behaviour.start sink .probe).2 v →
    ∃ c, Clock.start behaviour sink settings = .ok c
  started : ∀ c, Clock.start behaviour sink settings = .ok c →
    ∃ v, Seeds settings (behaviour.start sink .probe).2 v ∧
      c.sink = (behaviour.start sink .probe).1 ∧ Begun settings v c.engine
  /-- The sink is not asked if there is no engine to ask it, then or later. -/
  unasked : ¬Ready settings → ∀ t, Seen behaviour sink settings t → t = .quiet [] sink
  /-- The sink is asked once, and never called again, if what it says is of no use. -/
  abandoned : ∀ {failure}, Ready settings → Fails behaviour sink settings failure →
    ∀ t, Seen behaviour sink settings t →
      t = .quiet [(0, .probe)] (behaviour.start sink .probe).1

section Starts

variable {behaviour : Sink.Behaviour σ α ν} {sink : σ} {settings : Settings ν}

theorem Seen.of_error {a : Clock.Aborted σ α ν} {t : Trace σ α ν}
    (ht : Seen behaviour sink settings t) (h : Clock.start behaviour sink settings = .error a) :
    t = a.trace := by
  cases ht with
  | aborted h' =>
    obtain rfl := Except.error.inj (h'.symm.trans h)
    rfl
  | running es h' => cases h'.symm.trans h

/-- A start refuses, crashes or begins as its settings and its seed probe have it, and one
that fails leaves nothing behind.  Only a limit gives a probe up. -/
theorem launches_of_patient (patient : (behaviour.start sink .probe).2.reply ≠ .late) :
    Launches behaviour sink settings := by
  have hfate := refuses_or_crashes_or_seeds settings (behaviour.name sink) patient
  have hstarted : ∀ c, Clock.start behaviour sink settings = .ok c →
      ∃ v, Seeds settings (behaviour.start sink .probe).2 v ∧
        c.sink = (behaviour.start sink .probe).1 ∧ Begun settings v c.engine := by
    intro c hc
    rcases hfate with ⟨e, h⟩ | h | ⟨v, h⟩
    · exact ((fails_of_refuses h).not_ok hc).elim
    · exact ((fails_of_crashes h).not_ok hc).elim
    · obtain ⟨c', hc', hsink, hbegun⟩ := start_of_seeds h
      obtain rfl := Except.ok.inj (hc'.symm.trans hc)
      exact ⟨v, h, hsink, hbegun⟩
  constructor
  · intro e
    refine ⟨?_, fails_of_refuses⟩
    intro hfails
    rcases hfate with ⟨e', h⟩ | h | ⟨v, h⟩
    · obtain rfl := SpawnFailure.refused.inj ((fails_of_refuses h).unique hfails)
      exact h
    · cases (fails_of_crashes h).unique hfails
    · obtain ⟨c, hc, -⟩ := start_of_seeds h
      exact (hfails.not_ok hc).elim
  · refine ⟨?_, fails_of_crashes⟩
    intro hfails
    rcases hfate with ⟨e, h⟩ | h | ⟨v, h⟩
    · cases (fails_of_refuses h).unique hfails
    · exact h
    · obtain ⟨c, hc, -⟩ := start_of_seeds h
      exact (hfails.not_ok hc).elim
  · intro v h
    obtain ⟨c, hc, -⟩ := start_of_seeds h
    exact ⟨c, hc⟩
  · exact hstarted
  · intro unready t ht
    cases hstart : Clock.start behaviour sink settings with
    | error a =>
      rw [ht.of_error hstart]
      rcases eq_of_error hstart with ⟨-, htrace⟩ | ⟨ready, -⟩
      · exact htrace
      · exact absurd ready unready
    | ok c =>
      obtain ⟨v, h, -⟩ := hstarted c hstart
      exact absurd h.ready unready
  · intro failure ready hfails t ht
    obtain ⟨a, ha, -⟩ := hfails
    rw [ht.of_error ha]
    rcases eq_of_error ha with ⟨unready, -⟩ | ⟨-, htrace⟩
    · exact absurd ready unready
    · exact htrace

end Starts

/-- A sink whose every probe has this fate. -/
def probed (p : Sink.Plan Float) : Sink.Scripted Float :=
  { name := "sink", probe := [p], direct := [], flush := [], close := [] }

/-- Settings that give a probe a twentieth of a second. -/
def impatient : Settings Float := { (.standard : Settings Float) with probeTimeout := some 50 }

/-- A sink that answers as the limit comes is given up, one that answers a millisecond before
it is not. -/
theorem launches_of_slowProbe :
    (Launches (Sink.Scripted.behaviour Nat Float)
        (probed { delay := 50, reply := .answer 0.05 }) impatient ∧
      Fails (Sink.Scripted.behaviour Nat Float)
        (probed { delay := 50, reply := .answer 0.05 }) impatient
        (.refused (.probeTimeout "sink" 50))) ∧
    Launches (Sink.Scripted.behaviour Nat Float)
        (probed { delay := 49, reply := .answer 0.05 }) impatient ∧
      ∃ c, Clock.start (Sink.Scripted.behaviour Nat Float)
        (probed { delay := 49, reply := .answer 0.05 }) impatient = .ok c := by
  have ready : Ready impatient := ⟨(check_ok _).mpr (by decide +kernel), by decide⟩
  have hslow : Launches (Sink.Scripted.behaviour Nat Float)
      (probed { delay := 50, reply := .answer 0.05 }) impatient := launches_of_patient nofun
  have hprompt : Launches (Sink.Scripted.behaviour Nat Float)
      (probed { delay := 49, reply := .answer 0.05 }) impatient := launches_of_patient nofun
  refine ⟨⟨hslow, (hslow.refused _).mpr (.late ready rfl le_rfl)⟩, hprompt,
    hprompt.starts 0.05 ⟨ready, ?_, ⟨nofun, rfl⟩, by decide +kernel, by decide +kernel⟩⟩
  intro limit hlimit
  obtain rfl := Option.some.inj hlimit
  decide

/-- Settings that pass the check may keep a sink that is well from being asked. -/
theorem hoarding_unprobed :
    hoarding.check = .ok () ∧
      ∃ a, Clock.start (Sink.Scripted.behaviour Nat Float)
        (probed { delay := 0, reply := .answer 0.05 }) hoarding = .error a ∧
          a.failure = .crashed ∧ a.calls = [] := by
  have checked : hoarding.check = .ok () := (check_ok _).mpr (by decide +kernel)
  exact ⟨checked, _, start_of_hoarding checked (by decide), rfl, rfl⟩

end Engine
end AdaptiveBatch
