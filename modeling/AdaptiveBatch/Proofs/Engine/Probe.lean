import AdaptiveBatch.Proofs.Engine.Call
import AdaptiveBatch.Proofs.Engine.Start
import AdaptiveBatch.Proofs.Metrics.Counters
import AdaptiveBatch.Proofs.Metrics.Recorder

/-!
# What an engine learns from its probes

What an engine knows of its sink is a function of the answers that counted: the
estimate is that of the last of them, and packing is on if one of them was above the
threshold.  A probe that does not count changes neither.
-/

namespace AdaptiveBatch
namespace Engine

variable {α ν : Type}

/-- Whether an event ends a probe. -/
def Event.endsProbe : Event α ν → Bool
  | .probeReturns _ | .probeCrashes => true
  | _ => false

def Act.endsProbe : Act α ν → Bool
  | .event e => e.endsProbe
  | .reorder _ => false

/-- How many probes the prober has in progress. -/
def ProberPhase.probes : ProberPhase → Nat
  | .probing => 1
  | .sleeping | .ended _ => 0

/-- Those who have probed the sink, once for each probe. -/
def State.probers (s : State α ν) : List Caller :=
  s.seen fun
    | .called c .probe => some c
    | _ => none

theorem probers_of_send {t : State α ν} {now : Nat} {c : Caller} {r : Request α}
    {earlier : List (Nat × Entry α ν)} (h : t.log = (now, .called c r) :: earlier)
    (send : r.isSend = true) : t.probers = State.probers { t with log := earlier } := by
  refine seen_of_skipped h ?_
  cases r with
  | probe | close => cases send
  | _ => rfl

theorem probers_beginFlush [Number ν] (s : State α ν) (e : Flush.Evaluation ν) (xs : List α) :
    (s.beginFlush e xs (State.flushRequest xs)).probers = s.probers := by
  have hflush := probers_of_send (t := s.beginFlush e xs (State.flushRequest xs)) rfl
    (isSend_flushRequest xs)
  exact hflush

section Answers

variable [Number ν]

/-- The answer that an event brings, if it counts. -/
def Event.answer? : Event α ν → Option ν
  | .probeReturns reply => reply.cost?
  | _ => none

def Act.answer? : Act α ν → Option ν
  | .event e => e.answer?
  | .reorder _ => none

/-- The answers that count, in the order in which they come. -/
def answers (as : List (Act α ν)) : List ν := as.filterMap Act.answer?

end Answers

/-! ## What the answers decide -/

variable [Number ν]

/-- What an engine with these settings knows after these answers. -/
structure Informed (settings : Settings ν) (vs : List ν) (s : State α ν) : Prop where
  same : s.settings = settings
  threshold : s.model.threshold = settings.packingThreshold
  estimate : ∀ v, vs.getLast? = some v → s.model.estimate = .ofProbe v
  packing : s.model.packing = true ↔
    ∃ v ∈ vs, Number.less settings.packingThreshold (Estimate.ofProbe v).latency = true
  probes : s.counters.probes = vs.length.toUInt64
  recorded : s.recorder.gauge? (.packingEnabled settings.name) =
    if s.model.packing then some (Number.ofCount 1) else none

namespace Informed

variable {settings : Settings ν} {vs : List ν} {s t : State α ν}

theorem keep (h : Informed settings vs s) (same : t.settings = s.settings := by rfl)
    (model : t.model = s.model := by rfl)
    (probes : t.counters.probes = s.counters.probes := by rfl)
    (gauge : t.recorder.gauge? (.packingEnabled settings.name) =
      s.recorder.gauge? (.packingEnabled settings.name) := by rfl) :
    Informed settings vs t := by
  constructor
  · rw [same]
    exact h.same
  · rw [model]
    exact h.threshold
  · rw [model]
    exact h.estimate
  · rw [model]
    exact h.packing
  · rw [probes]
    exact h.probes
  · rw [gauge, model]
    exact h.recorded

theorem blank (h : Blank settings s) : Informed settings [] s := by
  constructor
  · exact h.same
  · rw [h.model]
    rfl
  · intro v hv
    cases hv
  · rw [h.model]
    simp [Latency.Model.initial]
  · rw [h.counters]
    rfl
  · rw [h.recorder, h.model]
    rfl

theorem packing_learn (h : Informed settings vs s) (v : ν) :
    (s.learn v).model.packing = true ↔
      ∃ w ∈ vs ++ [v],
        Number.less settings.packingThreshold (Estimate.ofProbe w).latency = true := by
  show (s.model.packing || s.model.exceeds v) = true ↔ _
  rw [Bool.or_eq_true, h.packing, Latency.Model.exceeds, h.threshold]
  constructor
  · rintro (⟨w, hw, above⟩ | above)
    · exact ⟨w, List.mem_append_left _ hw, above⟩
    · exact ⟨v, List.mem_append_right _ List.mem_cons_self, above⟩
  · rintro ⟨w, hw, above⟩
    rcases List.mem_append.mp hw with hw | hw
    · exact .inl ⟨w, hw, above⟩
    · rw [List.mem_singleton.mp hw] at above
      exact .inr above

/-- The switch is recorded by the answer that turns it. -/
theorem recorded_learn (h : Informed settings vs s) (v : ν) :
    (s.learn v).recorder.gauge? (.packingEnabled settings.name) =
      if (s.learn v).model.packing then some (Number.ofCount 1) else none := by
  have hlatency : (s.recorder.latencyEstimate s.settings.name
      (s.model.publish v).estimate).gauge? (.packingEnabled settings.name) =
        if s.model.packing then some (Number.ofCount 1) else none := by
    rw [← h.recorded]
    exact (Metrics.Recorder.gauge?_set _ _ _ _).trans (Metrics.Recorder.gauge?_set _ _ _ _)
  show (if s.model.enables v then _ else _ : Metrics.Recorder ν).gauge? _ =
    if (s.model.packing || s.model.exceeds v) then _ else _
  cases hpacking : s.model.packing with
  | true =>
    rw [hpacking] at hlatency
    simpa [Latency.Model.enables, hpacking] using hlatency
  | false =>
    rw [hpacking] at hlatency
    cases habove : s.model.exceeds v with
    | true =>
      simp [Latency.Model.enables, hpacking, habove, Metrics.Recorder.packingEnabled,
        Metrics.Recorder.gauge?_set, h.same]
    | false => simpa [Latency.Model.enables, hpacking, habove] using hlatency

theorem learn (h : Informed settings vs s) (v : ν) :
    Informed settings (vs ++ [v]) (s.learn v) := by
  constructor
  · exact h.same
  · exact h.threshold
  · intro w hw
    rw [List.getLast?_append] at hw
    obtain rfl : v = w := by simpa using hw
    rfl
  · exact h.packing_learn v
  · show s.counters.probes + 1 = _
    rw [h.probes, List.length_append, Metrics.toUInt64_add]
    rfl
  · exact h.recorded_learn v

end Informed

theorem informed_move {settings : Settings ν} {vs : List ν} {s t : State α ν} {e : Event α ν}
    (h : Move s e t) (hs : Informed settings vs s) :
    Informed settings (vs ++ e.answer?.toList) t := by
  cases h with
  | @learn reply millis probing counts =>
    rw [Event.answer?, judgeProbe_ok.mp counts]
    exact (hs.learn millis).keep
  | @probeFails reply error probing fails =>
    rw [Event.answer?, ProbeReply.cost?_of_error? (judgeProbe_error.mp fails)]
    exact (List.append_nil vs).symm ▸ hs.keep
  | @defer wait draining rest =>
    refine (List.append_nil vs).symm ▸ hs.keep rfl rfl rfl ?_
    exact Metrics.Recorder.gauge?_set _ _ _ _
  | flushReturns | flushFails =>
    refine (List.append_nil vs).symm ▸ hs.keep rfl rfl ?_ rfl
    show (s.counters.flushed _).probes = s.counters.probes
    rw [Metrics.Counters.flushed_eq]
  | _ => exact (List.append_nil vs).symm ▸ hs.keep

theorem informed_act {settings : Settings ν} {vs : List ν} {s t : State α ν} {a : Act α ν}
    (h : s.act? a = some t) (hs : Informed settings vs s) :
    Informed settings (vs ++ a.answer?.toList) t := by
  cases a with
  | event e => exact informed_move (move_of_step h) hs
  | reorder line =>
    obtain ⟨_, rfl⟩ := reorder_of_act h
    exact (List.append_nil vs).symm ▸ hs.keep

theorem informed_race {settings : Settings ν} {vs : List ν} {s t : State α ν}
    {as : List (Act α ν)} (hs : Informed settings vs s) (h : s.race? as = some t) :
    Informed settings (vs ++ answers as) t := by
  refine race_induction
    (motive := fun s as t =>
      ∀ vs, Informed settings vs s → Informed settings (vs ++ answers as) t) ?_ ?_ h vs hs
  · intro s vs hs
    rw [answers, List.filterMap_nil, List.append_nil]
    exact hs
  · intro s u t a as hact _ ih vs hs
    have hu := ih _ (informed_act hact hs)
    have hsplit : vs ++ answers (a :: as) = vs ++ a.answer?.toList ++ answers as := by
      rw [answers, List.filterMap_cons, List.append_assoc]
      cases a.answer? <;> rfl
    rw [hsplit]
    exact hu

theorem informed_of_raced {s : State α ν} (hs : Raced s) : ∃ vs, Informed s.settings vs s := by
  refine raced_induction (P := fun s => ∃ vs, Informed s.settings vs s) ?_ ?_ ?_ hs
  · intro settings sink now delay reply s h
    obtain ⟨b, seed, blank, _, rfl⟩ := blank_of_spawn h
    have hseeded := (Informed.blank blank).learn seed
    exact ⟨_, blank.same.symm ▸ hseeded.keep⟩
  · rintro s t e _ hmove ⟨vs, informed⟩
    exact ⟨_, (settings_move hmove).symm ▸ informed_move hmove informed⟩
  · rintro s line _ ⟨vs, informed⟩
    exact ⟨vs, informed.keep⟩

/-! ## The record of the switch -/

/-- Once packing is on nothing writes to the record of the switch again, whatever the
recorder holds. -/
theorem gauge_move {s t : State α ν} {e : Event α ν} (h : Move s e t)
    (packing : s.model.packing = true) (name : String) :
    t.recorder.gauge? (.packingEnabled name) = s.recorder.gauge? (.packingEnabled name) := by
  cases h with
  | @learn reply millis =>
    have hoff : s.model.enables millis = false := by
      rw [Latency.Model.enables, packing]
      rfl
    show (if s.model.enables millis then _ else _ : Metrics.Recorder ν).gauge? _ = _
    rw [hoff]
    exact (Metrics.Recorder.gauge?_set _ _ _ _).trans (Metrics.Recorder.gauge?_set _ _ _ _)
  | defer => exact Metrics.Recorder.gauge?_set _ _ _ _
  | _ => rfl

theorem gauge_race {s t : State α ν} {as : List (Act α ν)} (h : s.race? as = some t)
    (packing : s.model.packing = true) (name : String) :
    t.recorder.gauge? (.packingEnabled name) = s.recorder.gauge? (.packingEnabled name) := by
  have hkept : t.model.packing = true ∧ t.recorder.gauge? (.packingEnabled name) =
      s.recorder.gauge? (.packingEnabled name) :=
    race_keeps
      (P := fun u => u.model.packing = true ∧ u.recorder.gauge? (.packingEnabled name) =
        s.recorder.gauge? (.packingEnabled name))
      (fun hmove hu => ⟨packing_move hmove hu.1, (gauge_move hmove hu.1 name).trans hu.2⟩)
      (fun _ hu => hu) h ⟨packing, rfl⟩
  exact hkept.2

/-! ## The probes themselves -/

theorem probers_of_closing {s t : State α ν} {e : Event α ν} (h : Move s e t)
    (closing : s.closing = true) : t.probers = s.probers := by
  cases h with
  | send => exact probers_of_send rfl (isSend_request _)
  | flush => exact probers_beginFlush _ _ _
  | probe asleep running =>
    rw [closing] at running
    cases running
  | _ => rfl

theorem probers_of_closing_race {s t : State α ν} {as : List (Act α ν)}
    (closing : s.closing = true) (h : s.race? as = some t) : t.probers = s.probers := by
  have hkept : t.closing = true ∧ t.probers = s.probers :=
    race_keeps (P := fun u => u.closing = true ∧ u.probers = s.probers)
      (fun hmove hu => ⟨closing_move hmove hu.1,
        (probers_of_closing hmove hu.1).trans hu.2⟩)
      (fun _ hu => hu) h ⟨closing, rfl⟩
  exact hkept.2

omit [Number ν] in
theorem probes_proceedProber (s : State α ν) : s.proceedProber.prober.probes = 0 := by
  rw [State.proceedProber]
  cases s.closing <;> rfl

/-- A probe begins when none is in progress, and it is in progress until it ends. -/
theorem probers_move {s t : State α ν} {e : Event α ν} (h : Move s e t) :
    t.probers.length + s.prober.probes =
      s.probers.length + t.prober.probes + (if e.endsProbe then 1 else 0) := by
  cases h with
  | @send n k =>
    have hsend : State.probers ((s.setPhase n .sending).note
        (.called (.offer n) k.offer.request)) = s.probers :=
      probers_of_send rfl (isSend_request _)
    rw [hsend]
    rfl
  | flush =>
    rw [probers_beginFlush]
    rfl
  | proberEnds asleep =>
    rw [asleep]
    rfl
  | probe asleep =>
    have hprobers : State.probers (State.note { s with prober := .probing }
        (.called .prober .probe)) = s.probers ++ [.prober] := List.reverse_cons
    rw [hprobers, asleep, List.length_append]
    rfl
  | learn probing | probeFails probing =>
    rw [probing, probes_proceedProber]
    rfl
  | probeCrashes probing =>
    rw [probing]
    rfl
  | _ => rfl

theorem probers_race {s t : State α ν} {as : List (Act α ν)} (h : s.race? as = some t) :
    t.probers.length + s.prober.probes =
      s.probers.length + t.prober.probes + as.countP (·.endsProbe) := by
  refine race_induction
    (motive := fun s as t => t.probers.length + s.prober.probes =
      s.probers.length + t.prober.probes + as.countP (·.endsProbe)) (fun _ => rfl) ?_ h
  intro s u t a as hact _ ih
  rw [List.countP_cons]
  cases a with
  | event e =>
    have hmove := probers_move (move_of_step hact)
    have hends : (Act.event e).endsProbe = e.endsProbe := rfl
    rw [hends]
    omega
  | reorder line =>
    obtain ⟨_, rfl⟩ := reorder_of_act hact
    exact ih

/-! ## What is learned -/

/-- What has become of an engine with these settings and this seed answer after these
acts. -/
structure FollowsProbes (settings : Settings ν) (seed : ν) (as : List (Act α ν))
    (t : State α ν) : Prop where
  estimate : t.model.estimate =
    .ofProbe ((seed :: answers as).getLast (List.cons_ne_nil seed (answers as)))
  packing : t.model.packing = true ↔
    ∃ v ∈ seed :: answers as,
      Number.less settings.packingThreshold (Estimate.ofProbe v).latency = true
  probes : t.counters.probes = (seed :: answers as).length.toUInt64
  /-- The switch has been recorded if packing is on, and only then. -/
  recorded : t.recorder.gauge? (.packingEnabled settings.name) =
    if t.model.packing then some (Number.ofCount 1) else none
  /-- From then on it is not recorded again: another recorder would not hear of it. -/
  once : t.model.packing = true → ∀ {recorder as' u},
    State.race? { t with recorder } as' = some u →
      u.recorder.gauge? (.packingEnabled settings.name) =
        recorder.gauge? (.packingEnabled settings.name)
  /-- A probe that does not count is counted as a failure, and nothing else changes of what
  offers and ticks look at. -/
  failed : ∀ {reply : ProbeReply ν} {u}, reply.cost? = none →
    t.step? (.probeReturns reply) = some u →
      u.model = t.model ∧ u.buffer = t.buffer ∧
        u.counters = { t.counters with probeFailures := t.counters.probeFailures + 1 }
  /-- No probe begins once shutdown has been requested. -/
  quiet : t.closing = true → ∀ {as' u}, t.race? as' = some u → u.probers = t.probers
  /-- All probes but the last have ended, the seed probe among them. -/
  single : t.probers.length = 1 + as.countP (·.endsProbe) + t.prober.probes ∧
    t.prober.probes ≤ 1

omit [Number ν] in
theorem probes_le_one (p : ProberPhase) : p.probes ≤ 1 := by
  cases p with
  | probing => exact Nat.le_refl 1
  | sleeping | ended => exact Nat.zero_le 1

/-- What an engine knows of its sink is decided by the answers that counted, on every
run. -/
theorem followsProbes_of_race {settings : Settings ν} {sink : String} {now delay : Nat}
    {reply : ProbeReply ν} {s t : State α ν} {as : List (Act α ν)}
    (hs : State.spawn settings sink now delay reply = .ok s) (h : s.race? as = some t) :
    ∃ seed, reply.cost? = some seed ∧ FollowsProbes settings seed as t := by
  obtain ⟨b, seed, blank, counts, hseeded⟩ := blank_of_spawn hs
  have hstart : Informed settings ([] ++ [seed]) s := by
    rw [hseeded]
    exact ((Informed.blank blank).learn seed).keep
  have informed : Informed settings (seed :: answers as) t := informed_race hstart h
  refine ⟨seed, counts, ?_, informed.packing, informed.probes, informed.recorded, ?_, ?_, ?_,
    ?_⟩
  · exact informed.estimate _ (List.getLast?_eq_some_getLast _)
  · intro packing recorder as' u hrun
    exact gauge_race hrun packing settings.name
  · intro reply' u fails hstep
    cases move_of_step hstep with
    | learn probing counts' =>
      rw [judgeProbe_ok.mp counts'] at fails
      cases fails
    | probeFails => exact ⟨rfl, rfl, rfl⟩
  · exact fun closing _ _ hrun => probers_of_closing_race closing hrun
  · have hfresh := fresh_of_spawn hs
    have hrun := probers_race h
    obtain ⟨before, after, millis, hlog⟩ := hfresh.log
    have hone : s.probers.length = 1 := by
      simp [State.probers, State.seen, hlog]
    have hidle : s.prober.probes = 0 := by
      rw [hfresh.prober]
      rfl
    exact ⟨by omega, probes_le_one t.prober⟩

/-- Settings under which a probe has five milliseconds to answer. -/
def hurriedProbes : Settings Rat := { Settings.standard with probeTimeout := some 5 }

/-- A probe that fails, one that answers what cannot be, one above the threshold, one below
it, and a last one that is cut off by the time limit after shutdown was requested.  An offer
asks for the buffer lock while this one lasts, and somebody who only looks has overtaken
it. -/
def mixedProbes : List (Act Nat Rat) :=
  List.map .event [.proberWakes, .probeReturns (.fault (.other "away")), .proberWakes,
    .probeReturns (.answer (-1)), .proberWakes, .probeReturns (.answer 50), .proberWakes,
    .probeReturns (.answer 0), .proberWakes, .offer (.one 1), .enter 0, .measure, .close] ++
  .reorder [.observer 1, .offer 0] ::
  List.map .event [.acquire, .probeReturns .late, .acquire]

theorem followsProbes_of_mixedProbes :
    ∃ s t : State Nat Rat, State.spawn hurriedProbes "sink" 0 0 (.answer 0) = .ok s ∧
      s.race? mixedProbes = some t ∧ answers mixedProbes = [50, 0] ∧
      t.model.packing = true ∧ t.counters.probeFailures = 3 ∧
      ∃ seed, (ProbeReply.answer (0 : Rat)).cost? = some seed ∧
        FollowsProbes hurriedProbes seed mixedProbes t := by
  have hplay : (State.play? hurriedProbes "sink" 0 mixedProbes).map
      (fun t => (t.model.packing, t.counters.probeFailures)) = some (true, 3) := by
    decide +kernel
  obtain ⟨t, ht, hfacts⟩ := Option.map_eq_some_iff.mp hplay
  obtain ⟨s, hs, hrun⟩ := spawn_of_play ht
  have hanswers : answers mixedProbes = [50, 0] := by decide +kernel
  exact ⟨s, t, hs, hrun, hanswers, congrArg Prod.fst hfacts, congrArg Prod.snd hfacts,
    followsProbes_of_race hs hrun⟩

end Engine
end AdaptiveBatch
