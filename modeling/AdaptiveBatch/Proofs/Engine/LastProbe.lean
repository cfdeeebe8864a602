import AdaptiveBatch.Proofs.Engine.Failure
import AdaptiveBatch.Proofs.Engine.Teardown

/-!
# The probe that shutdown finds under way

The gate keeps direct sends and the closing of the sink apart, and probes do not pass it.
So the sink may be closed beside a probe, but only beside the one that was in progress
when shutdown was requested.  No other begins after that, and the prober ends with it.
-/

namespace AdaptiveBatch
namespace Engine

variable {α ν : Type}

namespace State

/-- The failed probes that have been published. -/
def probeFailures (s : State α ν) : List (FailureEvent ν) :=
  s.failures.filter (·.stage = .probe)

/-- What a reply to a probe is published as, if it does not count. -/
def probeFailure? [Number ν] (s : State α ν) (reply : ProbeReply ν) :
    Option (FailureEvent ν) :=
  (reply.error? s.sink s.settings.probeTimeout).map fun error =>
    { batcher := s.settings.name, stage := .probe, items := 0, error }

end State

variable [Number ν]

/-- If the sink is being closed, or has been, then no probe is in progress, and from then
on none begins and none is published to have failed. -/
def Undisturbed (s : State α ν) : Prop :=
  s.closers ≠ [] → ∀ {as t}, Calm as → s.race? as = some t →
    t.prober.probes = 0 ∧ t.probers = s.probers ∧ t.probeFailures = s.probeFailures

theorem probeFailures_move {s t : State α ν} {e : Event α ν} (hs : Steady s)
    (calm : e.crashes = false) (h : Move s e t) :
    t.probeFailures =
      s.probeFailures ++ (s.failure? e).toList.filter (·.stage = .probe) := by
  rw [State.probeFailures, failures_move hs calm h, List.filter_append]
  rfl

theorem probeFailures_other {s t : State α ν} {e : Event α ν} (hs : Steady s)
    (calm : e.crashes = false) (h : Move s e t) (other : e.endsProbe = false) :
    t.probeFailures = s.probeFailures := by
  rw [probeFailures_move hs calm h]
  cases e with
  | probeReturns reply | probeCrashes => cases other
  | flushReturns fault | closeReturns fault => cases fault <;> exact List.append_nil _
  | _ => exact List.append_nil _

theorem probeFailures_reply {s t : State α ν} {reply : ProbeReply ν} (hs : Steady s)
    (h : Move s (.probeReturns reply) t) :
    t.probeFailures = s.probeFailures ++ (s.probeFailure? reply).toList := by
  rw [probeFailures_move hs rfl h]
  show _ ++ (s.probeFailure? reply).toList.filter _ = _
  rw [State.probeFailure?]
  cases reply.error? s.sink s.settings.probeTimeout <;> rfl

/-- Who the sink is and how it may be probed never changes. -/
theorem probeFailure?_move {s t : State α ν} {e : Event α ν} (h : Move s e t) :
    t.probeFailure? = s.probeFailure? := by
  have hsink : t.sink = s.sink := by cases h <;> rfl
  funext reply
  rw [State.probeFailure?, State.probeFailure?, hsink, settings_move h]

/-! ## After the request -/

/-- The prober's phase once shutdown has been requested: a probe may end, and nothing
else happens that matters to it. -/
theorem prober_move_of_closing {s t : State α ν} {e : Event α ν} (calm : e.crashes = false)
    (h : Move s e t) (closing : s.closing = true) :
    if e.endsProbe then s.prober = .probing ∧ t.prober = .ended false
    else t.prober.probes = s.prober.probes := by
  cases h with
  | probe asleep running =>
    rw [closing] at running
    cases running
  | learn probing | probeFails probing =>
    refine ⟨probing, ?_⟩
    show (if s.closing then ProberPhase.ended false else .sleeping) = _
    rw [closing]
    rfl
  | proberEnds asleep =>
    rw [asleep]
    rfl
  | probeCrashes => cases calm
  | _ => rfl

/-- A prober that has no probe in progress when shutdown has been requested has none ever
after. -/
theorem idle_race {s t : State α ν} {as : List (Act α ν)} (hs : Steady s) (calm : Calm as)
    (h : s.race? as = some t) (closing : s.closing = true) (idle : s.prober.probes = 0) :
    as.filter (·.endsProbe) = [] ∧ t.prober.probes = 0 ∧
      t.probeFailures = s.probeFailures := by
  refine calm_race_induction
    (motive := fun s as t => s.closing = true → s.prober.probes = 0 →
      as.filter (·.endsProbe) = [] ∧ t.prober.probes = 0 ∧
        t.probeFailures = s.probeFailures) ?_ ?_ ?_ hs calm h closing idle
  · exact fun s _ idle => ⟨rfl, idle, rfl⟩
  · intro s u t e as hs he hstep ih closing idle
    have hmove := move_of_step hstep
    have hprober := prober_move_of_closing he hmove closing
    cases hends : e.endsProbe with
    | true =>
      rw [hends, if_pos rfl] at hprober
      rw [hprober.1] at idle
      cases idle
    | false =>
      rw [hends, if_neg Bool.false_ne_true] at hprober
      obtain ⟨hnone, hidle, hsame⟩ := ih (closing_move hmove closing) (hprober.trans idle)
      refine ⟨?_, hidle, hsame.trans (probeFailures_other hs he hmove hends)⟩
      rw [List.filter_cons_of_neg (by simp [Act.endsProbe, hends])]
      exact hnone
  · intro s t line as _ ih closing idle
    obtain ⟨hnone, hidle, hsame⟩ := ih closing idle
    refine ⟨?_, hidle, hsame⟩
    rw [List.filter_cons_of_neg (by simp [Act.endsProbe])]
    exact hnone

theorem ended_race {s t : State α ν} {as : List (Act α ν)} (h : s.race? as = some t)
    (ended : s.prober = .ended false) : t.prober = .ended false := by
  refine race_keeps (P := fun u => u.prober = .ended false) ?_ (fun _ hs => hs) h ended
  intro s t e hmove ended
  cases hmove with
  | proberEnds => rfl
  | probe asleep | learn asleep | probeFails asleep | probeCrashes asleep =>
    rw [ended] at asleep
    cases asleep
  | _ => exact ended

/-- How a probe that was in progress in `s`, where shutdown had been requested, has fared
after these acts: it is still in progress, or has ended, and with it the prober. -/
def ProbeLasts (s : State α ν) (as : List (Act α ν)) (t : State α ν) : Prop :=
  (t.prober = .probing ∧ t.probeFailures = s.probeFailures) ∨
    (t.prober = .ended false ∧
      ∃ reply, as.filter (·.endsProbe) = [.event (.probeReturns reply)] ∧
        t.probeFailures = s.probeFailures ++ (s.probeFailure? reply).toList)

/-- An act that ends no probe leaves it to those that follow. -/
theorem ProbeLasts.cons {s u t : State α ν} {a : Act α ν} {as : List (Act α ν)}
    (h : ProbeLasts u as t) (other : a.endsProbe = false)
    (failures : u.probeFailures = s.probeFailures)
    (failure? : u.probeFailure? = s.probeFailure?) : ProbeLasts s (a :: as) t := by
  rw [ProbeLasts, failures, failure?] at h
  rwa [ProbeLasts, List.filter_cons_of_neg (by simp [other])]

theorem probing_race {s t : State α ν} {as : List (Act α ν)} (hs : Steady s)
    (calm : Calm as) (h : s.race? as = some t) (closing : s.closing = true)
    (probing : s.prober = .probing) : ProbeLasts s as t := by
  induction as generalizing s with
  | nil =>
    obtain rfl := Option.some.inj h
    exact .inl ⟨probing, rfl⟩
  | cons a as ih =>
    obtain ⟨u, hact, hrest⟩ := race_cons.mp h
    obtain ⟨ha, has⟩ := List.forall_mem_cons.mp calm
    have hu : Steady u := .act hs ha hact
    cases a with
    | reorder line =>
      obtain ⟨_, rfl⟩ := reorder_of_act hact
      exact (ih hu has hrest closing probing).cons rfl rfl rfl
    | event e =>
      have hmove := move_of_step hact
      have hclosing := closing_move hmove closing
      have hprober := prober_move_of_closing ha hmove closing
      cases hends : e.endsProbe with
      | true =>
        rw [hends, if_pos rfl] at hprober
        have hidle : u.prober.probes = 0 := by rw [hprober.2]; rfl
        obtain ⟨hnone, -, hsame⟩ := idle_race hu has hrest hclosing hidle
        cases e with
        | probeReturns reply =>
          refine .inr ⟨ended_race hrest hprober.2, reply, ?_, ?_⟩
          · rw [List.filter_cons_of_pos (by simp [Act.endsProbe, hends]), hnone]
          · rw [hsame, probeFailures_reply hs hmove]
        | probeCrashes => cases ha
        | _ => cases hends
      | false =>
        rw [hends, if_neg Bool.false_ne_true, probing] at hprober
        have hprobing : u.prober = .probing := by
          cases hphase : u.prober with
          | probing => rfl
          | sleeping | ended => rw [hphase] at hprober; cases hprober
        exact (ih hu has hrest hclosing hprobing).cons hends
          (probeFailures_other hs ha hmove hends) (probeFailure?_move hmove)

/-! ## Closing beside a probe -/

/-- How probing ends in an engine that is shut down. -/
structure ProbesLast (s : State α ν) : Prop where
  /-- The sink is closed only when shutdown has been requested, -/
  requested : s.closers ≠ [] → s.closing = true
  /-- and from then on no probe begins. -/
  begins : s.closing = true → ∀ {as t}, s.race? as = some t → t.probers = s.probers
  single : s.prober.probes ≤ 1
  /-- If none was in progress by then, the sink is closed undisturbed. -/
  apart : s.closing = true → s.prober.probes = 0 → ∀ {as t}, Calm as →
    s.race? as = some t → Undisturbed t
  /-- One that was may go on beside the closing of the sink and after it, until it ends.
  If it fails, that is the last failure of a probe. -/
  lasts : s.closing = true → s.prober = .probing → ∀ {as t}, Calm as → s.race? as = some t →
    ProbeLasts s as t

/-- Unless a sink call brings its caller down, the sink is closed beside one probe at
most, which was in progress when shutdown was requested. -/
theorem probesLast_of_steady {s : State α ν} (hs : Steady s) : ProbesLast s := by
  refine ⟨?_, fun closing _ _ h => probers_of_closing_race closing h, probes_le_one s.prober, ?_,
    fun closing probing _ _ calm h => probing_race hs calm h closing probing⟩
  · intro closed
    exact (quiet_of_alone hs (alone_of_closers hs closed)).closing
  · intro closing idle as t calm h _ as' u calm' h'
    have ht := steady_of_race hs calm h
    have htclosing := closing_race closing h
    obtain ⟨-, htidle, -⟩ := idle_race hs calm h closing idle
    obtain ⟨-, hidle, hsame⟩ := idle_race ht calm' h' htclosing htidle
    exact ⟨hidle, probers_of_closing_race htclosing h', hsame⟩

/-- A probe is under way when shutdown is requested and the sink is closed. -/
def slowProbe : List (Act Nat Rat) :=
  List.map .event [.proberWakes, .close, .schedulerWakes, .acquire, .takeGate]

/-- The sink has been closed when the probe fails. -/
def closedMeanwhile : List (Act Nat Rat) :=
  List.map .event [.closeReturns none, .probeReturns (.fault (.other "away"))]

theorem slowProbe_disturbs :
    ∃ s t : State Nat Rat, State.play? .standard "sink" 0 slowProbe = some s ∧ Steady s ∧
      s.closers = [.scheduler] ∧ s.prober = .probing ∧ s.race? closedMeanwhile = some t ∧
      s.probeFailures.length = 0 ∧ t.probeFailures.length = 1 ∧ ¬ Undisturbed s := by
  have hplay : ((State.play? .standard "sink" 0 slowProbe).bind fun s =>
      (s.race? closedMeanwhile).map fun t =>
        (s.closers, s.prober, s.probeFailures.length, t.probeFailures.length)) =
      some ([.scheduler], .probing, 0, 1) := by
    decide +kernel
  obtain ⟨s, hs, hrest⟩ := Option.bind_eq_some_iff.mp hplay
  obtain ⟨t, ht, hfacts⟩ := Option.map_eq_some_iff.mp hrest
  simp only [Prod.mk.injEq] at hfacts
  obtain ⟨closers, probing, none, one⟩ := hfacts
  refine ⟨s, t, hs, steady_of_play hs (by decide), closers, probing, ht, none, one,
    fun undisturbed => ?_⟩
  have hsame := (undisturbed (by simp [closers]) (by decide) ht).2.2
  rw [hsame, none] at one
  cases one

theorem probesLast_of_slowProbe :
    ∃ s : State Nat Rat, State.play? .standard "sink" 0 slowProbe = some s ∧ Steady s ∧
      s.closers = [.scheduler] ∧ s.prober = .probing ∧ ProbesLast s := by
  have hplay : (State.play? .standard "sink" 0 slowProbe).map
      (fun s => (s.closers, s.prober)) = some ([.scheduler], .probing) := by
    decide +kernel
  obtain ⟨s, hs, hfacts⟩ := Option.map_eq_some_iff.mp hplay
  have steady : Steady s := steady_of_play hs (by decide)
  exact ⟨s, hs, steady, congrArg Prod.fst hfacts, congrArg Prod.snd hfacts,
    probesLast_of_steady steady⟩

end Engine
end AdaptiveBatch
