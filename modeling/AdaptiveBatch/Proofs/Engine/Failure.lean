import Mathlib.Algebra.GroupWithZero.Nat
import AdaptiveBatch.Proofs.Engine.Probe
import AdaptiveBatch.Proofs.Engine.Record
import AdaptiveBatch.Proofs.Engine.Return

/-!
# Failures in the background

A probe, a flush or the closing of the sink that fails is published, once, when it fails,
and nothing else is.  So what was lost can be told from the events alone.  A flush that
fails loses its items, and to the engine that is all: it goes on as if the sink had taken
them.
-/

namespace AdaptiveBatch

variable {α ν : Type}

/-- How many items were lost, if that was in a flush. -/
def FailureEvent.lost? (e : FailureEvent ν) : Option Nat :=
  if e.stage = .flush then some e.items else none

namespace Engine

def Entry.event? : Entry α ν → Option (FailureEvent ν)
  | .failed event => some event
  | _ => none

/-- How many items a flush had in hand that an entry shows to have failed. -/
def Entry.missed? : Entry α ν → Option Nat
  | .returned _ r (some _) => r.flush?.map List.length
  | _ => none

namespace State

/-- The lists of the flushes that the sink took. -/
def takenFlushes (s : State α ν) : List (List α) :=
  s.returned.filterMap fun c => if c.2.isNone then c.1.flush? else none

/-- The lists of the flushes that failed. -/
def failedFlushes (s : State α ν) : List (List α) :=
  s.returned.filterMap fun c => if c.2.isSome then c.1.flush? else none

end State

theorem failures_seen (s : State α ν) : s.failures = s.seen Entry.event? := by
  rw [State.failures, State.seen, List.filterMap_reverse]
  rfl

section Failing

variable [Number ν]

/-- The failure that an event brings where no caller waits for it. -/
def State.failure? (s : State α ν) : Event α ν → Option (FailureEvent ν)
  | .probeReturns reply =>
    (reply.error? s.sink s.settings.probeTimeout).map fun error =>
      { batcher := s.settings.name, stage := .probe, items := 0, error }
  | .flushReturns (some fault) =>
    some
      { batcher := s.settings.name, stage := .flush, items := (s.inFlight?.getD []).length
        error := .sink fault }
  | .closeReturns (some fault) =>
    some { batcher := s.settings.name, stage := .close, items := 0, error := .sink fault }
  | _ => none

/-- The failures that a list of acts brings, in their order. -/
def State.failing (s : State α ν) : List (Act α ν) → List (FailureEvent ν)
  | [] => []
  | .event e :: as => (s.failure? e).toList ++ ((s.step? e).map fun t => t.failing as).getD []
  | .reorder line :: as => State.failing { s with line } as

theorem failures_move {s t : State α ν} {e : Event α ν} (hs : Steady s)
    (calm : e.crashes = false) (h : Move s e t) :
    t.failures = s.failures ++ (s.failure? e).toList := by
  rw [failures_seen, failures_seen]
  cases h with
  | directReturns | flushReturns | closeReturns => exact (List.append_nil _).symm
  | learn probing counts =>
    rw [State.failure?, ProbeReply.error?_of_cost? (judgeProbe_ok.mp counts)]
    exact (List.append_nil _).symm
  | probeFails probing fails =>
    rw [State.failure?, judgeProbe_error.mp fails]
    exact List.reverse_cons
  | @flushFails items reason fault delivering =>
    rw [State.failure?, inFlight?_of_delivering hs delivering]
    exact List.reverse_cons
  | closeFails fault closing => exact List.reverse_cons
  | directCrashes | probeCrashes | flushCrashes | closeCrashes => cases calm
  | _ => exact (List.append_nil _).symm

theorem failures_race {s t : State α ν} {as : List (Act α ν)} (hs : Steady s)
    (hcalm : Calm as) (h : s.race? as = some t) : t.failures = s.failures ++ s.failing as := by
  refine calm_race_induction (motive := fun s as t => t.failures = s.failures ++ s.failing as)
    ?_ ?_ ?_ hs hcalm h
  · exact fun s => (List.append_nil _).symm
  · intro s u t e as hs he hstep ih
    have hmove := failures_move hs he (move_of_step hstep)
    rw [ih, hmove, List.append_assoc, State.failing, hstep]
    rfl
  · intro s t line as _ ih
    rw [ih]
    rfl

/-! ## What is lost -/

omit [Number ν] in
theorem failedFlushes_seen (s : State α ν) :
    s.failedFlushes.map List.length = s.seen Entry.missed? := by
  rw [State.failedFlushes, List.map_filterMap, State.returned, seen_filterMap]
  congr 1
  funext e
  cases e with
  | returned c r fault => cases fault <;> rfl
  | _ => rfl

theorem missed_move {s t : State α ν} {e : Event α ν} (h : Move s e t)
    (hs : s.seen (fun e => e.event?.bind FailureEvent.lost?) = s.seen Entry.missed?) :
    t.seen (fun e => e.event?.bind FailureEvent.lost?) = t.seen Entry.missed? := by
  cases h with
  | @directReturns n k fault =>
    cases fault with
    | none => exact hs
    | some fault =>
      have hmissed : State.seen (s.note (.returned (.offer n) k.offer.request (some fault)))
          Entry.missed? = s.seen Entry.missed? :=
        seen_of_skipped rfl (congrArg (Option.map List.length) (flush?_request k.offer))
      exact hs.trans hmissed.symm
  | @flushFails items reason fault =>
    -- the call returns and the failure is published in one step, so both lists grow by one
    have hmissed : State.seen (s.note (.returned .scheduler (State.flushRequest items)
        (some fault))) Entry.missed? = s.seen Entry.missed? ++ [items.length] := by
      rw [seen_of_log (s := s) rfl, Entry.missed?, flush?_flushRequest]
      rfl
    exact (List.reverse_cons.trans (congrArg (· ++ [items.length]) hs)).trans hmissed.symm
  | _ => exact hs

theorem lost_of_raced {s : State α ν} (hs : Raced s) :
    s.failures.filterMap FailureEvent.lost? = s.failedFlushes.map List.length := by
  rw [failures_seen, seen_filterMap, failedFlushes_seen]
  refine of_raced (P := fun s => s.seen (fun e => e.event?.bind FailureEvent.lost?) =
    s.seen Entry.missed?) ?_ (fun _ => missed_move) (fun _ hs => hs) hs
  intro s h
  rw [seen_fresh h rfl fun _ => rfl]
  exact (seen_fresh h rfl fun _ => rfl).symm

omit [Number ν] in
theorem returnedFlushes_length (s : State α ν) :
    s.returnedFlushes.flatten.length =
      s.takenFlushes.flatten.length + s.failedFlushes.flatten.length := by
  simp only [State.returnedFlushes, State.takenFlushes, State.failedFlushes]
  induction s.returned with
  | nil => rfl
  | cons c rest ih =>
    obtain ⟨r, fault⟩ := c
    rw [flatten_filterMap_cons, flatten_filterMap_cons, flatten_filterMap_cons,
      List.length_append, List.length_append, List.length_append, ih]
    cases fault with
    | none =>
      show (r.flush?.getD []).length + _ = (r.flush?.getD []).length + _ + (0 + _)
      omega
    | some fault =>
      show (r.flush?.getD []).length + _ = 0 + _ + ((r.flush?.getD []).length + _)
      omega

/-- What has joined the buffer was taken or lost, is being flushed or is still there. -/
theorem appended_split {s : State α ν} (hs : Steady s) :
    s.appended.flatten.length =
      s.takenFlushes.flatten.length + (s.failures.filterMap FailureEvent.lost?).sum +
        (s.inFlight?.getD []).length + s.buffer.size := by
  have hlost : (s.failures.filterMap FailureEvent.lost?).sum = s.failedFlushes.flatten.length := by
    rw [lost_of_raced hs.raced, List.length_flatten]
  rw [← length_appended hs, returnedFlushes_length, hlost]

/-! ## Closing -/

/-- The sink fails to close at most once, and then the scheduler has ended. -/
theorem closeFailures_move {s t : State α ν} {e : Event α ν} (hsteady : Steady s)
    (calm : e.crashes = false) (h : Move s e t)
    (hs : s.failures.countP (·.stage = .close) ≤ if s.schedulerEnded then 1 else 0) :
    t.failures.countP (·.stage = .close) ≤ if t.schedulerEnded then 1 else 0 := by
  have hfailures := failures_move hsteady calm h
  rw [hfailures, List.countP_append]
  cases h with
  | shut free head turn | idle free head turn | defer free head turn | flush free head turn
  | unpark turn | wake turn | flushReturns turn | takeGate turn | closeReturns turn
  | flushFails fault turn =>
    -- a scheduler that still moves has not ended, so the sink has not failed to close yet
    rw [State.schedulerEnded, turn] at hs
    exact Nat.le_trans hs (Nat.zero_le _)
  | closeFails fault turn =>
    rw [State.schedulerEnded, turn] at hs
    exact Nat.add_le_add_right hs 1
  | directCrashes | probeCrashes | flushCrashes | closeCrashes => cases calm
  | @probeFails reply error probing fails =>
    rw [State.failure?, judgeProbe_error.mp fails]
    exact hs
  | @learn reply millis probing counts =>
    rw [State.failure?, ProbeReply.error?_of_cost? (judgeProbe_ok.mp counts)]
    exact hs
  | _ => exact hs

theorem closeFailures_of_steady {s : State α ν} (hs : Steady s) :
    s.failures.countP (·.stage = .close) ≤ 1 := by
  have hbound : s.failures.countP (·.stage = .close) ≤ if s.schedulerEnded then 1 else 0 := by
    refine of_steady
      (P := fun s => s.failures.countP (·.stage = .close) ≤ if s.schedulerEnded then 1 else 0)
      ?_ closeFailures_move ?_ hs
    · intro s h
      rw [failures_seen, seen_fresh h rfl fun _ => rfl]
      exact Nat.zero_le _
    · exact fun _ hs => hs
  cases hended : s.schedulerEnded with
  | true => simpa [hended] using hbound
  | false =>
    rw [hended] at hbound
    exact Nat.le_trans hbound (Nat.zero_le 1)

/-! ## After a flush that failed -/

theorem lockHeld_proceed (s : State α ν) : s.proceed.lockHeld = false := by
  rw [State.lockHeld]
  split
  · rename_i delivering
    exact absurd delivering (delivering_ne_nextWait s)
  · rfl

/-- While a flush is in progress nothing is buffered and no time is lost. -/
def TakenOut (s : State α ν) : Prop :=
  ∀ {items reason}, s.scheduler = .delivering items reason →
    s.buffer.items = [] ∧ s.buffer.lost = Number.ofCount 0

theorem takenOut_move {s t : State α ν} {e : Event α ν} (h : Move s e t) (hs : TakenOut s) :
    TakenOut t := by
  intro items reason delivering
  obtain ⟨old, same, -⟩ | ⟨wait, draining, rest, -, rfl⟩ := delivering_move h delivering
  · rw [same]
    exact hs old
  · exact ⟨rfl, rfl⟩

theorem takenOut_of_raced {s : State α ν} (hs : Raced s) : TakenOut s := by
  refine of_raced (P := TakenOut) ?_ (fun _ => takenOut_move) (fun _ hs => hs) hs
  intro s h items reason delivering
  rw [h.scheduler] at delivering
  cases delivering

/-- How an engine goes on from `u`, where its flush from `s` has failed, and how it would
go on from `v`, where the sink has taken it. -/
structure GoesOn (s : State α ν) (fault : Fault) (u v : State α ν) : Prop where
  empty : u.buffer.items = []
  lost : u.buffer.lost = Number.ofCount 0
  free : u.lockHeld = false
  counters : u.counters = v.counters.flushFailed
  recorder : ∃ reason,
    u.recorder = (s.recorder.flush s.settings.name (s.inFlight?.getD []).length reason
      false).failure s.settings.name .flush ∧
    v.recorder = s.recorder.flush s.settings.name (s.inFlight?.getD []).length reason true
  log : ∃ request event, s.openCall? .scheduler = some request ∧
    s.failure? (.flushReturns (some fault)) = some event ∧
    u.log = (s.now, .failed event) :: (s.now, .returned .scheduler request (some fault)) ::
      s.log ∧
    v.log = (s.now, .returned .scheduler request none) :: s.log
  /-- What can happen to the one can happen to the other, and their states go on to differ
  in these records alone, as they do now. -/
  later : ∀ as, Option.Rel (Apart u v) (u.race? as) (v.race? as)

theorem goesOn_of_failed {s u : State α ν} (hs : Steady s) {fault : Fault}
    (h : s.step? (.flushReturns (some fault)) = some u) :
    ∃ v, s.step? (.flushReturns none) = some v ∧ GoesOn s fault u v := by
  cases move_of_step h with
  | @flushFails items reason _ delivering =>
    obtain ⟨empty, lost⟩ := takenOut_of_raced hs.raced delivering
    have hflight := inFlight?_of_delivering hs delivering
    have hcall : s.openCall? .scheduler = some (State.flushRequest items) := by
      rw [openCall?_scheduler hs, delivering]
      rfl
    refine ⟨_, step_of_move (.flushReturns delivering) rfl, empty, lost, lockHeld_proceed _, rfl,
      ⟨reason.name, ?_, ?_⟩, ⟨_, _, hcall, rfl, ?_, rfl⟩,
      apart_races (Apart.start rfl rfl rfl rfl)⟩
    all_goals
      rw [hflight]
      rfl

end Failing

/-! ## Nothing is lost in silence -/

section Reports

variable [Number ν]

/-- What an engine that was `s` has published after these acts. -/
structure ReportsFailures (s : State α ν) (as : List (Act α ν)) (t : State α ν) : Prop where
  /-- Every failure in the background, in its turn, and nothing else. -/
  events : t.failures = s.failing as
  /-- The flushes among them are the flush calls that failed, with the sizes of their lists. -/
  flushes : t.failures.filterMap FailureEvent.lost? = t.failedFlushes.map List.length
  closes : t.failures.countP (·.stage = .close) ≤ 1
  /-- What has joined the buffer was taken by the sink or published as lost, is being flushed
  or is still there. -/
  conserved : t.appended.flatten.length =
    t.takenFlushes.flatten.length + (t.failures.filterMap FailureEvent.lost?).sum +
      (t.inFlight?.getD []).length + t.buffer.size
  goesOn : ∀ {fault u}, t.step? (.flushReturns (some fault)) = some u →
    ∃ v, t.step? (.flushReturns none) = some v ∧ GoesOn t fault u v

/-- Unless a sink call brings its caller down, every failure that no caller hears of is
published, and what is lost is what was published as lost. -/
theorem reportsFailures_of_race {settings : Settings ν} {sink : String} {now delay : Nat}
    {reply : ProbeReply ν} {s t : State α ν} {as : List (Act α ν)}
    (hs : State.spawn settings sink now delay reply = .ok s) (hcalm : Calm as)
    (h : s.race? as = some t) : ReportsFailures s as t := by
  have steady : Steady t := steady_of_race (.spawn hs) hcalm h
  have hnone : s.failures = [] := by
    rw [failures_seen]
    exact seen_fresh (fresh_of_spawn hs) rfl fun _ => rfl
  constructor
  · rw [failures_race (.spawn hs) hcalm h, hnone]
    rfl
  · exact lost_of_raced steady.raced
  · exact closeFailures_of_steady steady
  · exact appended_split steady
  · exact goesOn_of_failed steady

end Reports

/-- A probe that fails, one that is late and one that counts; a batch that fails and an item
that the sink takes, with an offer that the scheduler overtakes until the buffer is sealed;
and a sink that fails to close. -/
def everyKindOfFailure : List (Act Nat Rat) :=
  List.map .event [.proberWakes, .probeReturns (.fault (.other "away")), .proberWakes,
    .probeReturns .late, .proberWakes, .probeReturns (.answer 50), .offer (.all [1, 2]),
    .enter 0, .acquire, .schedulerWakes, .schedulerWakes, .acquire,
    .flushReturns (some (.other "full")), .offer (.one 3), .enter 1, .acquire,
    .offer (.one 4), .enter 2, .close, .schedulerWakes] ++
  .reorder [.scheduler, .offer 2] :: List.map .event [.acquire, .flushReturns none] ++
  .reorder [.scheduler, .offer 2] :: List.map .event [.acquire, .acquire, .takeGate,
    .closeReturns (some (.other "stuck"))]

theorem reportsFailures_of_everyKind :
    ∃ s t : State Nat Rat, State.spawn hurriedProbes "sink" 0 0 (.answer 0) = .ok s ∧
      Calm everyKindOfFailure ∧ s.race? everyKindOfFailure = some t ∧
      t.failures.map (fun e => (e.stage, e.items)) =
        [(.probe, 0), (.probe, 0), (.flush, 2), (.close, 0)] ∧
      t.takenFlushes = [[3]] ∧ ReportsFailures s everyKindOfFailure t := by
  have hplay : (State.play? hurriedProbes "sink" 0 everyKindOfFailure).map
      (fun t => (t.failures.map (fun e => (e.stage, e.items)), t.takenFlushes)) =
        some ([(.probe, 0), (.probe, 0), (.flush, 2), (.close, 0)], [[3]]) := by
    decide +kernel
  obtain ⟨t, ht, hfacts⟩ := Option.map_eq_some_iff.mp hplay
  obtain ⟨s, hs, hrun⟩ := spawn_of_play ht
  have hcalm : Calm everyKindOfFailure := by decide
  exact ⟨s, t, hs, hcalm, hrun, congrArg Prod.fst hfacts, congrArg Prod.snd hfacts,
    reportsFailures_of_race hs hcalm hrun⟩

end Engine
end AdaptiveBatch
