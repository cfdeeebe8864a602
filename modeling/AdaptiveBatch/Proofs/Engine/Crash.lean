import AdaptiveBatch.Proofs.Engine.Race
import AdaptiveBatch.Proofs.Engine.Return
import AdaptiveBatch.Proofs.Engine.Shutdown

/-!
# Sink calls that bring their task down

A sink call may bring down the task that makes it, and nobody takes that task's place.
An offer and the prober are not missed.  The scheduler is, if a flush brings it down:
the flush never returns, and nobody is left to drain the buffer, to seal it and to close
the sink.
-/

namespace AdaptiveBatch
namespace Engine

variable {α ν : Type}

def Delivers (s : State α ν) : Prop :=
  ∀ items reason, s.scheduler = .delivering items reason →
    s.openCall? .scheduler = some (State.flushRequest items)

/-- The scheduler is at work, or has come to its end. -/
structure Intact (s : State α ν) : Prop where
  staged : Staged s
  closers : s.closers = if s.scheduler.isAlone then [.scheduler] else []
  delivers : Delivers s
  returns : FlushesReturn s

/-- A flush has brought the scheduler down. -/
structure Broken (s : State α ν) : Prop where
  ended : s.scheduler = .ended true
  unsealed : s.buffer.sealed = false
  closers : s.closers = []
  lost : ∃ items, items ≠ [] ∧ s.inFlight? = some items ∧
    s.flushed = s.returnedFlushes ++ [items]

variable [Number ν]

theorem intact_fresh {s : State α ν} (h : Fresh s) : Intact s := by
  refine ⟨staged_fresh h, ?_, ?_, flushesReturn_fresh h⟩
  · rw [h.scheduler]
    exact seen_fresh h rfl fun _ => rfl
  · intro items reason delivering
    rw [h.scheduler] at delivering
    cases delivering

theorem delivers_move {s t : State α ν} {e : Event α ν} (h : Move s e t) (hs : Delivers s) :
    Delivers t := by
  intro items reason delivering
  obtain ⟨old, -, same⟩ | ⟨wait, draining, rest, -, rfl⟩ := delivering_move h delivering
  · exact same.trans (hs items reason old)
  · obtain ⟨rfl, -⟩ := SchedulerPhase.delivering.inj delivering
    exact openCall?_of_latest rfl

/-- No crash but that of a flush does any harm. -/
theorem intact_move {s t : State α ν} {e : Event α ν} (whole : e ≠ .flushCrashes)
    (h : Move s e t) (hs : Intact s) : Intact t := by
  have hdelivers := delivers_move h hs.delivers
  cases crash : e.crashes with
  | false =>
    exact ⟨staged_move crash h hs.staged, closers_move crash h hs.closers, hdelivers,
      flushesReturn_move crash h hs.returns⟩
  | true =>
    cases h with
    | directCrashes =>
      exact ⟨hs.staged.same rfl rfl id (without_answer · _ _), hs.closers, hdelivers, hs.returns⟩
    | probeCrashes => exact ⟨hs.staged.same, hs.closers, hdelivers, hs.returns⟩
    | flushCrashes => exact absurd rfl whole
    | closeCrashes turn =>
      have hclosers := hs.closers
      have hreturns := hs.returns
      rw [turn] at hclosers
      rw [FlushesReturn, turn] at hreturns
      have hstaged : Staged { s with scheduler := .ended true } :=
        hs.staged.later (by rw [turn]; rfl) rfl rfl rfl fun _ => hs.staged.alone (by rw [turn]; rfl)
      exact ⟨hstaged, hclosers, hdelivers, hreturns⟩
    | _ => cases crash

theorem broken_of_crash {s t : State α ν} (h : Move s .flushCrashes t) (hs : Intact s) :
    Broken t := by
  cases h with
  | @flushCrashes items reason delivering =>
    refine ⟨rfl, hs.staged.unsealed (by rw [delivering]; rfl), ?_, items,
      hs.staged.delivering delivering, ?_, ?_⟩
    · have hclosers := hs.closers
      rw [delivering] at hclosers
      exact hclosers
    · have hcall : s.openCall? .scheduler = some (State.flushRequest items) :=
        hs.delivers items reason delivering
      show (s.openCall? .scheduler).bind Request.flush? = some items
      rw [hcall]
      exact flush?_flushRequest items
    · have hreturns := hs.returns
      rw [FlushesReturn, delivering] at hreturns
      exact hreturns.trans (congrArg (s.returnedFlushes ++ ·.toList) (flush?_flushRequest items))

theorem broken_move {s t : State α ν} {e : Event α ν} (h : Move s e t) (hs : Broken s) :
    Broken t := by
  -- only the scheduler could seal the buffer, close the sink or flush again
  have hended := hs.ended
  cases h with
  | append => exact ⟨hended, (sealed_joined _ _).trans hs.unsealed, hs.closers, hs.lost⟩
  | @send n k =>
    have hflushed : State.flushed ((s.setPhase n .sending).note
        (.called (.offer n) k.offer.request)) = s.flushed := flushed_of_send rfl
    obtain ⟨items, filled, hflight, hlost⟩ := hs.lost
    exact ⟨hended, hs.unsealed, (closers_of_send rfl (isSend_request _)).trans hs.closers,
      items, filled, hflight, hflushed.trans hlost⟩
  | @directReturns n k fault =>
    have hreturned := returnedFlushes_other s (.offer n) fault (flush?_request k.offer)
    obtain ⟨items, filled, hflight, hlost⟩ := hs.lost
    exact ⟨hended, hs.unsealed, hs.closers, items, filled, hflight,
      hlost.trans (congrArg (· ++ [items]) hreturned.symm)⟩
  | shut free head turn | idle free head turn | defer free head turn | flush free head turn
  | unpark turn | wake turn | flushReturns turn | flushFails fault turn | flushCrashes turn
  | takeGate turn | closeReturns turn | closeFails fault turn | closeCrashes turn =>
    rw [hended] at turn
    cases turn
  | _ => exact ⟨hended, hs.unsealed, hs.closers, hs.lost⟩

omit [Number ν] in
theorem broken_reorder {s : State α ν} {line : List Waiter} (hs : Broken s) :
    Broken { s with line } :=
  ⟨hs.ended, hs.unsealed, hs.closers, hs.lost⟩

theorem broken_race {s t : State α ν} {as : List (Act α ν)} (hs : Broken s)
    (h : s.race? as = some t) : Broken t :=
  race_keeps broken_move (fun _ => broken_reorder) h hs

/-- An engine whose scheduler is at work goes on to be one, unless a flush crashes. -/
theorem intact_or_broken {s t : State α ν} {as : List (Act α ν)} (hs : Intact s)
    (h : s.race? as = some t) :
    (.event .flushCrashes ∉ as → Intact t) ∧ (.event .flushCrashes ∈ as → Broken t) := by
  refine race_induction
    (motive := fun s as t => Intact s →
      (.event .flushCrashes ∉ as → Intact t) ∧ (.event .flushCrashes ∈ as → Broken t))
    ?_ ?_ h hs
  · exact fun s hs => ⟨fun _ => hs, fun hmem => by cases hmem⟩
  · intro s u t a as hact hrest ih hs
    by_cases whole : a = .event .flushCrashes
    · subst whole
      have hbroken := broken_race (broken_of_crash (move_of_step hact) hs) hrest
      exact ⟨fun hout => absurd List.mem_cons_self hout, fun _ => hbroken⟩
    · have hu : Intact u := by
        cases a with
        | event e => exact intact_move (fun he => whole (he ▸ rfl)) (move_of_step hact) hs
        | reorder line =>
          obtain ⟨-, rfl⟩ := reorder_of_act hact
          exact ⟨hs.staged.same, hs.closers, hs.delivers, hs.returns⟩
      obtain ⟨hintact, hbroken⟩ := ih hu
      refine ⟨fun hout => hintact fun hmem => hout (List.mem_cons_of_mem _ hmem), ?_⟩
      intro hmem
      rcases List.mem_cons.mp hmem with heq | hmem
      · exact absurd heq.symm whole
      · exact hbroken hmem

/-! ## How an engine ends -/

/-- What these acts have brought an engine to, with nothing left to run. -/
structure EndsWith (as : List (Act α ν)) (t : State α ν) : Prop where
  /-- Offers, probes and the closing of the sink may have crashed. -/
  drained : .event .flushCrashes ∉ as →
    t.buffer.items = [] ∧ t.buffer.sealed = true ∧ t.closers = [.scheduler]
  /-- A flush that crashed was the last one, and the only one not to return.  The sink has not
  been closed, and what joined the buffer after that flush began is still there. -/
  stranded : .event .flushCrashes ∈ as →
    t.scheduler = .ended true ∧ t.buffer.sealed = false ∧ t.closers = [] ∧
      ∃ lost, lost ≠ [] ∧ t.inFlight? = some lost ∧ t.flushed = t.returnedFlushes ++ [lost] ∧
        t.appended.flatten = t.flushed.flatten ++ t.buffer.items

theorem endsWith_of_finished {settings : Settings ν} {sink : String} {now delay : Nat}
    {reply : ProbeReply ν} {s t : State α ν} {as : List (Act α ν)}
    (hs : State.spawn settings sink now delay reply = .ok s) (h : s.race? as = some t)
    (finished : t.Finished) : EndsWith as t := by
  obtain ⟨hintact, hbroken⟩ := intact_or_broken (intact_fresh (fresh_of_spawn hs)) h
  obtain ⟨crashed, hphase⟩ := ended_of_schedulerEnded finished.2.2
  constructor
  · intro whole
    have intact := hintact whole
    have hsealed : t.buffer.sealed = true := by
      rw [intact.staged.sealed, hphase]
      rfl
    have hclosers := intact.closers
    rw [hphase] at hclosers
    exact ⟨(intact.staged.drained hsealed).2, hsealed, hclosers⟩
  · intro crash
    have broken := hbroken crash
    obtain ⟨lost, filled, hflight, hflushed⟩ := broken.lost
    exact ⟨broken.ended, broken.unsealed, broken.closers, lost, filled, hflight, hflushed,
      (inOrder_of_raced (raced_of_race (.spawn hs) h)).symm⟩

instance [DecidableEq α] (s : State α ν) : Decidable s.Finished :=
  inferInstanceAs (Decidable (_ ∧ _ ∧ _))

/-- A flush of one item crashes, and another item joins the buffer before shutdown is
requested. -/
def crashedFlush : List (Act Nat Rat) :=
  List.map .event [.offer (.one 1), .enter 0, .acquire, .schedulerWakes, .schedulerWakes,
    .acquire, .flushCrashes, .offer (.one 2), .enter 1, .acquire, .close, .proberWakes]

theorem crashedFlush_strands_item :
    ∃ s t : State Nat Rat, State.spawn .standard "sink" 0 0 (.answer 50) = .ok s ∧
      s.race? crashedFlush = some t ∧ t.closing = true ∧ t.Finished ∧
      (t.outcome? 1).map Prod.snd = some .accepted ∧ t.buffer.items = [2] ∧
      t.closers = [] := by
  have hplay : (State.play? .standard "sink" 50 crashedFlush).map
      (fun t => decide (t.closing = true ∧ t.Finished ∧
        (t.outcome? 1).map Prod.snd = some .accepted ∧ t.buffer.items = [2] ∧
        t.closers = [])) = some true := by
    decide +kernel
  obtain ⟨t, ht, hfacts⟩ := Option.map_eq_some_iff.mp hplay
  obtain ⟨s, hs, hrun⟩ := spawn_of_play ht
  exact ⟨s, t, hs, hrun, of_decide_eq_true hfacts⟩

/-- A direct call, a probe and the closing of the sink crash. -/
def crashedRest : List (Act Nat Rat) :=
  List.map .event [.offer (.one 1), .enter 0, .directCrashes 0, .proberWakes, .probeCrashes,
    .close, .schedulerWakes, .acquire, .takeGate, .closeCrashes]

theorem endsWith_of_crashes :
    (∃ s t : State Nat Rat, State.spawn .standard "sink" 0 0 (.answer 0) = .ok s ∧
      s.race? crashedRest = some t ∧ t.Finished ∧ t.closers = [.scheduler] ∧
      EndsWith crashedRest t) ∧
    ∃ s t : State Nat Rat, State.spawn .standard "sink" 0 0 (.answer 50) = .ok s ∧
      s.race? crashedFlush = some t ∧ t.Finished ∧ t.closers = [] ∧
      EndsWith crashedFlush t := by
  constructor
  · have hplay : (State.play? .standard "sink" 0 crashedRest).map
        (fun t => decide (t.Finished ∧ t.closers = [.scheduler])) = some true := by
      decide +kernel
    obtain ⟨t, ht, hfacts⟩ := Option.map_eq_some_iff.mp hplay
    obtain ⟨s, hs, hrun⟩ := spawn_of_play ht
    obtain ⟨finished, hclosers⟩ := of_decide_eq_true hfacts
    exact ⟨s, t, hs, hrun, finished, hclosers, endsWith_of_finished hs hrun finished⟩
  · have hplay : (State.play? .standard "sink" 50 crashedFlush).map
        (fun t => decide (t.Finished ∧ t.closers = [])) = some true := by
      decide +kernel
    obtain ⟨t, ht, hfacts⟩ := Option.map_eq_some_iff.mp hplay
    obtain ⟨s, hs, hrun⟩ := spawn_of_play ht
    obtain ⟨finished, hclosers⟩ := of_decide_eq_true hfacts
    exact ⟨s, t, hs, hrun, finished, hclosers, endsWith_of_finished hs hrun finished⟩

end Engine
end AdaptiveBatch
