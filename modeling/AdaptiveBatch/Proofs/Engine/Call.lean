import AdaptiveBatch.Proofs.Engine.Phase
import AdaptiveBatch.Proofs.Engine.Story

/-!
# Calls of the sink

Who calls the sink, for what, and which calls are in progress.  An offer and the
scheduler each wait for their call to return, so a call in progress shows in the
phase of its caller and in the log alike.
-/

namespace AdaptiveBatch
namespace Engine

variable {α ν : Type}

/-- What each caller calls the sink for. -/
def Caller.Makes : Caller → Request α → Prop
  | .starter, r | .prober, r => r = .probe
  | .offer _, r => ∃ o : Offer α, r = o.request
  | .scheduler, r => r = .close ∨ ∃ xs, xs ≠ [] ∧ r = State.flushRequest xs

/-- The call that the scheduler waits for. -/
def SchedulerPhase.call? : SchedulerPhase α ν → Option (Request α)
  | .delivering items _ => some (State.flushRequest items)
  | .closing => some .close
  | .parked | .sleeping _ | .locking _ _ | .atGate | .ended _ => none

/-- The call that an offer waits for. -/
def Ticket.call? (k : Ticket α) : Option (Request α) :=
  if k.phase = .sending then some k.offer.request else none

theorem flush?_flushRequest (xs : List α) : (State.flushRequest xs).flush? = some xs := by
  unfold State.flushRequest
  split <;> rfl

theorem flush?_request (o : Offer α) : o.request.flush? = none := by
  cases o <;> rfl

theorem direct?_flushRequest (xs : List α) : (State.flushRequest xs).direct? = none := by
  unfold State.flushRequest
  split <;> rfl

theorem isSend_flushRequest (xs : List α) : (State.flushRequest xs).isSend = true := by
  unfold State.flushRequest
  split <;> rfl

theorem isSend_request (o : Offer α) : o.request.isSend = true := by
  cases o <;> rfl

theorem direct?_request (o : Offer α) : o.request.direct? = some o.items := by
  cases o <;> rfl

theorem flushed_beginFlush [Number ν] (s : State α ν) (e : Flush.Evaluation ν) (xs : List α) :
    (s.beginFlush e xs (State.flushRequest xs)).flushed = s.flushed ++ [xs] := by
  rw [State.beginFlush, flushed_of_called rfl, flush?_flushRequest]
  rfl

/-! ## Who calls -/

theorem makes_called {s t : State α ν} {c : Caller} {r : Request α}
    (h : t.begun = s.begun ++ [(c, r)]) (hs : ∀ p ∈ s.begun, p.1.Makes p.2)
    (makes : c.Makes r) : ∀ p ∈ t.begun, p.1.Makes p.2 := by
  intro p hp
  rw [h] at hp
  rcases List.mem_append.mp hp with hp | hp
  · exact hs p hp
  · rw [List.mem_singleton.mp hp]
    exact makes

section Makes

variable [Number ν]

theorem makes_fresh {s : State α ν} (h : Fresh s) : ∀ p ∈ s.begun, p.1.Makes p.2 := by
  obtain ⟨before, after, millis, hlog⟩ := h.log
  have hbegun : s.begun = [(.starter, .probe)] := by
    simp [State.begun, State.seen, hlog]
  intro p hp
  rw [hbegun, List.mem_singleton] at hp
  subst hp
  rfl

theorem makes_move {s t : State α ν} {e : Event α ν} (h : Move s e t)
    (hs : ∀ p ∈ s.begun, p.1.Makes p.2) : ∀ p ∈ t.begun, p.1.Makes p.2 := by
  cases h with
  | elapse | offerNothing | offer | measure | close | refuse | lineUp | bounce | append
  | measured | nobody | shut | idle | defer | directReturns | directCrashes | proberEnds
  | learn | probeFails | probeCrashes | unpark | wake | flushReturns | flushFails
  | flushCrashes | closeReturns | closeFails | closeCrashes => exact hs
  | send => exact makes_called List.reverse_cons hs ⟨_, rfl⟩
  | probe => exact makes_called List.reverse_cons hs rfl
  | flush free head turn filled =>
    exact makes_called List.reverse_cons hs (.inr ⟨_, filled, rfl⟩)
  | takeGate => exact makes_called List.reverse_cons hs (.inl rfl)

/-- Probes are made by those who learn from them, direct calls by offers and all other
calls by the scheduler, which never hands over an empty flush. -/
theorem makes_of_raced {s : State α ν} (hs : Raced s) : ∀ p ∈ s.begun, p.1.Makes p.2 :=
  of_raced (P := fun s => ∀ p ∈ s.begun, p.1.Makes p.2) makes_fresh (fun _ => makes_move)
    (fun _ hs => hs) hs

end Makes

/-! ## Calls in progress -/

theorem begun_of_openCall? {s : State α ν} {c : Caller} {r : Request α}
    (h : s.openCall? c = some r) : (c, r) ∈ s.begun := by
  rw [State.openCall?, Option.join_eq_some_iff] at h
  obtain ⟨e, he, hpick⟩ := mem_seen.mp (List.mem_of_getLast? h)
  refine mem_seen.mpr ⟨e, he, ?_⟩
  cases e with
  | called d q => simpa [Entry.progress?] using hpick
  | returned d q fault => simp [Entry.progress?] at hpick
  | _ => cases hpick

theorem openCall?_of_latest {s : State α ν} {c : Caller} {latest : Option (Request α)}
    {earlier : List (Option (Request α))}
    (h : s.log.filterMap (fun (_, e) => e.progress? c) = latest :: earlier) :
    s.openCall? c = latest := by
  rw [State.openCall?, State.seen, h, List.getLast?_reverse]
  rfl

theorem closers_of_send {t : State α ν} {now : Nat} {c : Caller} {r : Request α}
    {earlier : List (Nat × Entry α ν)} (h : t.log = (now, .called c r) :: earlier)
    (send : r.isSend = true) : t.closers = State.closers { t with log := earlier } := by
  refine seen_of_skipped h ?_
  cases r with
  | probe | close => cases send
  | _ => rfl

/-- Whether an offer has a call in progress can be told from its story. -/
theorem openCall?_of_story (s : State α ν) (n : Nat) :
    s.openCall? (.offer n) =
      ((s.story n).filterMap (Entry.progress? (.offer n))).getLast?.join := by
  rw [State.openCall?, seen_eq_story]
  intro e b he
  cases e with
  | called d r =>
    by_cases hd : d = .offer n
    · rw [hd]
      rfl
    · simp [Entry.progress?, hd] at he
  | returned d r fault =>
    by_cases hd : d = .offer n
    · rw [hd]
      rfl
    · simp [Entry.progress?, hd] at he
  | _ => cases he

variable [Number ν]

theorem call?_nextWait (s : State α ν) : s.nextWait.call? = none := by
  rcases nextWait_cases s with ⟨_, hnext⟩ | ⟨_, hnext | ⟨wait, hnext⟩⟩ <;> rw [hnext] <;> rfl

theorem delivering_ne_nextWait (s : State α ν) {items : List α} {reason : Flush.Reason} :
    s.nextWait ≠ .delivering items reason := by
  intro hdelivering
  have hcall := call?_nextWait s
  rw [hdelivering] at hcall
  cases hcall

/-- A flush that is in progress goes on, or has just begun with all that was buffered. -/
theorem delivering_move {s t : State α ν} {e : Event α ν} (h : Move s e t) {items : List α}
    {reason : Flush.Reason} (delivering : t.scheduler = .delivering items reason) :
    (s.scheduler = .delivering items reason ∧ t.buffer = s.buffer ∧
        t.openCall? .scheduler = s.openCall? .scheduler) ∨
      ∃ wait draining rest, (s.evaluation wait draining).shouldFlush = true ∧
        t = { s with line := rest }.beginFlush (s.evaluation wait draining) s.buffer.items
          (State.flushRequest s.buffer.items) := by
  cases h with
  | append free =>
    -- whoever appends has the lock, which the scheduler keeps while it delivers
    have held : s.lockHeld = true := lockHeld_of_delivering delivering
    rw [held] at free
    cases free
  | @flush wait draining rest free head turn filled decision =>
    exact .inr ⟨wait, draining, rest, decision, rfl⟩
  | idle | defer | unpark | flushReturns | flushFails =>
    exact absurd delivering (delivering_ne_nextWait _)
  | shut | wake | flushCrashes | takeGate | closeReturns | closeFails | closeCrashes =>
    cases delivering
  | _ => exact .inl ⟨delivering, rfl, rfl⟩

theorem scheduler_call_move {s t : State α ν} {e : Event α ν} (calm : e.crashes = false)
    (h : Move s e t) (hs : s.openCall? .scheduler = s.scheduler.call?) :
    t.openCall? .scheduler = t.scheduler.call? := by
  cases h with
  | elapse | offerNothing | offer | measure | close | refuse | lineUp | bounce | append
  | measured | nobody | directReturns | proberEnds | learn | probeFails | send | probe =>
    exact hs
  | shut free head turn | wake turn =>
    rw [turn] at hs
    exact hs
  | idle free head turn | defer free head turn | unpark turn =>
    rw [turn] at hs
    exact hs.trans (call?_nextWait _).symm
  | flush | takeGate => exact openCall?_of_latest rfl
  | flushReturns | flushFails =>
    exact (openCall?_of_latest rfl).trans (call?_nextWait _).symm
  | closeReturns | closeFails => exact openCall?_of_latest rfl
  | directCrashes | probeCrashes | flushCrashes | closeCrashes => cases calm

/-- The scheduler's call in progress is the one that it waits for. -/
theorem openCall?_scheduler {s : State α ν} (hs : Steady s) :
    s.openCall? .scheduler = s.scheduler.call? := by
  refine of_steady (P := fun s => s.openCall? .scheduler = s.scheduler.call?) ?_
    (fun _ => scheduler_call_move) (fun _ hs => hs) hs
  intro s h
  rw [h.scheduler, State.openCall?, seen_fresh h rfl fun _ => rfl]
  rfl

/-- The offers whose sink call has brought them down. -/
def State.crashed (s : State α ν) : List Nat :=
  s.seen fun
    | .answered n .crashed => some n
    | _ => none

theorem crashed_fresh {s : State α ν} (h : Fresh s) : s.crashed = [] :=
  seen_fresh h rfl fun _ => rfl

theorem crashed_move {s t : State α ν} {e : Event α ν} (calm : e.crashes = false)
    (h : Move s e t) (hs : s.crashed = []) : t.crashed = [] := by
  cases h with
  | directReturns fault => cases fault <;> exact hs
  | directCrashes => cases calm
  | _ => exact hs

theorem crashed_of_steady {s : State α ν} (hs : Steady s) : s.crashed = [] :=
  of_steady (P := fun s => s.crashed = []) crashed_fresh (fun _ => crashed_move)
    (fun _ hs => hs) hs

/-- The call that an offer has in progress is the one that it waits for. -/
theorem openCall?_offer {s : State α ν} (hs : Steady s) (n : Nat) :
    s.openCall? (.offer n) = (s.ticket? n).bind Ticket.call? := by
  have told := told_of_raced hs.raced
  rw [openCall?_of_story]
  cases found : s.ticket? n with
  | some k =>
    have hn := ticket?_number found
    rw [told.present found]
    cases phase : k.phase <;> simp [Ticket.tale, Ticket.call?, phase, Entry.progress?, hn]
  | none =>
    rcases told.past found with hstory | ⟨o, ended⟩
    · rw [hstory]
      rfl
    · generalize hstory : s.story n = es at ended
      cases ended with
      | nothing | refused | joined => rfl
      | sent =>
        simp only [List.filterMap_cons, List.filterMap_nil, Entry.progress?, if_true]
        rfl
      | crashed =>
        have hmem : .answered n .crashed ∈ s.story n := by simp [hstory]
        have hcrashed : n ∈ s.crashed := mem_seen.mpr ⟨_, (mem_story.mp hmem).1, rfl⟩
        rw [crashed_of_steady hs] at hcrashed
        cases hcrashed

/-- Every send in progress is that of an offer or of a flush, and its caller waits for
it. -/
theorem waits_of_openCall? {s : State α ν} (hs : Steady s) {c : Caller} {r : Request α}
    (h : s.openCall? c = some r) (send : r.isSend = true) :
    (∃ n k, c = .offer n ∧ s.ticket? n = some k ∧ k.phase = .sending) ∨
      (c = .scheduler ∧ ∃ items reason, s.scheduler = .delivering items reason) := by
  have hmakes := makes_of_raced hs.raced _ (begun_of_openCall? h)
  cases c with
  | starter | prober =>
    obtain rfl : r = .probe := hmakes
    cases send
  | offer n =>
    rw [openCall?_offer hs] at h
    obtain ⟨k, found, hcall⟩ := Option.bind_eq_some_iff.mp h
    refine .inl ⟨n, k, rfl, found, ?_⟩
    by_cases phase : k.phase = .sending
    · exact phase
    · simp [Ticket.call?, phase] at hcall
  | scheduler =>
    rw [openCall?_scheduler hs] at h
    refine .inr ⟨rfl, ?_⟩
    cases hphase : s.scheduler with
    | delivering items reason => exact ⟨items, reason, rfl⟩
    | closing =>
      rw [hphase] at h
      obtain rfl := Option.some.inj h
      cases send
    | _ =>
      rw [hphase] at h
      cases h

/-! ## Closing the sink -/

theorem isAlone_nextWait (s : State α ν) : s.nextWait.isAlone = false := by
  rcases nextWait_cases s with ⟨_, hnext⟩ | ⟨_, hnext | ⟨wait, hnext⟩⟩ <;> rw [hnext] <;> rfl

theorem closers_move {s t : State α ν} {e : Event α ν} (calm : e.crashes = false)
    (h : Move s e t)
    (hs : s.closers = if s.scheduler.isAlone then [.scheduler] else []) :
    t.closers = if t.scheduler.isAlone then [.scheduler] else [] := by
  cases h with
  | elapse | offerNothing | offer | measure | close | refuse | lineUp | bounce | append
  | measured | nobody | directReturns | proberEnds | learn | probeFails | probe => exact hs
  | send => exact (closers_of_send rfl (isSend_request _)).trans hs
  | @flush wait draining rest free head turn =>
    rw [turn] at hs
    have hflush := closers_of_send
      (t := State.beginFlush { s with line := rest } (s.evaluation wait draining)
        s.buffer.items (State.flushRequest s.buffer.items))
      rfl (isSend_flushRequest _)
    exact hflush.trans hs
  | shut free head turn | wake turn =>
    rw [turn] at hs
    exact hs
  | idle free head turn | defer free head turn | unpark turn | flushReturns turn
  | flushFails fault turn =>
    rw [turn] at hs
    refine hs.trans ?_
    show [] = if (State.nextWait _).isAlone then [Caller.scheduler] else []
    rw [isAlone_nextWait]
    rfl
  | takeGate turn =>
    rw [turn] at hs
    exact List.reverse_cons.trans (congrArg (· ++ [Caller.scheduler]) hs)
  | closeReturns turn | closeFails fault turn =>
    rw [turn] at hs
    exact hs
  | directCrashes | probeCrashes | flushCrashes | closeCrashes => cases calm

/-- The scheduler, and nobody else, calls the sink to close it, once it has the gate to
itself. -/
theorem closers_of_steady {s : State α ν} (hs : Steady s) :
    s.closers = if s.scheduler.isAlone then [.scheduler] else [] := by
  refine of_steady
    (P := fun s => s.closers = if s.scheduler.isAlone then [.scheduler] else []) ?_
    (fun _ => closers_move) (fun _ hs => hs) hs
  intro s h
  rw [h.scheduler]
  exact seen_fresh h rfl fun _ => rfl

end Engine
end AdaptiveBatch
