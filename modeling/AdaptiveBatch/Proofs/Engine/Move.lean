import AdaptiveBatch.Engine.Spawn

/-!
# The moves of an engine

`Move` says once all that a step can do: one constructor for each way through
`step?`, with what held before it and the state that it leaves.  `move_of_step` and its
converse are the only proofs that open `step?`.  What a step keeps is shown by cases on the
move, and a move that leaves alone what an invariant speaks about leaves the
invariant as it is, by definition.
-/

namespace AdaptiveBatch
namespace Engine

variable {α ν : Type}

/-! ## Tickets

An offer is looked up by its number.  Changing the phase of one, ending one and
adding one are changes of that lookup, and later proofs use no more of the list. -/

theorem ticket?_number {s : State α ν} {n : Nat} {k : Ticket α}
    (h : s.ticket? n = some k) : k.number = n := by
  simpa using List.find?_some h

theorem ticket?_mem {s : State α ν} {n : Nat} {k : Ticket α}
    (h : s.ticket? n = some k) : k ∈ s.offers :=
  List.mem_of_find?_eq_some h

theorem ticket?_setPhase (s : State α ν) (n m : Nat) (p : OfferPhase) :
    (s.setPhase n p).ticket? m =
      (s.ticket? m).map fun k => if m = n then { k with phase := p } else k := by
  simp only [State.ticket?, State.setPhase]
  induction s.offers with
  | nil => rfl
  | cons k rest ih =>
    have hnumber : (if k.number = n then { k with phase := p } else k).number = k.number := by
      split <;> rfl
    rw [List.map_cons, List.find?_cons, List.find?_cons, hnumber]
    by_cases hm : k.number = m
    · subst hm
      simp
    · simpa [hm] using ih

theorem ticket?_answer (s : State α ν) (n m : Nat) (o : Outcome ν) :
    (s.answer n o).ticket? m = if m = n then none else s.ticket? m := by
  simp only [State.ticket?, State.answer, State.note]
  rw [List.find?_filter]
  by_cases hm : m = n
  · subst hm
    simp
  · rw [if_neg hm]
    congr 1
    funext k
    by_cases hk : k.number = m
    · have hn : k.number ≠ n := fun e => hm (hk.symm.trans e)
      simp [hk, hm]
    · simp [hk]

/-- An offer that has just come is found under its number, which nobody had. -/
theorem ticket?_append (s : State α ν) (k : Ticket α) (m : Nat)
    (fresh : s.ticket? k.number = none) :
    (s.offers ++ [k]).find? (·.number = m) =
      if m = k.number then some k else s.ticket? m := by
  rw [List.find?_append]
  by_cases hm : m = k.number
  · subst hm
    have hnone : s.offers.find? (·.number = k.number) = none := fresh
    simp [hnone]
  · have hne : ¬ k.number = m := fun e => hm e.symm
    simp [hm, hne, State.ticket?]

/-! ## Moves -/

variable [Number ν]

/-- What a step can do. -/
inductive Move (s : State α ν) : Event α ν → State α ν → Prop
  | elapse (ms : Nat) : Move s (.elapse ms) { s with now := s.now + ms }
  | offerNothing {o : Offer α} (empty : o.items = []) :
      Move s (.offer o)
        (({ s with nextNumber := s.nextNumber + 1 }.note (.offered s.nextNumber o)).note
          (.answered s.nextNumber .accepted))
  | offer {o : Offer α} (filled : o.items ≠ []) :
      Move s (.offer o)
        (State.note { s with
            offers := s.offers ++ [{ number := s.nextNumber, offer := o, phase := .atGate }]
            nextNumber := s.nextNumber + 1 } (.offered s.nextNumber o))
  | measure :
      Move s .measure
        ({ s with nextNumber := s.nextNumber + 1 }.enqueue (.observer s.nextNumber))
  | close : Move s .close { s with closing := true }
  /-- An offer finds the engine closing at the gate. -/
  | refuse {n : Nat} {k : Ticket α} (found : s.ticket? n = some k)
      (phase : k.phase = .atGate) (opened : s.gateOpen = true) (closing : s.closing = true) :
      Move s (.enter n) (s.answer n (.refused (.closed s.settings.name)))
  | lineUp {n : Nat} {k : Ticket α} (found : s.ticket? n = some k)
      (phase : k.phase = .atGate) (opened : s.gateOpen = true) (running : s.closing = false)
      (packing : s.model.packing = true) :
      Move s (.enter n) ((s.setPhase n .atLock).enqueue (.offer n))
  | send {n : Nat} {k : Ticket α} (found : s.ticket? n = some k)
      (phase : k.phase = .atGate) (opened : s.gateOpen = true) (running : s.closing = false)
      (direct : s.model.packing = false) :
      Move s (.enter n) ((s.setPhase n .sending).note (.called (.offer n) k.offer.request))
  /-- An offer finds the buffer sealed. -/
  | bounce {n : Nat} {k : Ticket α} {rest : List Waiter} (free : s.lockHeld = false)
      (head : s.line = .offer n :: rest) (found : s.ticket? n = some k)
      (sealed : s.buffer.sealed = true) :
      Move s .acquire
        ({ s with line := rest }.answer n (.refused (.closed s.settings.name)))
  | append {n : Nat} {k : Ticket α} {rest : List Waiter} (free : s.lockHeld = false)
      (head : s.line = .offer n :: rest) (found : s.ticket? n = some k)
      (unsealed : s.buffer.sealed = false) :
      Move s .acquire
        (({ s with
            line := rest
            buffer := State.joined s.buffer k.offer
            counters := s.counters.buffered k.offer.items.length
          }.note (.appended n k.offer.items)).answer n .accepted)
  | measured {n : Nat} {rest : List Waiter} (free : s.lockHeld = false)
      (head : s.line = .observer n :: rest) :
      Move s .acquire ({ s with line := rest }.note (.measured n s.buffer.size))
  /-- Somebody in line whose task is not there for it.  It happens in no run. -/
  | nobody {w : Waiter} {rest : List Waiter} (free : s.lockHeld = false)
      (head : s.line = w :: rest)
      (gone : (∃ n, w = .offer n ∧ s.ticket? n = none) ∨
        (w = .scheduler ∧ ∀ wait draining, s.scheduler ≠ .locking wait draining)) :
      Move s .acquire { s with line := rest }
  | shut {wait : ν} {rest : List Waiter} (free : s.lockHeld = false)
      (head : s.line = .scheduler :: rest) (turn : s.scheduler = .locking wait true)
      (empty : s.buffer.items = []) :
      Move s .acquire
        { s with line := rest, buffer := s.buffer.shut, scheduler := .atGate }
  | idle {wait : ν} {rest : List Waiter} (free : s.lockHeld = false)
      (head : s.line = .scheduler :: rest) (turn : s.scheduler = .locking wait false)
      (empty : s.buffer.items = []) :
      Move s .acquire ({ s with line := rest }.note .idle).proceed
  | defer {wait : ν} {draining : Bool} {rest : List Waiter} (free : s.lockHeld = false)
      (head : s.line = .scheduler :: rest) (turn : s.scheduler = .locking wait draining)
      (filled : s.buffer.items ≠ [])
      (decision : (s.evaluation wait draining).shouldFlush = false) :
      Move s .acquire ({ s with line := rest }.defer (s.evaluation wait draining)).proceed
  | flush {wait : ν} {draining : Bool} {rest : List Waiter} (free : s.lockHeld = false)
      (head : s.line = .scheduler :: rest) (turn : s.scheduler = .locking wait draining)
      (filled : s.buffer.items ≠ [])
      (decision : (s.evaluation wait draining).shouldFlush = true) :
      Move s .acquire
        ({ s with line := rest }.beginFlush (s.evaluation wait draining) s.buffer.items
          (State.flushRequest s.buffer.items))
  | directReturns {n : Nat} {k : Ticket α} (fault : Option Fault)
      (found : s.ticket? n = some k) (phase : k.phase = .sending) :
      Move s (.directReturns n fault)
        (({ s with
            counters := s.counters.direct k.offer.items.length
            recorder :=
              s.recorder.directSend s.settings.name k.offer.items.length fault.isNone
          }.note (.returned (.offer n) k.offer.request fault)).answer n (.ofSend fault))
  | directCrashes {n : Nat} {k : Ticket α} (found : s.ticket? n = some k)
      (phase : k.phase = .sending) : Move s (.directCrashes n) (s.answer n .crashed)
  | proberEnds (asleep : s.prober = .sleeping) (closing : s.closing = true) :
      Move s .proberWakes { s with prober := .ended false }
  | probe (asleep : s.prober = .sleeping) (running : s.closing = false) :
      Move s .proberWakes ({ s with prober := .probing }.note (.called .prober .probe))
  | learn {reply : ProbeReply ν} {millis : ν} (probing : s.prober = .probing)
      (counts : judgeProbe s.sink s.settings.probeTimeout reply = .ok millis) :
      Move s (.probeReturns reply) (s.learn millis).proceedProber
  | probeFails {reply : ProbeReply ν} {error : EngineError ν} (probing : s.prober = .probing)
      (fails : judgeProbe s.sink s.settings.probeTimeout reply = .error error) :
      Move s (.probeReturns reply) (s.reportFailure .probe 0 error).proceedProber
  | probeCrashes (probing : s.prober = .probing) :
      Move s .probeCrashes { s with prober := .ended true }
  | unpark (parked : s.scheduler = .parked)
      (reason : s.closing = true ∨ s.model.packing = true) :
      Move s .schedulerWakes s.proceed
  | wake {wait : ν} (asleep : s.scheduler = .sleeping wait) :
      Move s .schedulerWakes
        ({ s with scheduler := .locking wait s.closing }.enqueue .scheduler)
  | flushReturns {items : List α} {reason : Flush.Reason}
      (delivering : s.scheduler = .delivering items reason) :
      Move s (.flushReturns none)
        ({ s with
            counters := s.counters.flushed items.length
            recorder := s.recorder.flush s.settings.name items.length reason.name true
          }.note (.returned .scheduler (State.flushRequest items) none)).proceed
  | flushFails {items : List α} {reason : Flush.Reason} (fault : Fault)
      (delivering : s.scheduler = .delivering items reason) :
      Move s (.flushReturns (some fault))
        (({ s with
            counters := s.counters.flushed items.length
            recorder := s.recorder.flush s.settings.name items.length reason.name false
          }.note (.returned .scheduler (State.flushRequest items) (some fault))).reportFailure
            .flush items.length (.sink fault)).proceed
  | flushCrashes {items : List α} {reason : Flush.Reason}
      (delivering : s.scheduler = .delivering items reason) :
      Move s .flushCrashes { s with scheduler := .ended true }
  | takeGate (waits : s.scheduler = .atGate) (still : s.sending = false) :
      Move s .takeGate ({ s with scheduler := .closing }.note (.called .scheduler .close))
  | closeReturns (closing : s.scheduler = .closing) :
      Move s (.closeReturns none)
        ({ s with scheduler := .ended false }.note (.returned .scheduler .close none))
  | closeFails (fault : Fault) (closing : s.scheduler = .closing) :
      Move s (.closeReturns (some fault))
        (({ s with scheduler := .ended false }.note
          (.returned .scheduler .close (some fault))).reportFailure .close 0 (.sink fault))
  | closeCrashes (closing : s.scheduler = .closing) :
      Move s .closeCrashes { s with scheduler := .ended true }

/-- A tick with a full buffer hands over all of it, in the call that its size asks
for. -/
theorem tick_of_filled {s : State α ν} {wait : ν} {draining : Bool}
    (filled : s.buffer.items ≠ []) :
    s.tick wait draining =
      if (s.evaluation wait draining).shouldFlush then
        s.beginFlush (s.evaluation wait draining) s.buffer.items
          (State.flushRequest s.buffer.items)
      else (s.defer (s.evaluation wait draining)).proceed := by
  unfold State.tick
  cases hitems : s.buffer.items with
  | nil => exact absurd hitems filled
  | cons x rest => cases rest <;> rfl

theorem serve_offer {s : State α ν} {n : Nat} {k : Ticket α} (found : s.ticket? n = some k) :
    s.serve (.offer n) = s.append n k.offer := by
  simp only [State.serve, found]

theorem serve_offer_gone {s : State α ν} {n : Nat} (gone : s.ticket? n = none) :
    s.serve (.offer n) = s := by
  simp only [State.serve, gone]

theorem serve_scheduler {s : State α ν} {wait : ν} {draining : Bool}
    (turn : s.scheduler = .locking wait draining) :
    s.serve .scheduler = s.tick wait draining := by
  simp only [State.serve, turn]

theorem serve_scheduler_gone {s : State α ν}
    (gone : ∀ wait draining, s.scheduler ≠ .locking wait draining) :
    s.serve .scheduler = s := by
  simp only [State.serve]

theorem move_of_enter {s t : State α ν} {n : Nat} (h : s.step? (.enter n) = some t) :
    Move s (.enter n) t := by
  simp only [State.step?] at h
  split at h
  · rename_i k found
    split at h
    · rename_i ready
      have hnumber := ticket?_number found
      cases hclosing : s.closing with
      | true =>
        have ht : s.answer n (.refused (.closed s.settings.name)) = t := by
          simpa [State.pass, hclosing, hnumber] using h
        exact ht ▸ .refuse found ready.1 ready.2 hclosing
      | false =>
        cases hpacking : s.model.packing with
        | true =>
          have ht : (s.setPhase n .atLock).enqueue (.offer n) = t := by
            simpa [State.pass, hclosing, hpacking, hnumber] using h
          exact ht ▸ .lineUp found ready.1 ready.2 hclosing hpacking
        | false =>
          have ht : (s.setPhase n .sending).note (.called (.offer n) k.offer.request) = t := by
            simpa [State.pass, hclosing, hpacking, hnumber] using h
          exact ht ▸ .send found ready.1 ready.2 hclosing hpacking
    · cases h
  · cases h

theorem move_of_tick {s : State α ν} {wait : ν} {draining : Bool} {rest : List Waiter}
    (free : s.lockHeld = false) (head : s.line = .scheduler :: rest)
    (turn : s.scheduler = .locking wait draining) :
    Move s .acquire (State.tick { s with line := rest } wait draining) := by
  by_cases empty : s.buffer.items = []
  · cases draining with
    | true =>
      have hmove := Move.shut free head turn empty
      simpa [State.tick, empty] using hmove
    | false =>
      have hmove := Move.idle free head turn empty
      simpa [State.tick, empty] using hmove
  · rw [tick_of_filled (s := { s with line := rest }) empty]
    have same : State.evaluation { s with line := rest } wait draining =
        s.evaluation wait draining := rfl
    rw [same]
    cases decision : (s.evaluation wait draining).shouldFlush with
    | true =>
      rw [if_pos rfl]
      exact .flush free head turn empty decision
    | false =>
      rw [if_neg Bool.false_ne_true]
      exact .defer free head turn empty decision

theorem move_of_acquire {s t : State α ν} (h : s.step? .acquire = some t) :
    Move s .acquire t := by
  simp only [State.step?] at h
  split at h
  · cases h
  · rename_i held
    have free : s.lockHeld = false := by simpa using held
    cases head : s.line with
    | nil => simp [head] at h
    | cons w rest =>
      have ht : { s with line := rest }.serve w = t := by simpa [head] using h
      clear h
      subst ht
      cases w with
      | observer n => exact .measured free head
      | offer n =>
        cases found : s.ticket? n with
        | none =>
          rw [serve_offer_gone (s := { s with line := rest }) found]
          exact .nobody free head (.inl ⟨n, rfl, found⟩)
        | some k =>
          rw [serve_offer (s := { s with line := rest }) found]
          cases hsealed : s.buffer.sealed with
          | true =>
            have hmove := Move.bounce free head found hsealed
            simpa [State.append, hsealed] using hmove
          | false =>
            have hmove := Move.append free head found hsealed
            simpa [State.append, hsealed] using hmove
      | scheduler =>
        by_cases turn : ∃ wait draining, s.scheduler = .locking wait draining
        · obtain ⟨wait, draining, turn⟩ := turn
          rw [serve_scheduler (s := { s with line := rest }) turn]
          exact move_of_tick free head turn
        · have gone : ∀ wait draining, s.scheduler ≠ .locking wait draining :=
            fun wait draining e => turn ⟨wait, draining, e⟩
          rw [serve_scheduler_gone (s := { s with line := rest }) gone]
          exact .nobody free head (.inr ⟨rfl, gone⟩)

theorem move_of_direct {s t : State α ν} {n : Nat} {fault : Option Fault}
    (h : s.step? (.directReturns n fault) = some t) : Move s (.directReturns n fault) t := by
  simp only [State.step?] at h
  split at h
  · rename_i k found
    split at h
    · rename_i phase
      have hmove := Move.directReturns fault found phase
      have ht : s.finishDirect k fault = t := by simpa using h
      rw [← ht]
      simpa [State.finishDirect, ticket?_number found] using hmove
    · cases h
  · cases h

theorem move_of_probe {s t : State α ν} {reply : ProbeReply ν}
    (h : s.step? (.probeReturns reply) = some t) : Move s (.probeReturns reply) t := by
  simp only [State.step?] at h
  split at h
  · rename_i probing
    split at h
    · cases h
    · cases verdict : judgeProbe s.sink s.settings.probeTimeout reply with
      | ok millis =>
        have ht : (s.learn millis).proceedProber = t := by simpa [verdict] using h
        exact ht ▸ .learn probing verdict
      | error error =>
        have ht : (s.reportFailure .probe 0 error).proceedProber = t := by
          simpa [verdict] using h
        exact ht ▸ .probeFails probing verdict
  · cases h

theorem move_of_flush {s t : State α ν} {fault : Option Fault}
    (h : s.step? (.flushReturns fault) = some t) : Move s (.flushReturns fault) t := by
  simp only [State.step?] at h
  split at h
  · rename_i items reason delivering
    have ht : s.finishFlush items reason fault = t := by simpa using h
    rw [← ht]
    cases fault with
    | none => exact .flushReturns delivering
    | some fault => exact .flushFails fault delivering
  · cases h

theorem move_of_close {s t : State α ν} {fault : Option Fault}
    (h : s.step? (.closeReturns fault) = some t) : Move s (.closeReturns fault) t := by
  simp only [State.step?] at h
  split at h
  · rename_i closing
    cases fault with
    | none => exact Option.some.inj h ▸ .closeReturns closing
    | some fault => exact Option.some.inj h ▸ .closeFails fault closing
  · cases h

/-- Every step is a move. -/
theorem move_of_step {s t : State α ν} {e : Event α ν} (h : s.step? e = some t) :
    Move s e t := by
  cases e with
  | elapse ms => exact Option.some.inj h ▸ .elapse ms
  | offer o =>
    have ht : s.arrive o = t := Option.some.inj h
    by_cases empty : o.items = []
    · have hmove := Move.offerNothing (s := s) empty
      rw [← ht]
      simpa [State.arrive, empty] using hmove
    · have hmove := Move.offer (s := s) empty
      rw [← ht]
      simpa [State.arrive, State.note, empty] using hmove
  | measure => exact Option.some.inj h ▸ .measure
  | close => exact Option.some.inj h ▸ .close
  | enter n => exact move_of_enter h
  | acquire => exact move_of_acquire h
  | directReturns n fault => exact move_of_direct h
  | directCrashes n =>
    simp only [State.step?] at h
    split at h
    · rename_i k found
      split at h
      · rename_i phase
        exact Option.some.inj h ▸ .directCrashes found phase
      · cases h
    · cases h
  | proberWakes =>
    simp only [State.step?] at h
    split at h
    · rename_i asleep
      cases hclosing : s.closing with
      | true =>
        have ht : { s with prober := .ended false } = t := by simpa [hclosing] using h
        exact ht ▸ .proberEnds asleep hclosing
      | false =>
        have ht : State.note { s with prober := .probing } (.called .prober .probe) = t := by
          simpa [hclosing] using h
        exact ht ▸ .probe asleep hclosing
    · cases h
  | probeReturns reply => exact move_of_probe h
  | probeCrashes =>
    simp only [State.step?] at h
    split at h
    · rename_i probing
      exact Option.some.inj h ▸ .probeCrashes probing
    · cases h
  | schedulerWakes =>
    simp only [State.step?] at h
    split at h
    · rename_i parked
      split at h
      · rename_i reason
        have reason' : s.closing = true ∨ s.model.packing = true := by simpa using reason
        exact Option.some.inj h ▸ .unpark parked reason'
      · cases h
    · rename_i wait asleep
      exact Option.some.inj h ▸ .wake asleep
    · cases h
  | flushReturns fault => exact move_of_flush h
  | flushCrashes =>
    simp only [State.step?] at h
    split at h
    · rename_i delivering
      exact Option.some.inj h ▸ .flushCrashes delivering
    · cases h
  | takeGate =>
    simp only [State.step?] at h
    split at h
    · rename_i waits
      split at h
      · cases h
      · rename_i still
        have still' : s.sending = false := by simpa using still
        exact Option.some.inj h ▸ .takeGate waits still'
    · cases h
  | closeReturns fault => exact move_of_close h
  | closeCrashes =>
    simp only [State.step?] at h
    split at h
    · rename_i closing
      exact Option.some.inj h ▸ .closeCrashes closing
    · cases h

/-- Whether an engine with these settings waits for an event: a probe that may take for
ever is not late. -/
def Event.inTime (settings : Settings ν) : Event α ν → Bool
  | .probeReturns reply => !(reply.isLate && settings.probeTimeout.isNone)
  | _ => true

theorem inTime_of_step {s t : State α ν} {e : Event α ν} (h : s.step? e = some t) :
    e.inTime s.settings = true := by
  cases e with
  | probeReturns reply =>
    simp only [State.step?] at h
    split at h
    · split at h
      · cases h
      · rename_i timely
        rw [Event.inTime, Bool.eq_false_iff.mpr timely]
        rfl
    · cases h
  | _ => rfl

theorem step?_of_turn {s : State α ν} {wait : ν} {draining : Bool} {rest : List Waiter}
    (free : s.lockHeld = false) (head : s.line = .scheduler :: rest)
    (turn : s.scheduler = .locking wait draining) :
    s.step? .acquire = some (State.tick { s with line := rest } wait draining) := by
  have hserve := serve_scheduler (s := { s with line := rest }) turn
  simp [State.step?, free, head, hserve]

/-- Every move of an event that is waited for is a step. -/
theorem step_of_move {s t : State α ν} {e : Event α ν} (h : Move s e t)
    (timely : e.inTime s.settings = true) : s.step? e = some t := by
  cases h with
  | elapse | measure | close => rfl
  | offerNothing empty => simp [State.step?, State.arrive, empty]
  | offer filled => simp [State.step?, State.arrive, State.note, filled]
  | refuse found phase opened closing =>
    simp [State.step?, State.pass, found, phase, opened, closing, ticket?_number found]
  | lineUp found phase opened running packing =>
    simp [State.step?, State.pass, found, phase, opened, running, packing, ticket?_number found]
  | send found phase opened running direct =>
    simp [State.step?, State.pass, found, phase, opened, running, direct, ticket?_number found]
  | @bounce n k rest free head found sealed =>
    have hserve := serve_offer (s := { s with line := rest }) found
    simp [State.step?, free, head, hserve, State.append, sealed]
  | @append n k rest free head found unsealed =>
    have hserve := serve_offer (s := { s with line := rest }) found
    simp [State.step?, free, head, hserve, State.append, unsealed]
  | measured free head =>
    simp [State.step?, free, head, State.serve]
  | @nobody w rest free head gone =>
    rcases gone with ⟨n, rfl, gone⟩ | ⟨rfl, gone⟩
    · simp [State.step?, free, head, serve_offer_gone (s := { s with line := rest }) gone]
    · simp [State.step?, free, head, serve_scheduler_gone (s := { s with line := rest }) gone]
  | shut free head turn empty | idle free head turn empty =>
    rw [step?_of_turn free head turn]
    simp [State.tick, empty]
  | @defer wait draining rest free head turn filled decision =>
    rw [step?_of_turn free head turn, tick_of_filled (s := { s with line := rest }) filled]
    exact congrArg some (if_neg (Bool.eq_false_iff.mp decision))
  | @flush wait draining rest free head turn filled decision =>
    rw [step?_of_turn free head turn, tick_of_filled (s := { s with line := rest }) filled]
    exact congrArg some (if_pos decision)
  | directReturns fault found phase =>
    simp [State.step?, State.finishDirect, found, phase, ticket?_number found]
  | directCrashes found phase => simp [State.step?, found, phase]
  | proberEnds asleep closing => simp [State.step?, asleep, closing]
  | probe asleep running => simp [State.step?, asleep, running]
  | @learn reply millis probing counts =>
    have hlate : (reply.isLate && s.settings.probeTimeout.isNone) = false :=
      (Bool.not_eq_true' _).mp timely
    simp only [State.step?, probing, hlate, counts, if_neg Bool.false_ne_true]
  | @probeFails reply error probing fails =>
    have hlate : (reply.isLate && s.settings.probeTimeout.isNone) = false :=
      (Bool.not_eq_true' _).mp timely
    simp only [State.step?, probing, hlate, fails, if_neg Bool.false_ne_true]
  | probeCrashes probing => simp [State.step?, probing]
  | unpark parked reason =>
    simp [State.step?, parked, reason]
  | wake asleep => simp [State.step?, asleep]
  | flushReturns delivering => simp [State.step?, delivering, State.finishFlush]
  | flushFails fault delivering => simp [State.step?, delivering, State.finishFlush]
  | flushCrashes delivering => simp [State.step?, delivering]
  | takeGate waits still => simp [State.step?, waits, still]
  | closeReturns closing => simp [State.step?, closing]
  | closeFails fault closing => simp [State.step?, closing]
  | closeCrashes closing => simp [State.step?, closing]

theorem sealed_joined (b : Flush.Buffer α ν) (o : Offer α) :
    (State.joined b o).sealed = b.sealed := by
  cases o <;> rfl

/-! ## The scheduler's next wait -/

omit [Number ν] in
theorem lockHeld_of_delivering {s : State α ν} {items : List α} {reason : Flush.Reason}
    (delivering : s.scheduler = .delivering items reason) : s.lockHeld = true := by
  rw [State.lockHeld, delivering]

theorem shouldFlush_of_draining (s : State α ν) (wait : ν) :
    (s.evaluation wait true).shouldFlush = true := by
  simp [State.evaluation, Flush.evaluate, Flush.Evaluation.shouldFlush, Flush.Reasons.any]

theorem nextWait_cases (s : State α ν) :
    (s.closing = true ∧ s.nextWait = .locking (Number.ofCount 0) true) ∨
      (s.closing = false ∧ (s.nextWait = .parked ∨ ∃ wait, s.nextWait = .sleeping wait)) := by
  unfold State.nextWait
  cases s.closing with
  | true => exact .inl ⟨rfl, rfl⟩
  | false =>
    refine .inr ⟨rfl, ?_⟩
    cases s.model.packing with
    | true => exact .inr ⟨_, rfl⟩
    | false => exact .inl rfl

theorem proceed_of_closing {s : State α ν} (closing : s.closing = true) :
    s.proceed =
      { s with scheduler := .locking (Number.ofCount 0) true }.enqueue .scheduler := by
  simp only [State.proceed, State.nextWait, State.enqueue, closing, if_true]

/-! ## What never goes back -/

theorem closing_move {s t : State α ν} {e : Event α ν} (h : Move s e t)
    (closing : s.closing = true) : t.closing = true := by
  cases h with
  | close => rfl
  | _ => exact closing

theorem packing_move {s t : State α ν} {e : Event α ν} (h : Move s e t)
    (packing : s.model.packing = true) : t.model.packing = true := by
  cases h with
  | @learn reply millis =>
    show (s.model.packing || s.model.exceeds millis) = true
    rw [packing, Bool.true_or]
  | _ => exact packing

theorem log_move {s t : State α ν} {e : Event α ν} (h : Move s e t) : s.log <:+ t.log := by
  cases h with
  | elapse | measure | close | lineUp | nobody | shut | proberEnds | probeCrashes | unpark
  | wake | flushCrashes | closeCrashes => exact List.suffix_rfl
  | offerNothing | append | directReturns | flush | flushFails | closeFails =>
    exact (List.suffix_cons _ _).trans (List.suffix_cons _ _)
  | _ => exact List.suffix_cons _ _

end Engine
end AdaptiveBatch
