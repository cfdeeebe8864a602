import AdaptiveBatch.Proofs.Engine.Delivery
import AdaptiveBatch.Proofs.Engine.Routing

/-!
# Calls that have returned

A call that hands anything to the sink has returned or is in progress.  The scheduler
has one flush in progress at most, so the flushes that have returned are the first ones
that were begun; direct calls overlap, and return in any order.
-/

namespace AdaptiveBatch
namespace Engine

variable {α ν : Type}

namespace State

/-- The calls that have returned, but for probes, each with its fault if it failed. -/
def returned (s : State α ν) : List (Request α × Option Fault) :=
  s.seen fun
    | .returned _ r fault => some (r, fault)
    | _ => none

/-- The lists of the flushes that have returned. -/
def returnedFlushes (s : State α ν) : List (List α) := s.returned.filterMap (·.1.flush?)

/-- The lists of the direct calls that have returned. -/
def returnedDirects (s : State α ν) : List (List α) := s.returned.filterMap (·.1.direct?)

/-- The list of the flush in progress. -/
def inFlight? (s : State α ν) : Option (List α) :=
  (s.openCall? .scheduler).bind Request.flush?

/-- The lists of the direct calls in progress. -/
def sendingLists (s : State α ν) : List (List α) :=
  s.offers.filterMap fun k => k.call?.bind Request.direct?

end State

theorem flatten_filterMap_cons {β : Type} (f : β → Option (List α)) (b : β) (rest : List β) :
    ((b :: rest).filterMap f).flatten = (f b).getD [] ++ (rest.filterMap f).flatten := by
  rw [List.filterMap_cons]
  cases f b <;> rfl

theorem returned_note (s : State α ν) (c : Caller) (r : Request α) (fault : Option Fault) :
    (s.note (.returned c r fault)).returned = s.returned ++ [(r, fault)] :=
  List.reverse_cons

theorem filterMap_concat {β γ : Type} (f : β → Option γ) (l : List β) (b : β) :
    (l ++ [b]).filterMap f = l.filterMap f ++ (f b).toList := by
  rw [List.filterMap_append, List.filterMap_cons]
  cases f b <;> rfl

theorem returnedFlushes_of_returned {s t : State α ν} {r : Request α} {fault : Option Fault}
    (h : t.returned = s.returned ++ [(r, fault)]) :
    t.returnedFlushes = s.returnedFlushes ++ r.flush?.toList := by
  rw [State.returnedFlushes, h, filterMap_concat]
  rfl

theorem returnedDirects_of_returned {s t : State α ν} {r : Request α} {fault : Option Fault}
    (h : t.returned = s.returned ++ [(r, fault)]) :
    t.returnedDirects = s.returnedDirects ++ r.direct?.toList := by
  rw [State.returnedDirects, h, filterMap_concat]
  rfl

theorem returnedFlushes_note (s : State α ν) (c : Caller) (r : Request α)
    (fault : Option Fault) :
    (s.note (.returned c r fault)).returnedFlushes = s.returnedFlushes ++ r.flush?.toList :=
  returnedFlushes_of_returned (returned_note s c r fault)

theorem returnedDirects_note (s : State α ν) (c : Caller) (r : Request α)
    (fault : Option Fault) :
    (s.note (.returned c r fault)).returnedDirects = s.returnedDirects ++ r.direct?.toList :=
  returnedDirects_of_returned (returned_note s c r fault)

theorem returnedFlushes_other (s : State α ν) (c : Caller) {r : Request α}
    (fault : Option Fault) (other : r.flush? = none) :
    (s.note (.returned c r fault)).returnedFlushes = s.returnedFlushes := by
  rw [returnedFlushes_note, other]
  exact List.append_nil _

theorem returnedDirects_other (s : State α ν) (c : Caller) {r : Request α}
    (fault : Option Fault) (other : r.direct? = none) :
    (s.note (.returned c r fault)).returnedDirects = s.returnedDirects := by
  rw [returnedDirects_note, other]
  exact List.append_nil _

/-! ## Flushes -/

variable [Number ν]

theorem inFlight?_of_delivering {s : State α ν} (hs : Steady s) {items : List α}
    {reason : Flush.Reason} (delivering : s.scheduler = .delivering items reason) :
    s.inFlight? = some items := by
  rw [State.inFlight?, openCall?_scheduler hs, delivering]
  exact flush?_flushRequest items

theorem flush?_nextWait (s : State α ν) : s.nextWait.call?.bind Request.flush? = none := by
  rw [call?_nextWait]
  rfl

/-- The scheduler waits for the flush that it began last, unless it has returned. -/
def FlushesReturn (s : State α ν) : Prop :=
  s.flushed = s.returnedFlushes ++ (s.scheduler.call?.bind Request.flush?).toList

theorem flushesReturn_proceed {s : State α ν} (h : s.flushed = s.returnedFlushes) :
    FlushesReturn s.proceed := by
  have hidle : s.proceed.scheduler.call?.bind Request.flush? = none := flush?_nextWait s
  rw [FlushesReturn, hidle]
  exact h.trans (List.append_nil _).symm

theorem flushesReturn_fresh {s : State α ν} (h : Fresh s) : FlushesReturn s := by
  have hflushed : s.flushed = [] := seen_fresh h rfl fun _ => rfl
  have hreturned : s.returned = [] := seen_fresh h rfl fun _ => rfl
  rw [FlushesReturn, State.returnedFlushes, hflushed, hreturned, h.scheduler]
  rfl

theorem flushesReturn_move {s t : State α ν} {e : Event α ν} (calm : e.crashes = false)
    (h : Move s e t) (hs : FlushesReturn s) : FlushesReturn t := by
  cases h with
  | elapse | offerNothing | offer | measure | close | refuse | lineUp | bounce | append
  | measured | nobody | proberEnds | probe | learn | probeFails => exact hs
  | @send n k =>
    have hflushed : State.flushed ((s.setPhase n .sending).note
        (.called (.offer n) k.offer.request)) = s.flushed := flushed_of_send rfl
    rw [FlushesReturn, hflushed]
    exact hs
  | shut free head turn | wake turn =>
    rw [FlushesReturn, turn] at hs
    exact hs
  | idle free head turn | defer free head turn | unpark turn =>
    rw [FlushesReturn, turn] at hs
    exact flushesReturn_proceed (hs.trans (List.append_nil _))
  | @flush wait draining rest free head turn =>
    rw [FlushesReturn, turn] at hs
    have hcall : (State.beginFlush { s with line := rest } (s.evaluation wait draining)
        s.buffer.items (State.flushRequest s.buffer.items)).scheduler.call?.bind
          Request.flush? = some s.buffer.items := flush?_flushRequest _
    rw [FlushesReturn, flushed_beginFlush, hcall]
    exact congrArg (· ++ [s.buffer.items]) (hs.trans (List.append_nil _))
  | @directReturns n k fault =>
    have hreturned := returnedFlushes_other s (.offer n) fault (flush?_request k.offer)
    exact hs.trans (congrArg (· ++ _) hreturned.symm)
  | @flushReturns items reason delivering =>
    rw [FlushesReturn, delivering] at hs
    have hreturned := returnedFlushes_note s .scheduler (State.flushRequest items) none
    exact flushesReturn_proceed (hs.trans hreturned.symm)
  | @flushFails items reason fault delivering =>
    rw [FlushesReturn, delivering] at hs
    have hreturned := returnedFlushes_note s .scheduler (State.flushRequest items) (some fault)
    exact flushesReturn_proceed (hs.trans hreturned.symm)
  | takeGate waits =>
    rw [FlushesReturn, waits] at hs
    exact hs
  | closeReturns closing =>
    rw [FlushesReturn, closing] at hs
    have hreturned := returnedFlushes_other s .scheduler (r := .close) none rfl
    exact hs.trans (congrArg (· ++ []) hreturned.symm)
  | closeFails fault closing =>
    rw [FlushesReturn, closing] at hs
    have hreturned := returnedFlushes_other s .scheduler (r := .close) (some fault) rfl
    exact hs.trans (congrArg (· ++ []) hreturned.symm)
  | directCrashes | probeCrashes | flushCrashes | closeCrashes => cases calm

/-- The flushes begun are those that have returned, in that order, and the one in
progress. -/
theorem flushed_split {s : State α ν} (hs : Steady s) :
    s.flushed = s.returnedFlushes ++ s.inFlight?.toList := by
  have hreturn : FlushesReturn s :=
    of_steady (P := FlushesReturn) flushesReturn_fresh (fun _ => flushesReturn_move)
      (fun _ hs => hs) hs
  rw [State.inFlight?, openCall?_scheduler hs]
  exact hreturn

theorem inFlight?_of_ended {s : State α ν} (hs : Steady s) (ended : s.schedulerEnded = true) :
    s.inFlight? = none := by
  obtain ⟨crashed, hphase⟩ := ended_of_schedulerEnded ended
  rw [State.inFlight?, openCall?_scheduler hs, hphase]
  rfl

/-- What has joined the buffer has been flushed, is being flushed or is still there. -/
theorem length_appended {s : State α ν} (hs : Steady s) :
    s.returnedFlushes.flatten.length + (s.inFlight?.getD []).length + s.buffer.size =
      s.appended.flatten.length := by
  have horder := congrArg List.length (inOrder_of_raced hs.raced)
  rw [flushed_split hs, List.length_append, List.flatten_append, List.length_append,
    length_items] at horder
  rw [← horder]
  cases s.inFlight? with
  | none => rfl
  | some xs => simp

/-! ## Direct calls -/

omit [Number ν] in
theorem direct?_call? {k : Ticket α} :
    (k.call?.bind Request.direct?) = if k.phase = .sending then some k.offer.items else none := by
  rw [Ticket.call?]
  split
  · exact direct?_request k.offer
  · rfl

omit [Number ν] in
/-- An offer that ends takes its call in progress with it. -/
theorem sendingLists_answer {s : State α ν} (distinct : (s.offers.map (·.number)).Nodup)
    {n : Nat} {k : Ticket α} (found : s.ticket? n = some k) (o : Outcome ν) :
    s.sendingLists.Perm
      ((k.call?.bind Request.direct?).toList ++ (s.answer n o).sendingLists) := by
  have hperm := (offers_perm distinct found).filterMap fun k => k.call?.bind Request.direct?
  rw [List.filterMap_cons] at hperm
  cases hcall : k.call?.bind Request.direct? with
  | none => simpa [State.sendingLists, State.answer, State.note, hcall] using hperm
  | some xs => simpa [State.sendingLists, State.answer, State.note, hcall] using hperm

omit [Number ν] in
theorem sendingLists_setPhase {s : State α ν} (distinct : (s.offers.map (·.number)).Nodup)
    {n : Nat} {k : Ticket α} (found : s.ticket? n = some k) (idle : k.phase ≠ .sending)
    (p : OfferPhase) :
    (s.setPhase n p).sendingLists.Perm
      ((if p = .sending then [k.offer.items] else []) ++ s.sendingLists) := by
  have hbefore := (offers_perm distinct found).filterMap fun k => k.call?.bind Request.direct?
  have hafter := (setPhase_perm distinct found p).filterMap
    fun k => k.call?.bind Request.direct?
  rw [List.filterMap_cons, direct?_call?] at hbefore hafter
  simp only [idle, if_false] at hbefore
  by_cases hp : p = .sending
  · simp only [hp, if_true] at hafter ⊢
    exact hafter.trans (hbefore.symm.cons k.offer.items)
  · simp only [hp, if_false] at hafter ⊢
    exact hafter.trans hbefore.symm

/-- Direct calls begun have returned or are in progress. -/
def DirectsReturn (s : State α ν) : Prop :=
  s.directs.Perm (s.returnedDirects ++ s.sendingLists)

omit [Number ν] in
theorem DirectsReturn.keep {s t : State α ν} (hs : DirectsReturn s)
    (offers : s.sendingLists.Perm t.sendingLists) (directs : t.directs = s.directs := by rfl)
    (returned : t.returnedDirects = s.returnedDirects := by rfl) : DirectsReturn t := by
  rw [DirectsReturn, directs, returned]
  exact hs.trans (List.Perm.append_left _ offers)

theorem directsReturn_move {s t : State α ν} {e : Event α ν} (calm : e.crashes = false)
    (h : Move s e t) (ho : Orderly s) (distinct : (s.offers.map (·.number)).Nodup)
    (hs : DirectsReturn s) : DirectsReturn t := by
  have hidle : ∀ {n k} (o : Outcome ν), s.ticket? n = some k → k.phase ≠ .sending →
      s.sendingLists.Perm (s.answer n o).sendingLists := by
    intro n k o found idle
    have hanswer := sendingLists_answer distinct found o
    rwa [direct?_call?, if_neg idle] at hanswer
  cases h with
  | elapse | offerNothing | measure | close | measured | nobody | shut | idle | defer
  | proberEnds | probe | learn | probeFails | unpark | wake | takeGate => exact hs
  | @offer o filled =>
    refine hs.keep (List.Perm.of_eq ?_)
    show s.sendingLists = (s.offers ++ [_]).filterMap _
    rw [List.filterMap_append]
    exact (List.append_nil _).symm
  | refuse found phase => exact hs.keep (hidle _ found (by simp [phase]))
  | @lineUp n k found phase =>
    have hphase := sendingLists_setPhase distinct found (by simp [phase]) .atLock
    exact hs.keep hphase.symm
  | @send n k found phase =>
    have hphase := sendingLists_setPhase distinct found (by simp [phase]) .sending
    have hdirects : State.directs ((s.setPhase n .sending).note
        (.called (.offer n) k.offer.request)) = s.directs ++ [k.offer.items] := by
      rw [directs_of_called (s := s) rfl, direct?_request]
      rfl
    rw [DirectsReturn, hdirects]
    calc (s.directs ++ [k.offer.items]).Perm
          (s.returnedDirects ++ s.sendingLists ++ [k.offer.items]) := hs.append_right _
      _ = s.returnedDirects ++ (s.sendingLists ++ [k.offer.items]) := List.append_assoc _ _ _
      List.Perm _ (s.returnedDirects ++ ([k.offer.items] ++ s.sendingLists)) :=
          List.Perm.append_left _ List.perm_append_comm
      List.Perm _ (s.returnedDirects ++ (s.setPhase n .sending).sendingLists) :=
          List.Perm.append_left _ hphase.symm
  | @bounce n k rest free head found | @append n k rest free head found =>
    exact hs.keep (hidle .accepted found (by simp [ho.atLock_of_head head found]))
  | @flush wait draining rest =>
    have hdirects := directs_of_called
      (t := State.beginFlush { s with line := rest } (s.evaluation wait draining)
        s.buffer.items (State.flushRequest s.buffer.items)) rfl
    rw [direct?_flushRequest] at hdirects
    exact hs.keep (List.Perm.refl _) (hdirects.trans (List.append_nil _))
  | @directReturns n k fault found phase =>
    have hanswer := sendingLists_answer distinct found (.ofSend fault)
    rw [direct?_call?, if_pos phase] at hanswer
    have hreturned := returnedDirects_note s (.offer n) k.offer.request fault
    rw [direct?_request] at hreturned
    refine (hs.trans (List.Perm.append_left _ hanswer)).trans (List.Perm.of_eq ?_)
    rw [← List.append_assoc]
    exact congrArg (· ++ _) hreturned.symm
  | @flushReturns items reason =>
    have hreturned := returnedDirects_other s .scheduler none (direct?_flushRequest items)
    exact hs.keep (List.Perm.refl _) rfl hreturned
  | @flushFails items reason fault =>
    have hreturned := returnedDirects_other s .scheduler (some fault) (direct?_flushRequest items)
    exact hs.keep (List.Perm.refl _) rfl hreturned
  | closeReturns =>
    have hreturned := returnedDirects_other s .scheduler (r := .close) none rfl
    exact hs.keep (List.Perm.refl _) rfl hreturned
  | closeFails fault =>
    have hreturned := returnedDirects_other s .scheduler (r := .close) (some fault) rfl
    exact hs.keep (List.Perm.refl _) rfl hreturned
  | directCrashes | probeCrashes | flushCrashes | closeCrashes => cases calm

theorem directs_split {s : State α ν} (hs : Steady s) :
    s.directs.Perm (s.returnedDirects ++ s.sendingLists) := by
  refine of_steady (P := DirectsReturn) ?_ ?_ (fun _ hs => hs) hs
  · intro s h
    have hdirects : s.directs = [] := seen_fresh h rfl fun _ => rfl
    have hreturned : s.returned = [] := seen_fresh h rfl fun _ => rfl
    rw [DirectsReturn, State.returnedDirects, State.sendingLists, hdirects, hreturned, h.offers]
    exact List.Perm.refl []
  · intro s t e hs calm h
    exact directsReturn_move calm h (orderly_of_raced hs.raced) (numbers_of_raced hs.raced)

end Engine
end AdaptiveBatch
