import Mathlib.Algebra.GroupWithZero.Nat
import AdaptiveBatch.Proofs.Engine.Return
import AdaptiveBatch.Proofs.Metrics.Counters

/-!
# What the counters count

The counters are moved in four places, some before the call that they are about and some
after it.  They agree with the calls all the same, in every state that a run can stop in:
a list counts as buffered when it joins and as flushed when its flush returns, so the
difference is what is buffered and what is on its way.  Counters wrap, and what they show
is what there was, modulo their range.
-/

namespace AdaptiveBatch

namespace Request

variable {α : Type}

def isBatch : Request α → Bool
  | .sendBatch _ => true
  | _ => false

def isSingle : Request α → Bool
  | .sendSingle _ => true
  | _ => false

/-- A call hands over the items of an offer, those of a flush, or none. -/
theorem items_length (r : Request α) :
    r.items.length = (r.direct?.getD []).length + (r.flush?.getD []).length := by
  cases r <;> simp [items, direct?, flush?]

end Request

namespace Engine

variable {α ν : Type}

/-- A flush of one item goes alone, and a larger one is a batch. -/
theorem kind_flushRequest {xs : List α} (filled : xs ≠ []) :
    (State.flushRequest xs).isBatch = decide (1 < xs.length) ∧
      (State.flushRequest xs).isSingle = !decide (1 < xs.length) := by
  cases xs with
  | nil => exact absurd rfl filled
  | cons x rest =>
    cases rest with
    | nil => exact ⟨rfl, rfl⟩
    | cons y more => simp [State.flushRequest, Request.isBatch, Request.isSingle]

theorem kind_request (o : Offer α) :
    o.request.isBatch = false ∧ o.request.isSingle = false := by
  cases o <;> exact ⟨rfl, rfl⟩

/-! ## Calls by counter -/

theorem count_returned {β : Type} {before after : List β} {b : β} {shown shown' : UInt64}
    (p : β → Bool) (h : shown = (before.countP p).toUInt64) (list : after = before ++ [b])
    (more : shown' = shown + if p b then 1 else 0) :
    shown' = (after.countP p).toUInt64 := by
  rw [more, h, list, List.countP_append, List.countP_singleton, Metrics.toUInt64_add]
  cases p b <;> rfl

/-- What each counter of calls shows. -/
structure Booked (s : State α ν) : Prop where
  buffered : s.counters.bufferedItems = s.appended.flatten.length.toUInt64
  flushed : s.counters.flushedItems = s.returnedFlushes.flatten.length.toUInt64
  batches : s.counters.batchFlushes = (s.returned.countP (·.1.isBatch)).toUInt64
  singles : s.counters.singleFlushes = (s.returned.countP (·.1.isSingle)).toUInt64
  failures : s.counters.flushFailures =
    (s.returned.countP fun c => c.1.flush?.isSome && c.2.isSome).toUInt64
  directCalls : s.counters.directCalls = s.returnedDirects.length.toUInt64
  directItems : s.counters.directItems = s.returnedDirects.flatten.length.toUInt64

namespace Booked

variable {s t : State α ν}

theorem join (h : Booked s) {xs : List α} (appended : t.appended = s.appended ++ [xs])
    (counters : t.counters = s.counters.buffered xs.length)
    (returned : t.returned = s.returned) : Booked t := by
  have hflushes : t.returnedFlushes = s.returnedFlushes := by
    rw [State.returnedFlushes, returned, State.returnedFlushes]
  have hdirects : t.returnedDirects = s.returnedDirects := by
    rw [State.returnedDirects, returned, State.returnedDirects]
  constructor
  · rw [counters, appended, List.flatten_append, List.flatten_singleton, List.length_append,
      Metrics.toUInt64_add, ← h.buffered]
    rfl
  · rw [counters, hflushes]
    exact h.flushed
  · rw [counters, returned]
    exact h.batches
  · rw [counters, returned]
    exact h.singles
  · rw [counters, returned]
    exact h.failures
  · rw [counters, hdirects]
    exact h.directCalls
  · rw [counters, hdirects]
    exact h.directItems

/-- A call that returns is added to the counters that it is about. -/
theorem returns (h : Booked s) {r : Request α} {fault : Option Fault}
    (returned : t.returned = s.returned ++ [(r, fault)]) (appended : t.appended = s.appended)
    (buffered : t.counters.bufferedItems = s.counters.bufferedItems)
    (flushed : t.counters.flushedItems =
      s.counters.flushedItems + (r.flush?.getD []).length.toUInt64)
    (batches : t.counters.batchFlushes = s.counters.batchFlushes + if r.isBatch then 1 else 0)
    (singles : t.counters.singleFlushes =
      s.counters.singleFlushes + if r.isSingle then 1 else 0)
    (failures : t.counters.flushFailures =
      s.counters.flushFailures + if r.flush?.isSome && fault.isSome then 1 else 0)
    (directCalls : t.counters.directCalls =
      s.counters.directCalls + if r.direct?.isSome then 1 else 0)
    (directItems : t.counters.directItems =
      s.counters.directItems + (r.direct?.getD []).length.toUInt64) : Booked t := by
  have hflushes := returnedFlushes_of_returned returned
  have hdirects := returnedDirects_of_returned returned
  constructor
  · rw [buffered, appended]
    exact h.buffered
  · rw [flushed, hflushes, h.flushed, List.flatten_append, List.length_append,
      Metrics.toUInt64_add]
    cases r.flush? <;> simp
  · exact count_returned (·.1.isBatch) h.batches returned batches
  · exact count_returned (·.1.isSingle) h.singles returned singles
  · exact count_returned (fun c => c.1.flush?.isSome && c.2.isSome) h.failures returned failures
  · rw [directCalls, hdirects, h.directCalls, List.length_append, Metrics.toUInt64_add]
    cases r.direct? <;> rfl
  · rw [directItems, hdirects, h.directItems, List.flatten_append, List.length_append,
      Metrics.toUInt64_add]
    cases r.direct? <;> simp

theorem flush (h : Booked s) {xs : List α} {fault : Option Fault} (filled : xs ≠ [])
    (returned : t.returned = s.returned ++ [(State.flushRequest xs, fault)])
    (appended : t.appended = s.appended)
    (counters : t.counters =
      if fault.isSome then (s.counters.flushed xs.length).flushFailed
      else s.counters.flushed xs.length) : Booked t := by
  have hcounters : t.counters =
      { s.counters.flushed xs.length with
        flushFailures := s.counters.flushFailures + if fault.isSome then 1 else 0 } := by
    rw [counters, Metrics.Counters.flushed_eq]
    cases fault with
    | none => simp
    | some fault => rfl
  rw [Metrics.Counters.flushed_eq] at hcounters
  have hflush := flush?_flushRequest xs
  have hdirect := direct?_flushRequest xs
  refine h.returns returned appended ?_ ?_ ?_ ?_ ?_ ?_ ?_ <;> rw [hcounters]
  · rw [hflush]
    rfl
  · rw [(kind_flushRequest filled).1]
    by_cases many : 1 < xs.length <;> simp [many]
  · rw [(kind_flushRequest filled).2]
    by_cases many : 1 < xs.length <;> simp [many]
  · rw [hflush]
    rfl
  · rw [hdirect]
    exact (UInt64.add_zero _).symm
  · rw [hdirect]
    exact (UInt64.add_zero _).symm

theorem direct (h : Booked s) {o : Offer α} {fault : Option Fault}
    (returned : t.returned = s.returned ++ [(o.request, fault)])
    (appended : t.appended = s.appended)
    (counters : t.counters = s.counters.direct o.items.length) : Booked t := by
  have hflush := flush?_request o
  have hdirect := direct?_request o
  refine h.returns returned appended ?_ ?_ ?_ ?_ ?_ ?_ ?_ <;> rw [counters]
  · rfl
  · rw [hflush]
    exact (UInt64.add_zero _).symm
  · rw [(kind_request o).1]
    exact (UInt64.add_zero _).symm
  · rw [(kind_request o).2]
    exact (UInt64.add_zero _).symm
  · rw [hflush]
    exact (UInt64.add_zero _).symm
  · rw [hdirect]
    rfl
  · rw [hdirect]
    rfl

theorem close (h : Booked s) {fault : Option Fault}
    (returned : t.returned = s.returned ++ [(.close, fault)])
    (appended : t.appended = s.appended) (counters : t.counters = s.counters) : Booked t := by
  refine h.returns returned appended ?_ ?_ ?_ ?_ ?_ ?_ ?_ <;> rw [counters]
  all_goals exact (UInt64.add_zero _).symm

end Booked

variable [Number ν]

theorem booked_fresh {s : State α ν} (h : Fresh s) : Booked s := by
  have happended : s.appended = [] := seen_fresh h rfl fun _ => rfl
  have hreturned : s.returned = [] := seen_fresh h rfl fun _ => rfl
  constructor <;>
    simp only [State.returnedFlushes, State.returnedDirects, happended, hreturned, h.counters] <;>
    rfl

theorem booked_move {s t : State α ν} {e : Event α ν} (h : Move s e t) (staged : Staged s)
    (hs : Booked s) : Booked t := by
  cases h with
  | append => exact hs.join List.reverse_cons rfl rfl
  | directReturns => exact hs.direct List.reverse_cons rfl rfl
  | flushReturns delivering =>
    exact hs.flush (staged.delivering delivering) List.reverse_cons rfl rfl
  | flushFails fault delivering =>
    exact hs.flush (staged.delivering delivering) List.reverse_cons rfl rfl
  | closeReturns | closeFails => exact hs.close List.reverse_cons rfl rfl
  | _ =>
    exact ⟨hs.buffered, hs.flushed, hs.batches, hs.singles, hs.failures, hs.directCalls,
      hs.directItems⟩

theorem booked_of_steady {s : State α ν} (hs : Steady s) : Booked s :=
  of_steady booked_fresh (fun hs _ h => booked_move h (staged_of_steady hs))
    (fun _ hs => ⟨hs.buffered, hs.flushed, hs.batches, hs.singles, hs.failures, hs.directCalls,
      hs.directItems⟩) hs

/-! ## What ever joined the buffer -/

/-- A reading of the numbers that is exact where things are counted. -/
structure Exact (value : ν → Rat) : Prop where
  count : ∀ n, value (Number.ofCount n) = n
  one : value 1.0 = 1
  add : ∀ a b, value (a + b) = value a + value b

omit [Number ν] in
/-- The rationals are such a reading of themselves; binary floating point has none. -/
theorem exact_rat : Exact (fun x : Rat => x) := by
  refine ⟨fun _ => rfl, ?_, fun _ _ => rfl⟩
  decide +kernel

theorem total_joined {value : ν → Rat} (exact : Exact value) (b : Flush.Buffer α ν)
    (o : Offer α) : value (State.joined b o).total = value b.total + o.items.length := by
  cases o with
  | one x =>
    show value (b.total + 1.0) = _
    rw [exact.add, exact.one]
    rfl
  | all xs =>
    show value (b.total + Number.ofCount xs.length) = _
    rw [exact.add, exact.count]
    rfl

theorem total_of_raced {value : ν → Rat} (exact : Exact value) {s : State α ν}
    (hs : Raced s) : value s.buffer.total = s.appended.flatten.length := by
  refine of_raced (P := fun s => value s.buffer.total = s.appended.flatten.length) ?_ ?_
    (fun _ hs => hs) hs
  · intro s h
    obtain ⟨start, hbuffer⟩ := h.buffer
    have happended : s.appended = [] := seen_fresh h rfl fun _ => rfl
    rw [hbuffer, happended]
    exact exact.count 0
  · intro s t e _ h hs
    cases h with
    | @append n k rest =>
      have happended : State.appended (s.note (.appended n k.offer.items)) =
          s.appended ++ [k.offer.items] := List.reverse_cons
      have hlength : (s.appended ++ [k.offer.items]).flatten.length =
          s.appended.flatten.length + k.offer.items.length := by
        rw [List.flatten_append, List.flatten_singleton, List.length_append]
      show value (State.joined s.buffer k.offer).total = _
      rw [total_joined exact, hs]
      exact_mod_cast (hlength.symm.trans (congrArg (fun l => l.flatten.length) happended.symm))
    | _ => exact hs

theorem appended_grows {s t : State α ν} {as : List (Act α ν)} (h : s.race? as = some t) :
    s.appended.flatten.length ≤ t.appended.flatten.length := by
  obtain ⟨later, hlater⟩ : s.appended <+: t.appended := seen_race h _
  rw [← hlater, List.flatten_append, List.length_append]
  exact Nat.le_add_right _ _

/-! ## When all is over -/

omit [Number ν] in
theorem directs_begun (s : State α ν) : s.directs = s.begun.filterMap fun c => c.2.direct? := by
  rw [State.begun, seen_filterMap, State.directs]
  congr 1
  funext e
  cases e <;> rfl

omit [Number ν] in
theorem flushed_begun (s : State α ν) : s.flushed = s.begun.filterMap fun c => c.2.flush? := by
  rw [State.begun, seen_filterMap, State.flushed]
  congr 1
  funext e
  cases e <;> rfl

theorem items_of_calls (calls : List (Caller × Request α)) :
    (calls.map fun c => c.2.items.length).sum =
      (calls.filterMap fun c => c.2.direct?).flatten.length +
        (calls.filterMap fun c => c.2.flush?).flatten.length := by
  induction calls with
  | nil => rfl
  | cons c rest ih =>
    have hitems := c.2.items_length
    rw [List.map_cons, List.sum_cons, ih, flatten_filterMap_cons, flatten_filterMap_cons,
      List.length_append, List.length_append]
    omega

/-- How many items all calls of the sink have handed over. -/
def State.handedOver (s : State α ν) : Nat := (s.begun.map fun c => c.2.items.length).sum

omit [Number ν] in
theorem handedOver_split (s : State α ν) :
    s.handedOver = s.directs.flatten.length + s.flushed.flatten.length := by
  rw [State.handedOver, items_of_calls, directs_begun, flushed_begun]

theorem delivered_of_ended {s : State α ν} (hs : Steady s) (ended : s.schedulerEnded = true)
    (still : s.offers = []) :
    s.counters.delivered = s.handedOver.toUInt64 := by
  have booked := booked_of_steady hs
  -- with nothing under way, the calls that were begun are those that have returned
  have hidle := inFlight?_of_ended hs ended
  have hflushed : s.flushed = s.returnedFlushes := by
    rw [flushed_split hs, hidle]
    exact List.append_nil _
  have hsending : s.sendingLists = [] := by
    rw [State.sendingLists, still]
    rfl
  have hdirects : s.directs.flatten.length = s.returnedDirects.flatten.length := by
    have hperm := directs_split hs
    rw [hsending, List.append_nil] at hperm
    exact hperm.flatten.length_eq
  rw [handedOver_split, hflushed, hdirects, Metrics.toUInt64_add, ← booked.directItems,
    ← booked.flushed]
  rfl

/-! ## The ledger -/

/-- What the counters say of the calls.  Both sides wrap alike. -/
structure Balanced (s : State α ν) : Prop where
  /-- What has joined the buffer has been flushed, is being flushed or is still there. -/
  conserved : s.counters.bufferedItems =
    s.counters.flushedItems + (s.buffer.size + (s.inFlight?.getD []).length).toUInt64
  flushedItems : s.counters.flushedItems = (s.returnedFlushes.map List.length).sum.toUInt64
  batchFlushes : s.counters.batchFlushes = (s.returned.countP (·.1.isBatch)).toUInt64
  singleFlushes : s.counters.singleFlushes = (s.returned.countP (·.1.isSingle)).toUInt64
  flushFailures : s.counters.flushFailures =
    (s.returned.countP fun c => c.1.flush?.isSome && c.2.isSome).toUInt64
  directCalls : s.counters.directCalls = s.returnedDirects.length.toUInt64
  directItems : s.counters.directItems = (s.returnedDirects.map List.length).sum.toUInt64
  /-- Read exactly, the total of the buffer is what has ever joined it, which only grows. -/
  total : ∀ {value : ν → Rat}, Exact value →
    value s.buffer.total = s.appended.flatten.length ∧
      ∀ {as t}, s.race? as = some t → value s.buffer.total ≤ value t.buffer.total
  /-- When both tasks and all offers have ended, what is counted as delivered is what all
  calls have handed over. -/
  delivered : s.proberEnded = true → s.schedulerEnded = true → s.offers = [] →
    s.counters.delivered = s.handedOver.toUInt64

theorem balanced_of_steady {s : State α ν} (hs : Steady s) : Balanced s := by
  have booked := booked_of_steady hs
  constructor
  · rw [booked.buffered, booked.flushed, ← Metrics.toUInt64_add, ← length_appended hs,
      Nat.add_assoc, Nat.add_comm s.buffer.size]
  · rw [← List.length_flatten]
    exact booked.flushed
  · exact booked.batches
  · exact booked.singles
  · exact booked.failures
  · exact booked.directCalls
  · rw [← List.length_flatten]
    exact booked.directItems
  · intro value exact
    have htotal := total_of_raced exact hs.raced
    refine ⟨htotal, fun {as t} h => ?_⟩
    rw [htotal, total_of_raced exact (raced_of_race hs.raced h)]
    exact_mod_cast appended_grows h
  · exact fun _ => delivered_of_ended hs

/-- Two direct sends, one of which fails, then a batch that fails and a single item that is
flushed while the engine drains.  The scheduler overtakes a last offer with this flush, and
with the seal. -/
def everyKindOfCall : List (Act Nat Rat) :=
  List.map .event [.offer (.one 1), .enter 0, .offer (.all [2, 3]), .enter 1,
    .directReturns 1 (some (.other "full")), .directReturns 0 none, .proberWakes,
    .probeReturns (.answer 50), .offer (.all [4, 5]), .enter 2, .acquire, .schedulerWakes,
    .schedulerWakes, .acquire, .flushReturns (some (.other "full")), .offer (.one 6), .enter 3,
    .acquire, .offer (.one 7), .enter 4, .close, .schedulerWakes] ++
  .reorder [.scheduler, .offer 4] :: List.map .event [.acquire, .flushReturns none] ++
  .reorder [.scheduler, .offer 4] :: List.map .event [.acquire, .acquire, .takeGate,
    .closeReturns none, .proberWakes]

theorem balanced_of_everyKindOfCall :
    ∃ s, State.play? .standard "sink" 0 everyKindOfCall = some s ∧ Steady s ∧
      (s.proberEnded && s.schedulerEnded && s.offers.isEmpty) = true ∧
      s.buffer.total = 3 ∧ s.counters.delivered = 6 ∧ Exact (fun x : Rat => x) ∧
      Balanced s := by
  have hplay : (State.play? .standard "sink" 0 everyKindOfCall).map
      (fun s => (s.proberEnded && s.schedulerEnded && s.offers.isEmpty, s.buffer.total,
        s.counters.delivered)) = some (true, 3, 6) := by
    decide +kernel
  obtain ⟨s, hs, hfacts⟩ := Option.map_eq_some_iff.mp hplay
  simp only [Prod.mk.injEq] at hfacts
  obtain ⟨hended, htotal, hdelivered⟩ := hfacts
  have steady : Steady s := steady_of_play hs (by decide)
  exact ⟨s, hs, steady, hended, htotal, hdelivered, exact_rat, balanced_of_steady steady⟩

end Engine
end AdaptiveBatch
