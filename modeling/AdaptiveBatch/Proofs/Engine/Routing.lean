import AdaptiveBatch.Proofs.Engine.Call

/-!
# Routing

Until packing is switched on every offer is a sink call of its own and nothing is
buffered; from then on everything is buffered and no offer calls the sink.  The
switch may come while direct calls are under way and is never undone.  A flush of
one item goes alone and a larger one as a batch.
-/

namespace AdaptiveBatch
namespace Engine

variable {α ν : Type}

namespace State

/-- The lists that direct calls have handed to the sink. -/
def directs (s : State α ν) : List (List α) :=
  s.seen fun
    | .called _ r => r.direct?
    | _ => none

/-- The sizes of the buffer at the ticks that decided to wait. -/
def skips (s : State α ν) : List Nat :=
  s.seen fun
    | .deferred size _ _ _ => some size
    | _ => none

/-- The sizes of the buffer at the ticks that decided to flush. -/
def flushSizes (s : State α ν) : List Nat :=
  s.seen fun
    | .flushing size _ _ _ _ => some size
    | _ => none

end State

/-- All that happens to an offer that is sent: its one call is in progress, or has
returned and decided the answer, or has brought the offer down. -/
inductive Sent (n : Nat) (o : Offer α) : List (Entry α ν) → Prop
  | sending : Sent n o [.offered n o, .called (.offer n) o.request]
  | answered (fault : Option Fault) :
      Sent n o
        [.offered n o, .called (.offer n) o.request, .returned (.offer n) o.request fault,
          .answered n (.ofSend fault)]
  | crashed :
      Sent n o [.offered n o, .called (.offer n) o.request, .answered n .crashed]

/-- Nothing has gone by way of the buffer. -/
structure Unpacked (s : State α ν) : Prop where
  empty : s.buffer.items = []
  flushed : s.flushed = []
  skips : s.skips = []
  skipped : s.counters.skippedTicks = 0
  outside : s.Without .atLock

theorem flushed_of_send {s t : State α ν} {now : Nat} {c : Caller} {o : Offer α}
    (h : t.log = (now, .called c o.request) :: s.log) : t.flushed = s.flushed :=
  seen_of_skipped h (flush?_request o)

theorem directs_of_called {s t : State α ν} {now : Nat} {c : Caller} {r : Request α}
    (h : t.log = (now, .called c r) :: s.log) : t.directs = s.directs ++ r.direct?.toList :=
  seen_of_log h

theorem offer_of_prefix {n m : Nat} {o p : Offer α} {es fs : List (Entry α ν)}
    (h : .offered n o :: es <+: .offered m p :: fs) : o = p := by
  have hhead := (List.cons_prefix_cons.mp h).1
  exact (Entry.offered.inj hhead).2

theorem skippedTicks_flushed (c : Metrics.Counters) (items : Nat) :
    (c.flushed items).skippedTicks = c.skippedTicks := by
  rw [Metrics.Counters.flushed]
  split <;> rfl

variable [Number ν]

theorem unpacked_fresh {s : State α ν} (h : Fresh s) : Unpacked s := by
  obtain ⟨start, hbuffer⟩ := h.buffer
  constructor
  · rw [hbuffer]
    rfl
  · exact seen_fresh h rfl fun _ => rfl
  · exact seen_fresh h rfl fun _ => rfl
  · rw [h.counters]
    rfl
  · intro k hk
    rw [h.offers] at hk
    cases hk

theorem unpacked_move {s t : State α ν} {e : Event α ν} (h : Move s e t) (ho : Orderly s)
    (direct : t.model.packing = false) (hs : s.model.packing = false → Unpacked s) :
    Unpacked t := by
  have before : s.model.packing = false := by
    rw [Bool.eq_false_iff]
    intro packing
    rw [packing_move h packing] at direct
    cases direct
  obtain ⟨empty, flushed, skips, skipped, outside⟩ := hs before
  cases h with
  | lineUp found phase opened running packing =>
    rw [before] at packing
    cases packing
  | offer =>
    exact ⟨empty, flushed, skips, skipped, without_arrive outside (by decide) _ _⟩
  | @send n =>
    refine ⟨empty, (flushed_of_send rfl).trans flushed, skips, skipped, ?_⟩
    exact without_setPhase outside n (by decide)
  | refuse | directCrashes =>
    exact ⟨empty, flushed, skips, skipped, without_answer outside _ _⟩
  | @bounce n k rest free head found | @append n k rest free head found =>
    exact absurd (ho.atLock_of_head head found) (outside k (ticket?_mem found))
  | defer free head turn filled | flush free head turn filled => exact absurd empty filled
  | @directReturns n =>
    exact ⟨empty, flushed, skips, skipped, without_answer (s := s) outside n .accepted⟩
  | flushReturns | flushFails =>
    exact ⟨empty, flushed, skips, (skippedTicks_flushed _ _).trans skipped, outside⟩
  | _ => exact ⟨empty, flushed, skips, skipped, outside⟩

theorem unpacked_of_raced {s : State α ν} (hs : Raced s)
    (direct : s.model.packing = false) : Unpacked s := by
  refine of_raced (P := fun s => s.model.packing = false → Unpacked s)
    (fun h _ => unpacked_fresh h) ?_ ?_ hs direct
  · exact fun hs hmove ih direct => unpacked_move hmove (orderly_of_raced hs) direct ih
  · intro s line _ ih direct
    obtain ⟨empty, flushed, skips, skipped, outside⟩ := ih direct
    exact ⟨empty, flushed, skips, skipped, outside⟩

/-! ## Direct calls -/

/-- The step that switches packing on begins no direct call, and no step after it does. -/
theorem directs_move {s t : State α ν} {e : Event α ν} (h : Move s e t)
    (packing : t.model.packing = true) : t.directs = s.directs := by
  cases h with
  | send found phase opened running direct =>
    have hpacking : s.model.packing = true := packing
    rw [direct] at hpacking
    cases hpacking
  | @flush wait draining rest =>
    have hflush := directs_of_called
      (t := State.beginFlush { s with line := rest } (s.evaluation wait draining)
        s.buffer.items (State.flushRequest s.buffer.items)) rfl
    rw [direct?_flushRequest] at hflush
    exact hflush.trans (List.append_nil _)
  | _ => rfl

theorem directs_act {s t : State α ν} {a : Act α ν} (h : s.act? a = some t)
    (packing : t.model.packing = true) : t.directs = s.directs :=
  act_keeps (P := fun u => u.model.packing = true → u.directs = s.directs)
    (fun hmove _ => directs_move hmove) (fun _ hs => hs) h (fun _ => rfl) packing

theorem directs_race {s t : State α ν} {as : List (Act α ν)} (h : s.race? as = some t)
    (packing : s.model.packing = true) : t.model.packing = true ∧ t.directs = s.directs :=
  race_keeps (P := fun u => u.model.packing = true ∧ u.directs = s.directs)
    (fun hmove hu =>
      have hpacking := packing_move hmove hu.1
      ⟨hpacking, (directs_move hmove hpacking).trans hu.2⟩)
    (fun _ hu => hu) h ⟨packing, rfl⟩

/-- An offer that begins its sink call has begun no other, and will begin no other. -/
theorem sent_race {s t : State α ν} {as : List (Act α ν)} {n : Nat} {o : Offer α}
    (hs : Raced s) (begun : s.story n = [.offered n o, .called (.offer n) o.request])
    (h : s.race? as = some t) : Sent n o (t.story n) := by
  have told := told_of_raced (raced_of_race hs h)
  have hprefix : [.offered n o, .called (.offer n) o.request] <+: t.story n :=
    begun ▸ seen_race h _
  cases found : t.ticket? n with
  | some k =>
    have hn := ticket?_number found
    rw [told.present found] at hprefix ⊢
    by_cases phase : k.phase = .sending
    · rw [tale_sending hn phase] at hprefix ⊢
      obtain rfl := offer_of_prefix hprefix
      exact .sending
    · rw [tale_waiting hn phase] at hprefix
      simp at hprefix
  | none =>
    rcases told.past found with hstory | ⟨p, ended⟩
    · rw [hstory] at hprefix
      cases List.prefix_nil.mp hprefix
    · generalize t.story n = es at ended hprefix ⊢
      cases ended with
      | sent _ fault =>
        obtain rfl := offer_of_prefix hprefix
        exact .answered fault
      | crashed =>
        obtain rfl := offer_of_prefix hprefix
        exact .crashed
      | _ => simp at hprefix

/-- An offer that passes the shutdown check while packing is off begins its sink call. -/
theorem story_of_enter {s t : State α ν} (hs : Raced s) {n : Nat}
    (direct : s.model.packing = false) (running : s.closing = false)
    (h : s.step? (.enter n) = some t) :
    ∃ o, s.story n = [.offered n o] ∧
      t.story n = [.offered n o, .called (.offer n) o.request] := by
  have told := told_of_raced hs
  cases move_of_step h with
  | refuse found phase opened closing =>
    rw [running] at closing
    cases closing
  | lineUp found phase opened _ packing =>
    rw [direct] at packing
    cases packing
  | @send _ k found phase =>
    have hstory := (told.present found).trans
      (tale_waiting (ticket?_number found) (by simp [phase]))
    refine ⟨k.offer, hstory, ?_⟩
    rw [story_own (s := s) [.called (.offer n) k.offer.request] rfl (by simp [Entry.number?]),
      hstory]
    rfl

/-! ## Flushes -/

theorem flushSizes_move {s t : State α ν} {e : Event α ν} (h : Move s e t)
    (hs : s.flushSizes = s.flushed.map List.length) :
    t.flushSizes = t.flushed.map List.length := by
  cases h with
  | send =>
    rw [flushed_of_send rfl]
    exact hs
  | flush =>
    rw [flushed_beginFlush, List.map_append]
    exact List.reverse_cons.trans (congrArg (· ++ [s.buffer.items.length]) hs)
  | _ => exact hs

theorem flushSizes_of_raced {s : State α ν} (hs : Raced s) :
    s.flushSizes = s.flushed.map List.length := by
  refine of_raced (P := fun s => s.flushSizes = s.flushed.map List.length) ?_
    (fun _ => flushSizes_move) (fun _ hs => hs) hs
  intro s h
  have hsizes : s.flushSizes = [] := seen_fresh h rfl fun _ => rfl
  have hflushed : s.flushed = [] := seen_fresh h rfl fun _ => rfl
  rw [hsizes, hflushed]
  rfl

/-- A call that hands over buffered items is a flush of the scheduler's, in the form
that its size asks for. -/
theorem flush_of_begun {s : State α ν} (hs : Raced s) {c : Caller} {r : Request α}
    {xs : List α} (h : (c, r) ∈ s.begun) (flush : r.flush? = some xs) :
    c = .scheduler ∧ xs ≠ [] ∧ r = State.flushRequest xs := by
  have hmakes : c.Makes r := makes_of_raced hs _ h
  cases c with
  | starter | prober =>
    obtain rfl : r = .probe := hmakes
    cases flush
  | offer n =>
    obtain ⟨o, rfl⟩ := hmakes
    rw [flush?_request] at flush
    cases flush
  | scheduler =>
    rcases hmakes with rfl | ⟨ys, filled, rfl⟩
    · cases flush
    · rw [flush?_flushRequest] at flush
      obtain rfl := Option.some.inj flush
      exact ⟨rfl, filled, rfl⟩

theorem single_of_flushRequest {xs : List α} (one : xs.length = 1) :
    ∃ x, State.flushRequest xs = .sendSingle x := by
  obtain ⟨x, rfl⟩ := List.length_eq_one_iff.mp one
  exact ⟨x, rfl⟩

theorem two_le_of_sendBatch {xs ys : List α} (filled : xs ≠ [])
    (batch : State.flushRequest xs = .sendBatch ys) : 2 ≤ ys.length := by
  cases xs with
  | nil => exact absurd rfl filled
  | cons x rest =>
    cases rest with
    | nil => cases batch
    | cons y more =>
      obtain rfl := Request.sendBatch.inj batch
      exact Nat.le_add_left 2 more.length

/-! ## The two modes -/

/-- Which calls carry what, and when. -/
structure Routes (s : State α ν) : Prop where
  /-- Packing stays on, and while it is on no direct call begins. -/
  packed : s.model.packing = true → ∀ {as t}, s.race? as = some t →
    t.model.packing = true ∧ t.directs = s.directs
  /-- Nor does one begin in the step that switches it on. -/
  switch : ∀ {a t}, s.act? a = some t → t.model.packing = true → t.directs = s.directs
  /-- While it is off nothing is buffered, and nothing has ever been flushed or held
  back. -/
  unpacked : s.model.packing = false →
    s.buffer.items = [] ∧ s.flushed = [] ∧ s.skips = [] ∧ s.counters.skippedTicks = 0
  /-- An offer that passes the shutdown check while it is off is one direct call, of its
  items, and what that call returns is what the offer comes to. -/
  direct : s.model.packing = false → s.closing = false →
    ∀ {n t}, s.step? (.enter n) = some t →
      ∃ o, s.story n = [.offered n o] ∧ o.request.direct? = some o.items ∧
        ∀ {as u}, t.race? as = some u → Sent n o (u.story n)
  /-- A flush is never empty, one of one item goes alone, and a batch has two at least. -/
  flushes : ∀ {c r xs}, (c, r) ∈ s.begun → r.flush? = some xs →
    c = .scheduler ∧ xs ≠ [] ∧ (xs.length = 1 → ∃ x, r = .sendSingle x) ∧
      ∀ ys, r = .sendBatch ys → 2 ≤ ys.length
  /-- The flushes that ticks decided on are those calls. -/
  sizes : s.flushSizes = s.flushed.map List.length

/-- The two ways to the sink are kept apart on every run. -/
theorem routes_of_raced {s : State α ν} (hs : Raced s) : Routes s := by
  constructor
  · exact fun packing _ _ h => directs_race h packing
  · exact directs_act
  · intro direct
    have hunpacked := unpacked_of_raced hs direct
    exact ⟨hunpacked.empty, hunpacked.flushed, hunpacked.skips, hunpacked.skipped⟩
  · intro direct running n t h
    obtain ⟨o, hbefore, hbegun⟩ := story_of_enter hs direct running h
    have ht : Raced t := .act (a := .event (.enter n)) hs h
    exact ⟨o, hbefore, direct?_request o, sent_race ht hbegun⟩
  · intro c r xs h flush
    obtain ⟨hc, filled, rfl⟩ := flush_of_begun hs h flush
    exact ⟨hc, filled, single_of_flushRequest, fun ys => two_le_of_sendBatch filled⟩
  · exact flushSizes_of_raced hs

/-- Packing is switched on while a direct send is under way.  Of the offers that pass the
gate after that the later one comes to the buffer first. -/
def straddlingSwitch : List (Act Nat Rat) :=
  List.map .event [.offer (.one 1), .enter 0, .proberWakes, .probeReturns (.answer 50),
    .offer (.all [2, 3]), .enter 1, .offer (.one 4), .enter 2] ++
  .reorder [.offer 2, .offer 1] :: List.map .event [.acquire, .acquire, .directReturns 0 none,
    .schedulerWakes, .schedulerWakes, .acquire]

theorem routes_of_straddlingSwitch :
    ∃ s, State.play? .standard "sink" 0 straddlingSwitch = some s ∧ Raced s ∧
      s.directs = [[1]] ∧ s.flushed = [[4, 2, 3]] ∧ Routes s := by
  have hplay : (State.play? .standard "sink" 0 straddlingSwitch).map
      (fun s => (s.directs, s.flushed)) = some ([[1]], [[4, 2, 3]]) := by decide +kernel
  obtain ⟨s, hs, hfacts⟩ := Option.map_eq_some_iff.mp hplay
  have raced : Raced s := raced_of_play hs
  exact ⟨s, hs, raced, congrArg Prod.fst hfacts, congrArg Prod.snd hfacts,
    routes_of_raced raced⟩

end Engine
end AdaptiveBatch
