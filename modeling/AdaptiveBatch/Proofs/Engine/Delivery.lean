import AdaptiveBatch.Proofs.Engine.Call

/-!
# Delivery

What joins the buffer leaves it in flushes, in the order in which it joined, and an
offer that is accepted has either joined the buffer once or been sent once.  So when
the tasks have ended everything accepted has been handed to the sink, once.
-/

namespace AdaptiveBatch
namespace Engine

variable {α ν : Type}

namespace State

/-- What an offer handed over. -/
def offered? (s : State α ν) (n : Nat) : Option (Offer α) :=
  (s.seen fun
    | .offered m o => if m = n then some o else none
    | _ => none).head?

/-- The offers that were accepted, in the order of their answers. -/
def accepted (s : State α ν) : List Nat :=
  s.seen fun
    | .answered n .accepted => some n
    | _ => none

/-- The items of the offers that were accepted. -/
def acceptedItems (s : State α ν) : List α :=
  s.accepted.flatMap fun n => ((s.offered? n).map Offer.items).getD []

/-- The lists that direct calls handed to the sink and that it took. -/
def sentDirectly (s : State α ν) : List (List α) :=
  s.seen fun
    | .returned _ r none => r.direct?
    | _ => none

end State

/-! ## Order -/

theorem length_items (b : Flush.Buffer α ν) : b.items.length = b.size := List.length_reverse

section Order

variable [Number ν]

theorem items_joined (b : Flush.Buffer α ν) (o : Offer α) :
    (State.joined b o).items = b.items ++ o.items := by
  cases o with
  | one x => exact List.reverse_cons
  | all xs => simp [State.joined, Flush.Buffer.extend, Flush.Buffer.items, Offer.items]

/-- The lists flushed so far, and after them what is buffered, are the lists that have
joined the buffer. -/
def InOrder (s : State α ν) : Prop :=
  s.flushed.flatten ++ s.buffer.items = s.appended.flatten

theorem inOrder_fresh {s : State α ν} (h : Fresh s) : InOrder s := by
  obtain ⟨start, hbuffer⟩ := h.buffer
  have hflushed : s.flushed = [] := seen_fresh h rfl fun _ => rfl
  have happended : s.appended = [] := seen_fresh h rfl fun _ => rfl
  rw [InOrder, hflushed, happended, hbuffer]
  rfl

theorem inOrder_move {s t : State α ν} {e : Event α ν} (h : Move s e t) (hs : InOrder s) :
    InOrder t := by
  cases h with
  | elapse | offerNothing | offer | measure | close | refuse | lineUp | bounce | measured
  | nobody | shut | idle | defer | directReturns | directCrashes | proberEnds | probe | learn
  | probeFails | probeCrashes | unpark | wake | flushReturns | flushFails | flushCrashes
  | takeGate | closeReturns | closeFails | closeCrashes => exact hs
  | @send n k =>
    have hflushed : State.flushed ((s.setPhase n .sending).note
        (.called (.offer n) k.offer.request)) = s.flushed := by
      rw [flushed_of_called rfl, flush?_request]
      exact List.append_nil _
    rw [InOrder, hflushed]
    exact hs
  | @append n k rest =>
    have hjoined : s.flushed.flatten ++ (State.joined s.buffer k.offer).items =
        (s.appended ++ [k.offer.items]).flatten := by
      rw [items_joined, ← List.append_assoc, List.flatten_append, List.flatten_singleton]
      exact congrArg (· ++ k.offer.items) hs
    exact hjoined.trans (congrArg List.flatten List.reverse_cons.symm)
  | @flush wait draining rest free head turn filled =>
    rw [InOrder, flushed_beginFlush]
    show (s.flushed ++ [s.buffer.items]).flatten ++ [] = s.appended.flatten
    rw [List.flatten_append, List.flatten_singleton, List.append_nil]
    exact hs

theorem inOrder_of_raced {s : State α ν} (hs : Raced s) : InOrder s :=
  of_raced inOrder_fresh (fun _ => inOrder_move) (fun _ hs => hs) hs

end Order

/-! ## What became of an accepted offer -/

section Accepted

/-- A list that joined the buffer is that of one offer, which was accepted for it. -/
theorem story_of_appended {s : State α ν} (hs : Told s) {n : Nat} {xs : List α}
    (h : .appended n xs ∈ s.history) :
    ∃ o, o.items = xs ∧
      s.story n = [.offered n o, .appended n xs, .answered n .accepted] := by
  have hmem : .appended n xs ∈ s.story n := mem_story.mpr ⟨h, rfl⟩
  cases found : s.ticket? n with
  | some k =>
    rw [hs.present found] at hmem
    cases phase : k.phase <;> simp [Ticket.tale, phase] at hmem
  | none =>
    rcases hs.past found with hstory | ⟨o, ended⟩
    · rw [hstory] at hmem
      cases hmem
    · generalize s.story n = es at ended hmem
      cases ended with
      | joined filled =>
        obtain rfl : xs = o.items := by simpa using hmem
        exact ⟨o, rfl, rfl⟩
      | _ => simp at hmem

/-- An offer of something that was accepted has joined the buffer or has been sent. -/
theorem story_of_accepted {s : State α ν} (hs : Told s) {n : Nat} {o : Offer α}
    (filled : o.items ≠ []) (offered : .offered n o ∈ s.history)
    (accepted : .answered n .accepted ∈ s.history) :
    s.story n = [.offered n o, .appended n o.items, .answered n .accepted] ∨
      s.story n = [.offered n o, .called (.offer n) o.request,
        .returned (.offer n) o.request none, .answered n .accepted] := by
  have hoffered : .offered n o ∈ s.story n := mem_story.mpr ⟨offered, rfl⟩
  have haccepted : .answered n .accepted ∈ s.story n := mem_story.mpr ⟨accepted, rfl⟩
  cases found : s.ticket? n with
  | some k =>
    rw [hs.present found] at haccepted
    cases phase : k.phase <;> simp [Ticket.tale, phase] at haccepted
  | none =>
    rcases hs.past found with hstory | ⟨p, ended⟩
    · rw [hstory] at haccepted
      cases haccepted
    · generalize s.story n = es at ended hoffered haccepted
      cases ended with
      | joined =>
        obtain rfl : o = p := by simpa using hoffered
        exact .inl rfl
      | sent _ fault =>
        obtain rfl : o = p := by simpa using hoffered
        cases fault with
        | none => exact .inr rfl
        | some fault => simp [Outcome.ofSend] at haccepted
      | nothing empty =>
        obtain rfl : o = p := by simpa using hoffered
        exact absurd empty filled
      | refused | crashed => simp at haccepted

theorem offered?_of_story (s : State α ν) (n : Nat) :
    s.offered? n =
      ((s.story n).filterMap fun
        | .offered m o => if m = n then some o else none
        | _ => none).head? := by
  rw [State.offered?, seen_eq_story]
  intro e b he
  cases e with
  | offered m o =>
    by_cases hm : m = n
    · rw [hm]
      rfl
    · simp [hm] at he
  | _ => cases he

theorem offered?_of_ticket {s : State α ν} (hs : Told s) {n : Nat} {k : Ticket α}
    (found : s.ticket? n = some k) : s.offered? n = some k.offer := by
  rw [offered?_of_story, hs.present found]
  have hn := ticket?_number found
  cases phase : k.phase <;> simp [Ticket.tale, phase, hn]

/-- An offer comes under a number of which nothing has been said. -/
theorem offered?_of_offered {s t : State α ν} {now n : Nat} {o : Offer α}
    (h : t.log = (now, .offered n o) :: s.log) (fresh : s.story n = []) (m : Nat) :
    t.offered? m = if m = n then some o else s.offered? m := by
  rw [State.offered?, seen_of_log h]
  by_cases hm : m = n
  · have hnone := offered?_of_story s n
    rw [fresh, State.offered?, List.filterMap_nil, List.head?_nil,
      List.head?_eq_none_iff] at hnone
    rw [hm, hnone]
    simp
  · have hne : ¬ n = m := fun e => hm e.symm
    simp [hm, hne, State.offered?]

theorem answered_of_accepted {s : State α ν} {n : Nat} (h : n ∈ s.accepted) :
    .answered n .accepted ∈ s.story n := by
  obtain ⟨e, he, hpick⟩ := mem_seen.mp h
  cases e with
  | answered m o =>
    cases o with
    | accepted =>
      obtain rfl := Option.some.inj hpick
      exact mem_story.mpr ⟨he, rfl⟩
    | _ => cases hpick
  | _ => cases hpick

theorem number_of_accepted {s : State α ν} (hs : Told s) {n : Nat} (h : n ∈ s.accepted) :
    n < s.nextNumber := by
  rcases Nat.lt_or_ge n s.nextNumber with hn | hn
  · exact hn
  · have hmem := answered_of_accepted h
    rw [hs.future hn] at hmem
    cases hmem

theorem sentDirectly_of_returned {s t : State α ν} {now : Nat} {c : Caller} {r : Request α}
    (h : t.log = (now, .returned c r none) :: s.log) :
    t.sentDirectly = s.sentDirectly ++ r.direct?.toList :=
  seen_of_log h

theorem flatMap_accepted {s t : State α ν}
    (offered : ∀ n ∈ s.accepted, t.offered? n = s.offered? n) :
    s.accepted.flatMap (fun n => ((t.offered? n).map Offer.items).getD []) =
      s.acceptedItems := by
  rw [State.acceptedItems, List.flatMap_def, List.flatMap_def]
  refine congrArg List.flatten (List.map_congr_left fun n hn => ?_)
  rw [offered n hn]

theorem acceptedItems_same {s t : State α ν} (accepted : t.accepted = s.accepted)
    (offered : ∀ n ∈ s.accepted, t.offered? n = s.offered? n) :
    t.acceptedItems = s.acceptedItems := by
  rw [State.acceptedItems, accepted]
  exact flatMap_accepted offered

theorem acceptedItems_accept {s t : State α ν} {n : Nat} {o : Offer α}
    (accepted : t.accepted = s.accepted ++ [n])
    (offered : ∀ n ∈ s.accepted, t.offered? n = s.offered? n) (found : t.offered? n = some o) :
    t.acceptedItems = s.acceptedItems ++ o.items := by
  rw [State.acceptedItems, accepted, List.flatMap_append, flatMap_accepted offered,
    List.flatMap_singleton, found]
  rfl

/-- What was accepted has joined the buffer or has been sent, item by item. -/
def Settled (s : State α ν) : Prop :=
  s.acceptedItems.Perm (s.appended.flatten ++ s.sentDirectly.flatten)

theorem Settled.same {s t : State α ν} (hs : Settled s)
    (accepted : t.acceptedItems = s.acceptedItems) (appended : t.appended = s.appended)
    (sent : t.sentDirectly = s.sentDirectly) : Settled t := by
  rw [Settled, accepted, appended, sent]
  exact hs

theorem Settled.join {s t : State α ν} (hs : Settled s) {xs : List α}
    (accepted : t.acceptedItems = s.acceptedItems ++ xs)
    (appended : t.appended = s.appended ++ [xs]) (sent : t.sentDirectly = s.sentDirectly) :
    Settled t := by
  rw [Settled, accepted, appended, sent, List.flatten_append, List.flatten_singleton]
  calc (s.acceptedItems ++ xs).Perm (s.appended.flatten ++ s.sentDirectly.flatten ++ xs) :=
        List.Perm.append_right xs hs
    _ = s.appended.flatten ++ (s.sentDirectly.flatten ++ xs) := List.append_assoc _ _ _
    List.Perm _ (s.appended.flatten ++ (xs ++ s.sentDirectly.flatten)) :=
        List.Perm.append_left _ List.perm_append_comm
    _ = s.appended.flatten ++ xs ++ s.sentDirectly.flatten := (List.append_assoc _ _ _).symm

theorem Settled.send {s t : State α ν} (hs : Settled s) {xs : List α}
    (accepted : t.acceptedItems = s.acceptedItems ++ xs) (appended : t.appended = s.appended)
    (sent : t.sentDirectly = s.sentDirectly ++ [xs]) : Settled t := by
  rw [Settled, accepted, appended, sent, List.flatten_append, List.flatten_singleton,
    ← List.append_assoc]
  exact List.Perm.append_right xs hs

variable [Number ν]

theorem settled_fresh {s : State α ν} (h : Fresh s) : Settled s := by
  have haccepted : s.accepted = [] := seen_fresh h rfl fun _ => rfl
  have happended : s.appended = [] := seen_fresh h rfl fun _ => rfl
  have hsent : s.sentDirectly = [] := seen_fresh h rfl fun _ => rfl
  rw [Settled, State.acceptedItems, haccepted, happended, hsent]
  exact .refl []

theorem settled_move {s t : State α ν} {e : Event α ν} (h : Move s e t) (told : Told s)
    (hs : Settled s) : Settled t := by
  cases h with
  | elapse | measure | close | refuse | lineUp | send | bounce | measured | nobody | shut | idle
  | defer | flush | directCrashes | proberEnds | probe | learn | probeFails | probeCrashes
  | unpark | wake | flushFails | flushCrashes | takeGate | closeReturns | closeFails
  | closeCrashes => exact hs
  | @offerNothing o empty =>
    have hoffered : ∀ m, State.offered? (s.note (.offered s.nextNumber o)) m = _ :=
      offered?_of_offered rfl (told.future (Nat.le_refl _))
    refine hs.same ?_ rfl rfl
    refine Eq.trans (b := s.acceptedItems ++ o.items)
      (acceptedItems_accept (n := s.nextNumber) ?_ ?_ ?_) ?_
    · exact List.reverse_cons
    · intro n hn
      exact (hoffered n).trans (if_neg (Nat.ne_of_lt (number_of_accepted told hn)))
    · exact (hoffered _).trans (if_pos rfl)
    · rw [empty, List.append_nil]
  | @offer o filled =>
    have hoffered : ∀ m, State.offered? (s.note (.offered s.nextNumber o)) m = _ :=
      offered?_of_offered rfl (told.future (Nat.le_refl _))
    refine hs.same (acceptedItems_same rfl ?_) rfl rfl
    intro n hn
    exact (hoffered n).trans (if_neg (Nat.ne_of_lt (number_of_accepted told hn)))
  | append free head found =>
    exact hs.join
      (acceptedItems_accept List.reverse_cons (fun _ _ => rfl) (offered?_of_ticket told found))
      List.reverse_cons rfl
  | @directReturns n k fault found =>
    cases fault with
    | some fault => exact hs
    | none =>
      refine hs.send
        (acceptedItems_accept List.reverse_cons (fun _ _ => rfl)
          (offered?_of_ticket told found))
        rfl ?_
      have hsent : State.sentDirectly (s.note (.returned (.offer n) k.offer.request none)) =
          s.sentDirectly ++ [k.offer.items] := by
        rw [sentDirectly_of_returned rfl, direct?_request]
        rfl
      exact hsent
  | @flushReturns items reason =>
    have hsent : State.sentDirectly
        (s.note (.returned .scheduler (State.flushRequest items) none)) = s.sentDirectly := by
      rw [sentDirectly_of_returned rfl, direct?_flushRequest]
      exact List.append_nil _
    exact hs.same rfl rfl hsent

theorem settled_of_raced {s : State α ν} (hs : Raced s) : Settled s :=
  of_raced settled_fresh (fun hs h => settled_move h (told_of_raced hs)) (fun _ hs => hs) hs

end Accepted

/-! ## Delivery -/

section Delivery

variable [Number ν]

/-- Whoever holds the lock keeps everybody else from the buffer. -/
theorem undisturbed_of_delivering {s t : State α ν} {a : Act α ν} {items : List α}
    {reason : Flush.Reason} (h : s.act? a = some t)
    (delivering : s.scheduler = .delivering items reason) :
    t.appended = s.appended ∧ t.buffer.items = s.buffer.items := by
  have held := lockHeld_of_delivering delivering
  refine act_keeps (P := fun u => u.appended = s.appended ∧ u.buffer.items = s.buffer.items)
    ?_ (fun _ hs => hs) h ⟨rfl, rfl⟩
  intro e hmove _
  cases hmove with
  | append free | flush free => rw [held] at free; cases free
  | _ => exact ⟨rfl, rfl⟩

/-- What an engine has done with the items that it was offered. -/
structure DeliversOnce (s : State α ν) : Prop where
  /-- What has been flushed and what is buffered is what has joined the buffer, in the
  order in which it did. -/
  order : s.flushed.flatten ++ s.buffer.items = s.appended.flatten
  /-- What has joined the buffer was offered, and was accepted for it. -/
  joined : ∀ {n xs}, .appended n xs ∈ s.history →
    ∃ o, o.items = xs ∧ s.story n = [.offered n o, .appended n xs, .answered n .accepted]
  /-- Nothing joins the buffer while a flush is in progress. -/
  undisturbed : ∀ {r a t}, s.openCall? .scheduler = some r → r.flush?.isSome = true →
    s.act? a = some t → t.appended = s.appended ∧ t.buffer.items = s.buffer.items
  /-- An offer of something that was accepted has joined the buffer once and never been
  sent, or has been sent once and never joined. -/
  once : ∀ {n o}, o.items ≠ [] → .offered n o ∈ s.history →
    .answered n .accepted ∈ s.history →
    s.story n = [.offered n o, .appended n o.items, .answered n .accepted] ∨
      s.story n = [.offered n o, .called (.offer n) o.request,
        .returned (.offer n) o.request none, .answered n .accepted]
  /-- When the tasks have ended nothing is left of what was accepted. -/
  complete : s.proberEnded = true → s.schedulerEnded = true →
    s.buffer.items = [] ∧
      s.acceptedItems.Perm (s.flushed.flatten ++ s.sentDirectly.flatten)

/-- Unless a sink call brings its caller down, what is accepted is delivered once and
in order, however the tasks interleave and whoever overtakes an offer on its way to the
buffer. -/
theorem deliversOnce_of_steady {s : State α ν} (hs : Steady s) : DeliversOnce s := by
  have order := inOrder_of_raced hs.raced
  have told := told_of_raced hs.raced
  refine ⟨order, story_of_appended told, ?_, story_of_accepted told, ?_⟩
  · intro r a t hopen hflush h
    have hcall := (openCall?_scheduler hs).symm.trans hopen
    cases hphase : s.scheduler with
    | delivering items reason => exact undisturbed_of_delivering h hphase
    | closing =>
      rw [hphase] at hcall
      obtain rfl := Option.some.inj hcall
      cases hflush
    | _ =>
      rw [hphase] at hcall
      cases hcall
  · intro _ hended
    have staged := staged_of_steady hs
    have hlast : s.scheduler.isLast = true := by
      cases hphase : s.scheduler <;> simp [State.schedulerEnded, hphase] at hended
      rfl
    have empty : s.buffer.items = [] := (staged.drained (staged.sealed.trans hlast)).2
    have hflushed : s.flushed.flatten = s.appended.flatten := by
      rw [← order, empty, List.append_nil]
    refine ⟨empty, ?_⟩
    rw [hflushed]
    exact settled_of_raced hs.raced

end Delivery

/-- Two offers have passed the gate when shutdown is requested.  The scheduler overtakes
both of them with a flush, and the second of them with the seal. -/
def overtakenOffers : List (Act Nat Rat) :=
  List.map .event [.offer (.all [1, 2]), .enter 0, .acquire, .schedulerWakes, .offer (.one 3),
    .enter 1, .offer (.one 4), .enter 2, .close, .schedulerWakes] ++
  .reorder [.scheduler, .offer 1, .offer 2] ::
  List.map .event [.acquire, .flushReturns none, .acquire] ++
  .reorder [.scheduler, .offer 2] :: List.map .event [.acquire, .flushReturns none] ++
  .reorder [.scheduler, .offer 2] :: List.map .event [.acquire, .acquire, .takeGate,
    .closeReturns none, .proberWakes]

theorem deliversOnce_of_overtakenOffers :
    ∃ s, State.play? .standard "sink" 50 overtakenOffers = some s ∧ Steady s ∧
      s.flushed = [[1, 2], [3]] ∧ s.accepted = [0, 1] ∧ s.offers = [] ∧ DeliversOnce s := by
  have hplay : (State.play? .standard "sink" 50 overtakenOffers).map
      (fun s => (s.flushed, s.accepted, s.offers.length)) =
        some ([[1, 2], [3]], [0, 1], 0) := by
    decide +kernel
  obtain ⟨s, hs, hfacts⟩ := Option.map_eq_some_iff.mp hplay
  simp only [Prod.mk.injEq, List.length_eq_zero_iff] at hfacts
  have steady : Steady s := steady_of_play hs (by decide)
  exact ⟨s, hs, steady, hfacts.1, hfacts.2.1, hfacts.2.2, deliversOnce_of_steady steady⟩

end Engine
end AdaptiveBatch
