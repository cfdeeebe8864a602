import AdaptiveBatch.Proofs.Engine.Line

/-!
# The story of an offer

All that the log says about one offer is one of a few short lists.  An offer under
way has arrived and has perhaps begun its sink call; one that has ended was empty,
was refused, was sent and shares the fate of that call, or has joined the buffer.
That it did one of these once, and none of the others, can be read off the list.
-/

namespace AdaptiveBatch
namespace Engine

variable {α ν : Type}

/-- What the log says about an offer under way. -/
def Ticket.tale (k : Ticket α) : List (Entry α ν) :=
  match k.phase with
  | .atGate | .atLock => [.offered k.number k.offer]
  | .sending =>
    [.offered k.number k.offer, .called (.offer k.number) k.offer.request]

/-- What the log says about an offer that has ended, to an engine of this name. -/
inductive Ended (name : String) (n : Nat) (o : Offer α) : List (Entry α ν) → Prop
  | nothing (empty : o.items = []) : Ended name n o [.offered n o, .answered n .accepted]
  | refused (filled : o.items ≠ []) :
      Ended name n o [.offered n o, .answered n (.refused (.closed name))]
  | sent (filled : o.items ≠ []) (fault : Option Fault) :
      Ended name n o
        [.offered n o, .called (.offer n) o.request, .returned (.offer n) o.request fault,
          .answered n (.ofSend fault)]
  | crashed (filled : o.items ≠ []) :
      Ended name n o
        [.offered n o, .called (.offer n) o.request, .answered n .crashed]
  | joined (filled : o.items ≠ []) :
      Ended name n o [.offered n o, .appended n o.items, .answered n .accepted]

/-- Every offer has a story. -/
structure Told (s : State α ν) : Prop where
  present : ∀ {n k}, s.ticket? n = some k → s.story n = k.tale
  past : ∀ {n}, s.ticket? n = none →
    s.story n = [] ∨ ∃ o, Ended s.settings.name n o (s.story n)
  future : ∀ {n}, s.nextNumber ≤ n → s.story n = []

/-- What is said about an offer is added to its story. -/
theorem story_own {s t : State α ν} {now n : Nat} (es : List (Entry α ν))
    (h : t.log = (es.map fun e => (now, e)).reverse ++ s.log)
    (about : ∀ e ∈ es, e.number? = some n) : t.story n = s.story n ++ es := by
  have hpicked : es.filterMap (fun e => if e.number? = some n then some e else none) = es := by
    clear h
    induction es with
    | nil => rfl
    | cons e es ih =>
      rw [List.filterMap_cons, if_pos (about e List.mem_cons_self),
        ih fun e' he' => about e' (List.mem_cons_of_mem e he')]
  rw [State.story, State.seen, h, List.filterMap_append, List.reverse_append,
    List.filterMap_reverse, List.reverse_reverse, List.filterMap_map]
  exact congrArg (s.story n ++ ·) hpicked

/-- What is said about one offer is not part of another one's story. -/
theorem story_other {s t : State α ν} {now n m : Nat} (es : List (Entry α ν))
    (h : t.log = (es.map fun e => (now, e)).reverse ++ s.log)
    (about : ∀ e ∈ es, e.number? = some n) (other : m ≠ n) : t.story m = s.story m := by
  have hnone : ∀ e ∈ es, ¬ e.number? = some m := fun e he hm =>
    other (Option.some.inj (hm.symm.trans (about e he)))
  have hpicked : es.filterMap (fun e => if e.number? = some m then some e else none) = [] := by
    rw [List.filterMap_eq_nil_iff]
    exact fun e he => if_neg (hnone e he)
  rw [State.story, State.seen, h, List.filterMap_append, List.reverse_append,
    List.filterMap_reverse, List.reverse_reverse, List.filterMap_map]
  exact (congrArg (s.story m ++ ·) hpicked).trans (List.append_nil _)

theorem tale_waiting {k : Ticket α} {n : Nat} (number : k.number = n)
    (phase : k.phase ≠ .sending) :
    (k.tale : List (Entry α ν)) = [.offered n k.offer] := by
  cases hphase : k.phase with
  | sending => exact absurd hphase phase
  | _ => simp [Ticket.tale, hphase, number]

theorem tale_sending {k : Ticket α} {n : Nat} (number : k.number = n)
    (phase : k.phase = .sending) :
    (k.tale : List (Entry α ν)) =
      [.offered n k.offer, .called (.offer n) k.offer.request] := by
  simp [Ticket.tale, phase, number]

namespace Told

variable {s t : State α ν}

theorem same (h : Told s) (story : ∀ n, t.story n = s.story n := by exact fun _ => rfl)
    (offers : t.offers = s.offers := by rfl)
    (next : s.nextNumber ≤ t.nextNumber := by exact Nat.le_refl _)
    (settings : t.settings = s.settings := by rfl) : Told t := by
  have hticket : ∀ n, t.ticket? n = s.ticket? n := fun n => by
    simp only [State.ticket?, offers]
  constructor
  · intro n k hk
    rw [story]
    exact h.present (hticket n ▸ hk)
  · intro n hn
    rw [story, settings]
    exact h.past (hticket n ▸ hn)
  · intro n hn
    rw [story]
    exact h.future (Nat.le_trans next hn)

/-- Something is said about one offer, which then is under way or has ended. -/
theorem tell (h : Told s) {n : Nat} (es : List (Entry α ν))
    (log : t.log = (es.map fun e => (s.now, e)).reverse ++ s.log)
    (about : ∀ e ∈ es, e.number? = some n) (known : n < t.nextNumber)
    (next : s.nextNumber ≤ t.nextNumber) (settings : t.settings = s.settings)
    (others : ∀ m, m ≠ n → t.ticket? m = s.ticket? m)
    (present : ∀ k, t.ticket? n = some k → s.story n ++ es = k.tale)
    (past : t.ticket? n = none → ∃ o, Ended s.settings.name n o (s.story n ++ es)) :
    Told t := by
  constructor
  · intro m k hk
    by_cases hm : m = n
    · subst hm
      rw [story_own es log about]
      exact present k hk
    · rw [story_other es log about hm]
      exact h.present (others m hm ▸ hk)
  · intro m hk
    rw [settings]
    by_cases hm : m = n
    · subst hm
      rw [story_own es log about]
      exact .inr (past hk)
    · rw [story_other es log about hm]
      exact h.past (others m hm ▸ hk)
  · intro m hm
    have hne : m ≠ n := fun e => Nat.not_lt.mpr hm (e ▸ known)
    rw [story_other es log about hne]
    exact h.future (Nat.le_trans next hm)

theorem goOn (h : Told s) {n : Nat} {k : Ticket α} {p : OfferPhase}
    (es : List (Entry α ν)) (log : t.log = (es.map fun e => (s.now, e)).reverse ++ s.log)
    (about : ∀ e ∈ es, e.number? = some n) (found : s.ticket? n = some k)
    (known : n < s.nextNumber) (next : t.nextNumber = s.nextNumber)
    (settings : t.settings = s.settings) (offers : t.offers = (s.setPhase n p).offers)
    (tale : k.tale ++ es = Ticket.tale { k with phase := p }) : Told t := by
  have hticket : ∀ m, t.ticket? m =
      (s.ticket? m).map fun l => if m = n then { l with phase := p } else l := by
    intro m
    rw [← ticket?_setPhase]
    simp only [State.ticket?, offers]
  refine h.tell es log about (next ▸ known) (Nat.le_of_eq next.symm) settings ?_ ?_ ?_
  · intro m hm
    rw [hticket]
    simp [hm]
  · intro l hl
    rw [hticket, found, Option.map_some, if_pos rfl] at hl
    rw [← Option.some.inj hl, h.present found]
    exact tale
  · intro hnone
    rw [hticket, found] at hnone
    cases hnone

theorem finish (h : Told s) {n : Nat} {k : Ticket α} (es : List (Entry α ν))
    (log : t.log = (es.map fun e => (s.now, e)).reverse ++ s.log)
    (about : ∀ e ∈ es, e.number? = some n) (found : s.ticket? n = some k)
    (known : n < s.nextNumber) (next : t.nextNumber = s.nextNumber)
    (settings : t.settings = s.settings)
    (offers : ∀ m, t.ticket? m = if m = n then none else s.ticket? m)
    (ended : Ended s.settings.name n k.offer (k.tale ++ es)) : Told t := by
  refine h.tell es log about (next ▸ known) (Nat.le_of_eq next.symm) settings ?_ ?_ ?_
  · intro m hm
    rw [offers, if_neg hm]
  · intro l hl
    rw [offers, if_pos rfl] at hl
    cases hl
  · intro _
    rw [h.present found]
    exact ⟨k.offer, ended⟩

end Told

variable [Number ν]

theorem told_fresh {s : State α ν} (h : Fresh s) : Told s := by
  have hstory : ∀ n, s.story n = [] := fun n => seen_fresh h rfl fun _ => rfl
  constructor
  · intro n k hk
    simp [State.ticket?, h.offers] at hk
  · exact fun _ => .inl (hstory _)
  · exact fun _ => hstory _

theorem told_move {s t : State α ν} {e : Event α ν} (h : Move s e t) (ho : Orderly s)
    (hs : Told s) : Told t := by
  cases h with
  | elapse | close | proberEnds | probe | learn | probeFails | probeCrashes | measured
  | nobody | shut | idle | defer | flush | unpark | wake | flushReturns | flushFails
  | flushCrashes | takeGate | closeReturns | closeFails | closeCrashes => exact hs.same
  | measure => exact hs.same (fun _ => rfl) rfl (Nat.le_succ _)
  | @offerNothing o empty =>
    refine hs.tell [.offered s.nextNumber o, .answered s.nextNumber .accepted] rfl
      (by simp [Entry.number?]) (Nat.lt_succ_self _) (Nat.le_succ _) rfl (fun _ _ => rfl) ?_ ?_
    · intro k hk
      exact absurd (ho.known hk) (Nat.lt_irrefl _)
    · intro _
      rw [hs.future (Nat.le_refl _)]
      exact ⟨o, .nothing empty⟩
  | @offer o filled =>
    have hticket : ∀ m, _ = _ := fun m =>
      ticket?_append s { number := s.nextNumber, offer := o, phase := .atGate } m ho.unknown
    refine hs.tell [.offered s.nextNumber o] rfl (by simp [Entry.number?])
      (Nat.lt_succ_self _) (Nat.le_succ _) rfl ?_ ?_ ?_
    · intro m hm
      exact (hticket m).trans (if_neg hm)
    · intro k hk
      have hk' := (hticket s.nextNumber).symm.trans hk
      rw [if_pos rfl] at hk'
      rw [hs.future (Nat.le_refl _), ← Option.some.inj hk']
      rfl
    · intro hk
      have hk' := (hticket s.nextNumber).symm.trans hk
      rw [if_pos rfl] at hk'
      cases hk'
  | @lineUp n k found phase =>
    refine hs.goOn (k := k) [] rfl (by simp) found (ho.known found) rfl rfl rfl ?_
    have hnumber := ticket?_number found
    rw [tale_waiting hnumber (by simp [phase])]
    exact (tale_waiting (k := { k with phase := .atLock }) hnumber (by simp)).symm
  | @send n k found phase =>
    refine hs.goOn (k := k) [.called (.offer n) k.offer.request] rfl (by simp [Entry.number?])
      found (ho.known found) rfl rfl rfl ?_
    have hnumber := ticket?_number found
    rw [tale_waiting hnumber (by simp [phase])]
    exact (tale_sending (k := { k with phase := .sending }) hnumber rfl).symm
  | @refuse n k found phase =>
    refine hs.finish (k := k) [.answered n _] rfl (by simp [Entry.number?]) found
      (ho.known found) rfl rfl (ticket?_answer s n · _) ?_
    rw [tale_waiting (ticket?_number found) (by simp [phase])]
    exact .refused (ho.filled found)
  | @bounce n k rest free head found =>
    refine hs.finish (k := k) [.answered n _] rfl (by simp [Entry.number?]) found
      (ho.known found) rfl rfl (ticket?_answer { s with line := rest } n · _) ?_
    rw [tale_waiting (ticket?_number found) (by simp [ho.atLock_of_head head found])]
    exact .refused (ho.filled found)
  | @append n k rest free head found =>
    refine hs.finish (k := k) [.appended n k.offer.items, .answered n .accepted] rfl
      (by simp [Entry.number?]) found (ho.known found) rfl rfl
      (ticket?_answer s n · .accepted) ?_
    rw [tale_waiting (ticket?_number found) (by simp [ho.atLock_of_head head found])]
    exact .joined (ho.filled found)
  | @directReturns n k fault found phase =>
    refine hs.finish (k := k)
      [.returned (.offer n) k.offer.request fault, .answered n (.ofSend fault)] rfl
      (by simp [Entry.number?]) found (ho.known found) rfl rfl
      (ticket?_answer s n · .accepted) ?_
    rw [tale_sending (ticket?_number found) phase]
    exact .sent (ho.filled found) fault
  | @directCrashes n k found phase =>
    refine hs.finish (k := k) [.answered n .crashed] rfl (by simp [Entry.number?]) found
      (ho.known found) rfl rfl (ticket?_answer s n · _) ?_
    rw [tale_sending (ticket?_number found) phase]
    exact .crashed (ho.filled found)

theorem told_of_raced {s : State α ν} (hs : Raced s) : Told s :=
  of_raced told_fresh (fun hs h => told_move h (orderly_of_raced hs)) (fun _ hs => hs.same) hs

end Engine
end AdaptiveBatch
