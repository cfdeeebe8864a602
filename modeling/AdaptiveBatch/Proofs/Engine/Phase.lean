import AdaptiveBatch.Proofs.Engine.Line

/-!
# The last phases of the scheduler

A scheduler that drains ends in three steps: it seals the empty buffer, waits for
the gate and closes the sink.  From the seal on nothing joins the buffer, and from
the moment it has the gate to itself no direct send is under way.  Once a flush has brought
the scheduler down nobody seals, and of all this only that a seal comes after the
shutdown request is left.
-/

namespace AdaptiveBatch
namespace Engine

variable {α ν : Type}

namespace SchedulerPhase

/-- Whether the scheduler has had its last tick. -/
def isLast : SchedulerPhase α ν → Bool
  | .atGate | .closing | .ended _ => true
  | .parked | .sleeping _ | .locking _ _ | .delivering _ _ => false

/-- Whether the scheduler has got the gate to itself. -/
def isAlone : SchedulerPhase α ν → Bool
  | .closing | .ended _ => true
  | .parked | .sleeping _ | .locking _ _ | .delivering _ _ | .atGate => false

theorem isLast_of_isAlone {p : SchedulerPhase α ν} (alone : p.isAlone = true) :
    p.isLast = true := by
  cases p with
  | closing | ended => rfl
  | _ => cases alone

end SchedulerPhase

theorem ended_of_schedulerEnded {s : State α ν} (h : s.schedulerEnded = true) :
    ∃ crashed, s.scheduler = .ended crashed := by
  cases hphase : s.scheduler with
  | ended crashed => exact ⟨crashed, rfl⟩
  | _ => simp [State.schedulerEnded, hphase] at h

/-! ## Offers by phase -/

def State.Without (s : State α ν) (p : OfferPhase) : Prop := ∀ k ∈ s.offers, k.phase ≠ p

section Without

variable {s : State α ν} {p : OfferPhase}

theorem without_sending : s.sending = false ↔ s.Without .sending := by
  simp [State.sending, State.Without]

theorem without_answer (h : s.Without p) (n : Nat) (o : Outcome ν) :
    (s.answer n o).Without p :=
  fun k hk => h k (List.mem_filter.mp hk).1

theorem without_setPhase (h : s.Without p) (n : Nat) {q : OfferPhase} (other : q ≠ p) :
    (s.setPhase n q).Without p := by
  intro k hk
  obtain ⟨l, hl, rfl⟩ := List.mem_map.mp hk
  split
  · exact other
  · exact h l hl

theorem without_arrive (h : s.Without p) (other : .atGate ≠ p) (number : Nat)
    (offer : Offer α) :
    State.Without { s with offers := s.offers ++ [{ number, offer, phase := .atGate }] } p := by
  intro k hk
  rcases List.mem_append.mp hk with hk | hk
  · exact h k hk
  · rw [List.mem_singleton.mp hk]
    exact other

end Without

/-! ## The seal -/

/-- The buffer is sealed, and the scheduler drains, only once shutdown has been
requested. -/
structure Seals (s : State α ν) : Prop where
  sealed : s.buffer.sealed = true → s.closing = true
  draining : ∀ {wait}, s.scheduler = .locking wait true → s.closing = true

section Seals

variable [Number ν]

theorem seals_proceed {s : State α ν} (sealed : s.buffer.sealed = true → s.closing = true) :
    Seals s.proceed := by
  refine ⟨sealed, ?_⟩
  intro wait turn
  rcases nextWait_cases s with ⟨closing, _⟩ | ⟨_, hnext | ⟨wait', hnext⟩⟩
  · exact closing
  · cases hnext.symm.trans turn
  · cases hnext.symm.trans turn

theorem seals_fresh {s : State α ν} (h : Fresh s) : Seals s := by
  obtain ⟨start, hbuffer⟩ := h.buffer
  refine ⟨fun hsealed => ?_, fun turn => ?_⟩
  · rw [hbuffer] at hsealed
    cases hsealed
  · rw [h.scheduler] at turn
    cases turn

theorem seals_move {s t : State α ν} {e : Event α ν} (h : Move s e t) (hs : Seals s) :
    Seals t := by
  cases h with
  | close => exact ⟨fun _ => rfl, fun _ => rfl⟩
  | @append n k =>
    have hsealed := sealed_joined s.buffer k.offer
    exact ⟨fun hjoined => hs.sealed (hsealed.symm.trans hjoined), hs.draining⟩
  | shut free head turn => exact ⟨fun _ => hs.draining turn, fun turn' => by cases turn'⟩
  | idle | defer | unpark | flushReturns | flushFails => exact seals_proceed hs.sealed
  | wake => exact ⟨hs.sealed, fun turn => (SchedulerPhase.locking.inj turn).2⟩
  | flush | flushCrashes | takeGate | closeReturns | closeFails | closeCrashes =>
    exact ⟨hs.sealed, fun turn => by cases turn⟩
  | _ => exact ⟨hs.sealed, hs.draining⟩

theorem seals_of_raced {s : State α ν} (hs : Raced s) : Seals s :=
  of_raced seals_fresh (fun _ => seals_move) (fun _ hs => ⟨hs.sealed, hs.draining⟩) hs

end Seals

/-! ## The invariant -/

/-- What the phase of the scheduler says about the rest of the state. -/
structure Staged (s : State α ν) : Prop where
  sealed : s.buffer.sealed = s.scheduler.isLast
  drained : s.buffer.sealed = true → s.closing = true ∧ s.buffer.items = []
  draining : ∀ {wait}, s.scheduler = .locking wait true → s.closing = true
  alone : s.scheduler.isAlone = true → s.Without .sending
  delivering : ∀ {items reason}, s.scheduler = .delivering items reason → items ≠ []

namespace Staged

variable {s t : State α ν}

/-- Only the buffer, the scheduler, the shutdown and the direct sends matter; the
shutdown may be requested and direct sends may end. -/
theorem same (h : Staged s) (buffer : t.buffer = s.buffer := by rfl)
    (scheduler : t.scheduler = s.scheduler := by rfl)
    (closing : s.closing = true → t.closing = true := by exact id)
    (sending : s.Without .sending → t.Without .sending := by exact id) : Staged t := by
  constructor
  · rw [buffer, scheduler]
    exact h.sealed
  · intro hsealed
    rw [buffer] at hsealed ⊢
    exact ⟨closing (h.drained hsealed).1, (h.drained hsealed).2⟩
  · intro wait turn
    exact closing (h.draining (scheduler ▸ turn))
  · intro halone
    exact sending (h.alone (scheduler ▸ halone))
  · intro items reason hdelivering
    exact h.delivering (scheduler ▸ hdelivering)

theorem unsealed (h : Staged s) (early : s.scheduler.isLast = false) :
    s.buffer.sealed = false := by
  rw [h.sealed, early]

theorem empty (h : Staged s) (ended : s.schedulerEnded = true) : s.buffer.items = [] := by
  obtain ⟨crashed, hphase⟩ := ended_of_schedulerEnded ended
  refine (h.drained ?_).2
  rw [h.sealed, hphase]
  rfl

theorem early (unsealed : s.buffer.sealed = false) (early : s.scheduler.isLast = false)
    (draining : ∀ {wait}, s.scheduler = .locking wait true → s.closing = true)
    (delivering : ∀ {items reason}, s.scheduler = .delivering items reason → items ≠ []) :
    Staged s := by
  constructor
  · rw [unsealed, early]
  · intro hsealed
    rw [unsealed] at hsealed
    cases hsealed
  · exact draining
  · intro halone
    rw [SchedulerPhase.isLast_of_isAlone halone] at early
    cases early
  · exact delivering

theorem last (sealed : s.buffer.sealed = true) (last : s.scheduler.isLast = true)
    (closing : s.closing = true) (empty : s.buffer.items = [])
    (alone : s.scheduler.isAlone = true → s.Without .sending) : Staged s := by
  constructor
  · rw [sealed, last]
  · exact fun _ => ⟨closing, empty⟩
  · exact fun _ => closing
  · exact alone
  · intro items reason hdelivering
    rw [hdelivering] at last
    cases last

theorem later (h : Staged s) (old : s.scheduler.isLast = true) (buffer : t.buffer = s.buffer)
    (closing : t.closing = s.closing) (new : t.scheduler.isLast = true)
    (alone : t.scheduler.isAlone = true → t.Without .sending) : Staged t := by
  have hsealed : s.buffer.sealed = true := h.sealed.trans old
  have hdrained := h.drained hsealed
  exact last (buffer ▸ hsealed) new (closing ▸ hdrained.1) (buffer ▸ hdrained.2) alone

variable [Number ν]

theorem proceed (unsealed : s.buffer.sealed = false) : Staged s.proceed := by
  refine early unsealed ?_ ?_ ?_
  · show s.nextWait.isLast = false
    rcases nextWait_cases s with ⟨_, hnext⟩ | ⟨_, hnext | ⟨wait, hnext⟩⟩ <;> rw [hnext] <;> rfl
  · refine (seals_proceed fun hsealed => ?_).draining
    rw [unsealed] at hsealed
    cases hsealed
  · intro items reason hdelivering
    rcases nextWait_cases s with ⟨_, hnext⟩ | ⟨_, hnext | ⟨wait, hnext⟩⟩ <;>
      cases hnext.symm.trans hdelivering

end Staged

variable [Number ν]

theorem staged_fresh {s : State α ν} (h : Fresh s) : Staged s := by
  obtain ⟨start, hbuffer⟩ := h.buffer
  refine .early ?_ ?_ ?_ ?_
  · rw [hbuffer]
    rfl
  · rw [h.scheduler]
    rfl
  · intro wait turn
    rw [h.scheduler] at turn
    cases turn
  · intro items reason hdelivering
    rw [h.scheduler] at hdelivering
    cases hdelivering

theorem staged_move {s t : State α ν} {e : Event α ν} (calm : e.crashes = false)
    (h : Move s e t) (hs : Staged s) : Staged t := by
  cases h with
  | elapse | offerNothing | measure | measured | nobody | proberEnds | probe | learn
  | probeFails => exact hs.same
  | close => exact hs.same rfl rfl (fun _ => rfl)
  | offer => exact hs.same rfl rfl id (without_arrive · (by decide) _ _)
  | refuse => exact hs.same rfl rfl id (without_answer · _ _)
  | lineUp => exact hs.same rfl rfl id (without_setPhase · _ (by decide))
  | bounce | directReturns =>
    exact hs.same rfl rfl id fun still => without_answer (s := s) still _ .accepted
  | @send n k found phase opened running =>
    -- the buffer is not sealed while the engine runs, so the scheduler is not alone
    have hearly : s.scheduler.isLast = false := by
      rw [← hs.sealed, Bool.eq_false_iff]
      intro hsealed
      have hclosing := (hs.drained hsealed).1
      rw [running] at hclosing
      cases hclosing
    exact .early (hs.unsealed hearly) hearly hs.draining hs.delivering
  | @append n k rest free head found unsealed =>
    have hearly : s.scheduler.isLast = false := hs.sealed.symm.trans unsealed
    exact .early ((sealed_joined _ _).trans unsealed) hearly hs.draining hs.delivering
  | shut free head turn empty =>
    exact .last rfl rfl (hs.draining turn) empty (fun halone => by cases halone)
  | idle free head turn | defer free head turn =>
    exact .proceed (hs.unsealed (by rw [turn]; rfl))
  | flush free head turn filled =>
    refine .early (hs.unsealed (by rw [turn]; rfl)) rfl ?_ ?_
    · intro wait turn'
      cases turn'
    · intro items reason hdelivering
      cases hdelivering
      exact filled
  | unpark old | flushReturns old | flushFails fault old =>
    exact .proceed (hs.unsealed (by rw [old]; rfl))
  | wake asleep =>
    refine .early (hs.unsealed (by rw [asleep]; rfl)) rfl ?_ ?_
    · intro wait turn
      exact (SchedulerPhase.locking.inj turn).2
    · intro items reason hdelivering
      cases hdelivering
  | takeGate waits still =>
    exact hs.later (by rw [waits]; rfl) rfl rfl rfl (fun _ => without_sending.mp still)
  | closeReturns closing | closeFails fault closing =>
    exact hs.later (by rw [closing]; rfl) rfl rfl rfl (fun _ => hs.alone (by rw [closing]; rfl))
  | directCrashes | probeCrashes | flushCrashes | closeCrashes => cases calm

theorem staged_of_steady {s : State α ν} (hs : Steady s) : Staged s :=
  of_steady staged_fresh (fun _ calm => staged_move calm) (fun _ hs => hs.same) hs

end Engine
end AdaptiveBatch
