import AdaptiveBatch.Proofs.Engine.Failure
import AdaptiveBatch.Proofs.Engine.Ledger
import AdaptiveBatch.Proofs.Engine.Refusal

/-!
# Engines whose sink never fails

An engine to which items are offered one by one, and whose sink takes all that it is
handed, publishes no failure.  Each offer that it accepts stands for one item that has been
sent or has joined the buffer, and the only other answer that it gives is that it is closed.
-/

namespace AdaptiveBatch
namespace Engine

variable {α ν : Type}

/-- Whether the sink does what it is asked to in an event, and what is offered in it is one
item. -/
def Event.smooth [Number ν] : Event α ν → Bool
  | .offer (.all _) | .measure => false
  | .directReturns _ fault | .flushReturns fault | .closeReturns fault => fault.isNone
  | .probeReturns reply => reply.cost?.isSome
  | .directCrashes _ | .probeCrashes | .flushCrashes | .closeCrashes => false
  | _ => true

/-- What is so of an engine as long as its sink does not fail. -/
structure Smooth [Number ν] (s : State α ν) : Prop where
  raced : Raced s
  staged : Staged s
  booked : Booked s
  returns : FlushesReturn s
  crashed : s.crashed = []
  singles : ∀ k ∈ s.offers, ∃ x, k.offer = .one x
  quiet : s.failures = []
  probes : s.counters.probeFailures = 0
  faultless : ∀ c ∈ s.returned, c.2 = none
  prober : s.prober ≠ .ended true
  scheduler : s.scheduler ≠ .ended true
  /-- Every acceptance is one item sent or one item in the buffer. -/
  accounted : s.accepted.length = s.returnedDirects.flatten.length + s.appended.flatten.length

theorem crashes_of_smooth [Number ν] {e : Event α ν} (smooth : e.smooth = true) :
    e.crashes = false := by
  cases e with
  | directCrashes | probeCrashes | flushCrashes | closeCrashes => cases smooth
  | _ => rfl

/-! ## Steps -/

section Steps

variable [Number ν]

theorem ended_nextWait (s : State α ν) (crashed : Bool) : s.nextWait ≠ .ended crashed := by
  intro hended
  have halone := isAlone_nextWait s
  rw [hended] at halone
  cases halone

theorem singles_arrive {s : State α ν} {o : Offer α}
    (smooth : (Event.offer o : Event α ν).smooth = true) (hs : Smooth s) (number : Nat) :
    ∀ k ∈ s.offers ++ [{ number, offer := o, phase := .atGate }], ∃ x, k.offer = .one x := by
  intro k hk
  rcases List.mem_append.mp hk with hk | hk
  · exact hs.singles k hk
  · rw [List.mem_singleton.mp hk]
    cases o with
    | one x => exact ⟨x, rfl⟩
    | all xs => cases smooth

theorem singles_setPhase {s : State α ν} (hs : Smooth s) (n : Nat) (p : OfferPhase) :
    ∀ k ∈ (s.setPhase n p).offers, ∃ x, k.offer = .one x := by
  intro k hk
  obtain ⟨l, hl, rfl⟩ := List.mem_map.mp hk
  obtain ⟨x, hx⟩ := hs.singles l hl
  refine ⟨x, ?_⟩
  split <;> exact hx

theorem singles_answer {s : State α ν} (hs : Smooth s) (n : Nat) (o : Outcome ν) :
    ∀ k ∈ (s.answer n o).offers, ∃ x, k.offer = .one x :=
  fun k hk => hs.singles k (List.mem_filter.mp hk).1

theorem singles_move {s t : State α ν} {e : Event α ν} (h : Move s e t)
    (smooth : e.smooth = true) (hs : Smooth s) : ∀ k ∈ t.offers, ∃ x, k.offer = .one x := by
  cases h with
  | offer => exact singles_arrive smooth hs _
  | lineUp | send => exact singles_setPhase hs _ _
  | refuse | directCrashes => exact singles_answer hs _ _
  | bounce | append | directReturns => exact singles_answer hs _ .accepted
  | _ => exact hs.singles

theorem quiet_move {s t : State α ν} {e : Event α ν} (h : Move s e t)
    (smooth : e.smooth = true) (hs : Smooth s) : t.failures = [] := by
  have hquiet := hs.quiet
  rw [failures_seen] at hquiet ⊢
  cases h with
  | probeFails probing fails =>
    obtain ⟨v, counts⟩ := Option.isSome_iff_exists.mp smooth
    rw [judgeProbe_error, ProbeReply.error?_of_cost? counts] at fails
    cases fails
  | flushFails | closeFails => cases smooth
  | _ => exact hquiet

theorem probes_move {s t : State α ν} {e : Event α ν} (h : Move s e t)
    (smooth : e.smooth = true) (hs : Smooth s) : t.counters.probeFailures = 0 := by
  cases h with
  | probeFails probing fails =>
    obtain ⟨v, counts⟩ := Option.isSome_iff_exists.mp smooth
    rw [judgeProbe_error, ProbeReply.error?_of_cost? counts] at fails
    cases fails
  | @flushReturns items reason =>
    show (s.counters.flushed items.length).probeFailures = 0
    rw [Metrics.Counters.flushed_eq]
    exact hs.probes
  | flushFails => cases smooth
  | _ => exact hs.probes

theorem faultless_returned {s t : State α ν} (hs : Smooth s) {r : Request α}
    (returned : t.returned = s.returned ++ [(r, none)]) : ∀ c ∈ t.returned, c.2 = none := by
  intro c hc
  rw [returned, List.mem_append, List.mem_singleton] at hc
  rcases hc with hc | rfl
  · exact hs.faultless c hc
  · rfl

theorem faultless_move {s t : State α ν} {e : Event α ν} (h : Move s e t)
    (smooth : e.smooth = true) (hs : Smooth s) : ∀ c ∈ t.returned, c.2 = none := by
  cases h with
  | directReturns fault =>
    cases fault with
    | none => exact faultless_returned hs List.reverse_cons
    | some f => cases smooth
  | flushReturns | closeReturns => exact faultless_returned hs List.reverse_cons
  | flushFails | closeFails => cases smooth
  | _ => exact hs.faultless

/-- The item that joins the buffer is the one that is accepted. -/
theorem accounted_join {s t : State α ν} (hs : Smooth s) {n : Nat} {xs : List α}
    (one : xs.length = 1) (accepted : t.accepted = s.accepted ++ [n])
    (directs : t.returnedDirects = s.returnedDirects)
    (appended : t.appended = s.appended ++ [xs]) :
    t.accepted.length = t.returnedDirects.flatten.length + t.appended.flatten.length := by
  have haccounted := hs.accounted
  rw [accepted, directs, appended, List.flatten_append, List.flatten_singleton,
    List.length_append, List.length_append, List.length_singleton, one]
  omega

/-- The item that has been sent is the one that is accepted. -/
theorem accounted_sent {s t : State α ν} (hs : Smooth s) {n : Nat} {xs : List α}
    (one : xs.length = 1) (accepted : t.accepted = s.accepted ++ [n])
    (directs : t.returnedDirects = s.returnedDirects ++ [xs])
    (appended : t.appended = s.appended) :
    t.accepted.length = t.returnedDirects.flatten.length + t.appended.flatten.length := by
  have haccounted := hs.accounted
  rw [accepted, directs, appended, List.flatten_append, List.flatten_singleton,
    List.length_append, List.length_append, List.length_singleton, one]
  omega

theorem accounted_call {s t : State α ν} (hs : Smooth s) (accepted : t.accepted = s.accepted)
    (directs : t.returnedDirects = s.returnedDirects) (appended : t.appended = s.appended) :
    t.accepted.length = t.returnedDirects.flatten.length + t.appended.flatten.length := by
  rw [accepted, directs, appended]
  exact hs.accounted

theorem accounted_move {s t : State α ν} {e : Event α ν} (h : Move s e t)
    (smooth : e.smooth = true) (hs : Smooth s) :
    t.accepted.length = t.returnedDirects.flatten.length + t.appended.flatten.length := by
  have hone : ∀ {n k}, s.ticket? n = some k → k.offer.items.length = 1 := by
    intro n k found
    obtain ⟨x, hx⟩ := hs.singles k (ticket?_mem found)
    rw [hx]
    rfl
  cases h with
  | @offerNothing o empty =>
    cases o with
    | one x => cases empty
    | all xs => cases smooth
  | append free head found =>
    exact accounted_join hs (hone found) List.reverse_cons rfl List.reverse_cons
  | @directReturns n k fault found =>
    cases fault with
    | some f => cases smooth
    | none =>
      have hreturned := returnedDirects_note s (.offer n) k.offer.request none
      rw [direct?_request] at hreturned
      exact accounted_sent hs (hone found) List.reverse_cons hreturned rfl
  | @flushReturns items reason =>
    exact accounted_call hs rfl
      (returnedDirects_other s .scheduler none (direct?_flushRequest items)) rfl
  | closeReturns =>
    exact accounted_call hs rfl (returnedDirects_other s .scheduler none rfl) rfl
  | directCrashes | probeCrashes | flushCrashes | closeCrashes | flushFails | closeFails =>
    cases smooth
  | _ => exact hs.accounted

/-- An offer is accepted when it ends. -/
theorem accepted_move {s t : State α ν} {e : Event α ν} (h : Move s e t)
    (smooth : e.smooth = true) :
    t.accepted = s.accepted ∨
      ∃ n k, s.ticket? n = some k ∧ t.accepted = s.accepted ++ [n] := by
  cases h with
  | @offerNothing o empty =>
    cases o with
    | one x => cases empty
    | all xs => cases smooth
  | @append n k rest free head found => exact .inr ⟨n, k, found, List.reverse_cons⟩
  | @directReturns n k fault found =>
    cases fault with
    | none => exact .inr ⟨n, k, found, List.reverse_cons⟩
    | some f => cases smooth
  | _ => exact .inl rfl

/-- Offers come from outside only. -/
theorem offers_move {s t : State α ν} {e : Event α ν} (h : Move s e t)
    (inside : e.arrives = false) : ∀ k ∈ t.offers, ∃ l ∈ s.offers, l.number = k.number := by
  intro k hk
  have hanswer : ∀ n, k ∈ s.offers.filter (fun l => decide (l.number ≠ n)) →
      ∃ l ∈ s.offers, l.number = k.number :=
    fun n hk => ⟨k, (List.mem_filter.mp hk).1, rfl⟩
  have hphase : ∀ n p, k ∈ (s.setPhase n p).offers → ∃ l ∈ s.offers, l.number = k.number := by
    intro n p hk
    obtain ⟨l, hl, rfl⟩ := List.mem_map.mp hk
    exact ⟨l, hl, by split <;> rfl⟩
  cases h with
  | offerNothing | offer | measure => cases inside
  | lineUp | send => exact hphase _ _ hk
  | refuse | bounce | append | directReturns | directCrashes => exact hanswer _ hk
  | _ => exact ⟨k, hk, rfl⟩

/-- Only a call of the sink brings a task down. -/
theorem unharmed_move {s t : State α ν} {e : Event α ν} (h : Move s e t)
    (calm : e.crashes = false) (hs : s.prober ≠ .ended true ∧ s.scheduler ≠ .ended true) :
    t.prober ≠ .ended true ∧ t.scheduler ≠ .ended true := by
  obtain ⟨hprober, hscheduler⟩ := hs
  cases h with
  | probeCrashes | flushCrashes | closeCrashes => cases calm
  | proberEnds => exact ⟨by simp, hscheduler⟩
  | probe => exact ⟨by simp [State.note], hscheduler⟩
  | learn | probeFails =>
    refine ⟨?_, hscheduler⟩
    simp only [State.proceedProber]
    split <;> simp
  | idle | defer | unpark | flushReturns | flushFails => exact ⟨hprober, ended_nextWait _ _⟩
  | shut | flush | wake | takeGate | closeReturns | closeFails =>
    exact ⟨hprober, by simp [State.beginFlush, State.enqueue, State.note, State.reportFailure]⟩
  | _ => exact ⟨hprober, hscheduler⟩

theorem smooth_step {s t : State α ν} {e : Event α ν} (hs : Smooth s)
    (smooth : e.smooth = true) (h : s.step? e = some t) : Smooth t := by
  have hmove := move_of_step h
  have hunharmed := unharmed_move hmove (crashes_of_smooth smooth) ⟨hs.prober, hs.scheduler⟩
  exact
    { raced := .act (a := .event e) hs.raced h
      staged := staged_move (crashes_of_smooth smooth) hmove hs.staged
      booked := booked_move hmove hs.staged hs.booked
      returns := flushesReturn_move (crashes_of_smooth smooth) hmove hs.returns
      crashed := crashed_move (crashes_of_smooth smooth) hmove hs.crashed
      singles := singles_move hmove smooth hs
      quiet := quiet_move hmove smooth hs
      probes := probes_move hmove smooth hs
      faultless := faultless_move hmove smooth hs
      prober := hunharmed.1
      scheduler := hunharmed.2
      accounted := accounted_move hmove smooth hs }

/-- Those in line may come to the lock in any order. -/
theorem smooth_reorder {s : State α ν} {line : List Waiter} (order : s.line.Perm line)
    (hs : Smooth s) : Smooth { s with line } := by
  have hact : s.act? (.reorder line) = some { s with line } := by
    rw [State.act?, if_pos order]
  exact
    { raced := .act hs.raced hact
      staged := hs.staged.same
      booked := ⟨hs.booked.buffered, hs.booked.flushed, hs.booked.batches, hs.booked.singles,
        hs.booked.failures, hs.booked.directCalls, hs.booked.directItems⟩
      returns := hs.returns
      crashed := hs.crashed
      singles := hs.singles
      quiet := hs.quiet
      probes := hs.probes
      faultless := hs.faultless
      prober := hs.prober
      scheduler := hs.scheduler
      accounted := hs.accounted }

theorem smooth_of_spawn {settings : Settings ν} {sink : String} {now delay : Nat}
    {reply : ProbeReply ν} {s : State α ν}
    (h : State.spawn settings sink now delay reply = .ok s) : Smooth s := by
  have fresh := fresh_of_spawn h
  have hreturned : s.returned = [] := seen_fresh fresh rfl fun _ => rfl
  constructor
  · exact .spawn h
  · exact staged_fresh fresh
  · exact booked_fresh fresh
  · exact flushesReturn_fresh fresh
  · exact crashed_fresh fresh
  · rw [fresh.offers]
    exact fun k hk => absurd hk List.not_mem_nil
  · rw [failures_seen]
    exact seen_fresh fresh rfl fun _ => rfl
  · rw [fresh.counters]
    rfl
  · rw [hreturned]
    exact fun c hc => absurd hc List.not_mem_nil
  · simp [fresh.prober]
  · simp [fresh.scheduler]
  · have haccepted : s.accepted = [] := seen_fresh fresh rfl fun _ => rfl
    have happended : s.appended = [] := seen_fresh fresh rfl fun _ => rfl
    rw [State.returnedDirects, hreturned, haccepted, happended]
    rfl

end Steps

/-! ## Answers -/

theorem mem_story_of_outcome? {s : State α ν} {n now : Nat} {o : Outcome ν}
    (h : s.outcome? n = some (now, o)) : .answered n o ∈ s.story n := by
  obtain ⟨p, hp, hpick⟩ := List.exists_of_findSome?_eq_some h
  obtain ⟨time, e⟩ := p
  cases e with
  | answered m o' =>
    by_cases hm : m = n
    · subst hm
      have ho : (time, o') = (now, o) := by simpa using hpick
      obtain ⟨-, rfl⟩ := Prod.mk.inj ho
      refine mem_story.mpr ⟨?_, rfl⟩
      exact List.mem_reverse.mpr (List.mem_filterMap.mpr ⟨_, hp, rfl⟩)
    · simp [hm] at hpick
  | _ => cases hpick

theorem outcome?_of_story {s : State α ν} {n : Nat} {o : Outcome ν}
    (h : .answered n o ∈ s.story n) : ∃ now o', s.outcome? n = some (now, o') := by
  obtain ⟨p, hp, hpick⟩ := List.mem_filterMap.mp (List.mem_reverse.mp (mem_story.mp h).1)
  obtain ⟨time, e⟩ := p
  obtain rfl : e = .answered n o := Option.some.inj hpick
  have hsome : (s.outcome? n).isSome = true := by
    rw [State.outcome?, List.findSome?_isSome_iff]
    exact ⟨_, hp, by simp⟩
  obtain ⟨p, hp⟩ := Option.isSome_iff_exists.mp hsome
  exact ⟨p.1, p.2, hp⟩

theorem mem_accepted {s : State α ν} {n : Nat} :
    n ∈ s.accepted ↔ .answered n .accepted ∈ s.story n := by
  rw [State.accepted, mem_seen, mem_story]
  constructor
  · rintro ⟨e, he, hpick⟩
    cases e with
    | answered m o =>
      cases o with
      | accepted =>
        obtain rfl := Option.some.inj hpick
        exact ⟨he, rfl⟩
      | _ => cases hpick
    | _ => cases hpick
  · exact fun h => ⟨_, h.1, rfl⟩

theorem ticket?_of_answered {s : State α ν} (hs : Told s) {n : Nat} {o : Outcome ν}
    (h : .answered n o ∈ s.story n) : s.ticket? n = none := by
  cases found : s.ticket? n with
  | none => rfl
  | some k =>
    rw [hs.present found] at h
    cases phase : k.phase <;> simp [Ticket.tale, phase] at h

/-- An offer that has come and is no longer under way has got an answer. -/
theorem outcome?_of_gone [Number ν] {s : State α ν} (hs : Told s) {n : Nat}
    (gone : s.ticket? n = none) (came : s.story n ≠ []) :
    ∃ now o, s.outcome? n = some (now, o) := by
  rcases hs.past gone with hstory | ⟨o, ended⟩
  · exact absurd hstory came
  · have hlast : ∃ o', (s.story n).getLast? = some (.answered n o') := by
      generalize s.story n = es at ended
      cases ended <;> exact ⟨_, rfl⟩
    obtain ⟨o', hlast⟩ := hlast
    exact outcome?_of_story (List.mem_of_getLast? hlast)

/-- The answer is that the offer is accepted, or that the engine is closed, and then it is. -/
theorem answer_of_smooth [Number ν] {s : State α ν} (hs : Smooth s) {n now : Nat}
    {o : Outcome ν} (h : s.outcome? n = some (now, o)) :
    (o = .accepted ∧ n ∈ s.accepted) ∨
      (o = .refused (.closed s.settings.name) ∧ n ∉ s.accepted ∧ s.closing = true) := by
  have told := told_of_raced hs.raced
  have hanswer := mem_story_of_outcome? h
  have gone := ticket?_of_answered told hanswer
  have hreturned : ∀ r fault, .returned (.offer n) r fault ∈ s.story n → fault = none :=
    fun _ _ hmem => hs.faultless _ (mem_seen.mpr ⟨_, (mem_story.mp hmem).1, rfl⟩)
  have hcrashed : .answered n .crashed ∉ s.story n := by
    intro hmem
    have hin : n ∈ s.crashed := mem_seen.mpr ⟨_, (mem_story.mp hmem).1, rfl⟩
    rw [hs.crashed] at hin
    cases hin
  have hturned : .answered n (.refused (.closed s.settings.name)) ∈ s.story n →
      s.closing = true := by
    intro hmem
    have hin : n ∈ s.turnedAway := mem_seen.mpr ⟨_, (mem_story.mp hmem).1, rfl⟩
    exact closing_of_turnedAway hs.raced (List.ne_nil_of_mem hin)
  rw [mem_accepted]
  rcases told.past gone with hstory | ⟨offer, ended⟩
  · rw [hstory] at hanswer
    cases hanswer
  · generalize s.story n = es at *
    cases ended with
    | nothing | joined =>
      refine .inl ⟨?_, by simp⟩
      simpa using hanswer
    | refused =>
      refine .inr ⟨?_, by simp, hturned (by simp)⟩
      simpa using hanswer
    | sent filled fault =>
      obtain rfl := hreturned offer.request fault (by simp)
      refine .inl ⟨?_, by simp [Outcome.ofSend]⟩
      simpa [Outcome.ofSend] using hanswer
    | crashed => exact absurd (by simp) hcrashed

end Engine
end AdaptiveBatch
