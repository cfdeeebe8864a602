import AdaptiveBatch.Proofs.Engine.History

/-!
# The line for the buffer lock

Who waits for the lock is in line for it, once, and nobody else is.  So the first
in line can always take its turn, and an offer that joins the buffer is one that
has passed the gate and has neither called the sink nor ended.
-/

namespace AdaptiveBatch
namespace Engine

variable {α ν : Type}

/-- The offers in line are those that wait for the lock, nobody is in line twice,
and no number is held that is still to be given. -/
structure Lined (s : State α ν) : Prop where
  known : ∀ {n k}, s.ticket? n = some k → n < s.nextNumber
  filled : ∀ {n k}, s.ticket? n = some k → k.offer.items ≠ []
  offers : ∀ {n}, .offer n ∈ s.line ↔ ∃ k, s.ticket? n = some k ∧ k.phase = .atLock
  observers : ∀ {n}, .observer n ∈ s.line → n < s.nextNumber
  distinct : s.line.Nodup

/-- The scheduler too is in line just when it waits for the lock. -/
structure Orderly (s : State α ν) : Prop extends Lined s where
  scheduler : .scheduler ∈ s.line ↔ ∃ wait draining, s.scheduler = .locking wait draining

namespace Lined

variable {s t : State α ν}

/-- The offers of `t` are offers of `s`, whatever has become of their phases. -/
theorem fewer (h : Lined s) (next : t.nextNumber = s.nextNumber)
    (offer : ∀ {n k}, t.ticket? n = some k → ∃ l, s.ticket? n = some l ∧ l.offer = k.offer)
    (offers : ∀ {n}, .offer n ∈ t.line ↔ ∃ k, t.ticket? n = some k ∧ k.phase = .atLock)
    (observers : ∀ {n}, Waiter.observer n ∈ t.line → .observer n ∈ s.line)
    (distinct : t.line.Nodup) : Lined t := by
  constructor
  · intro n k hk
    obtain ⟨l, hl, _⟩ := offer hk
    rw [next]
    exact h.known hl
  · intro n k hk
    obtain ⟨l, hl, same⟩ := offer hk
    rw [← same]
    exact h.filled hl
  · exact offers
  · intro n hn
    rw [next]
    exact h.observers (observers hn)
  · exact distinct

/-- Nothing else of a state matters. -/
theorem same (h : Lined s) (offers : t.offers = s.offers := by rfl)
    (next : t.nextNumber = s.nextNumber := by rfl) (line : t.line = s.line := by rfl) :
    Lined t := by
  have hticket : ∀ n, t.ticket? n = s.ticket? n := fun n => by
    simp only [State.ticket?, offers]
  refine h.fewer next ?_ ?_ ?_ ?_
  · intro n k hk
    exact ⟨k, hticket n ▸ hk, rfl⟩
  · intro n
    rw [line, hticket n]
    exact h.offers
  · exact fun hn => line ▸ hn
  · exact line ▸ h.distinct

theorem unknown (h : Lined s) : s.ticket? s.nextNumber = none := by
  cases hk : s.ticket? s.nextNumber with
  | none => rfl
  | some k => exact absurd (h.known hk) (Nat.lt_irrefl _)

theorem number (h : Lined s) : Lined { s with nextNumber := s.nextNumber + 1 } :=
  ⟨fun hk => Nat.lt_succ_of_lt (h.known hk), h.filled, h.offers,
    fun hn => Nat.lt_succ_of_lt (h.observers hn), h.distinct⟩

theorem arrive (h : Lined s) {o : Offer α} (filled : o.items ≠ []) :
    Lined { s with
      offers := s.offers ++ [{ number := s.nextNumber, offer := o, phase := .atGate }]
      nextNumber := s.nextNumber + 1 } := by
  have hticket : ∀ n, State.ticket? { s with
      offers := s.offers ++ [{ number := s.nextNumber, offer := o, phase := .atGate }]
      nextNumber := s.nextNumber + 1 } n =
      if n = s.nextNumber then some { number := s.nextNumber, offer := o, phase := .atGate }
      else s.ticket? n := fun n =>
    ticket?_append s { number := s.nextNumber, offer := o, phase := .atGate } n h.unknown
  constructor
  · intro n k hk
    rw [hticket] at hk
    split at hk
    · rename_i hn
      rw [hn]
      exact Nat.lt_succ_self _
    · exact Nat.lt_succ_of_lt (h.known hk)
  · intro n k hk
    rw [hticket] at hk
    split at hk
    · rw [← Option.some.inj hk]
      exact filled
    · exact h.filled hk
  · intro n
    rw [hticket]
    show .offer n ∈ s.line ↔ _
    rw [h.offers]
    split
    · rename_i hn
      rw [hn, h.unknown]
      simp
    · rfl
  · exact fun hn => Nat.lt_succ_of_lt (h.observers hn)
  · exact h.distinct

theorem distinct_enqueue (h : Lined s) {w : Waiter} (out : w ∉ s.line) :
    (s.line ++ [w]).Nodup := by
  rw [List.nodup_append]
  refine ⟨h.distinct, by simp, ?_⟩
  intro v hv u hu
  rw [List.mem_singleton] at hu
  subst hu
  rintro rfl
  exact out hv

theorem enqueue (h : Lined s) {w : Waiter} (out : w ∉ s.line) (other : ∀ n, w ≠ .offer n)
    (given : ∀ n, w = .observer n → n < s.nextNumber) : Lined (s.enqueue w) := by
  constructor
  · exact h.known
  · exact h.filled
  · intro n
    show .offer n ∈ s.line ++ [w] ↔ ∃ k, s.ticket? n = some k ∧ k.phase = .atLock
    rw [← h.offers, List.mem_append, List.mem_singleton]
    have hne : ¬ Waiter.offer n = w := fun e => other n e.symm
    simp [hne]
  · intro n hn
    have hn' : .observer n ∈ s.line ++ [w] := hn
    rw [List.mem_append, List.mem_singleton] at hn'
    rcases hn' with hn' | hn'
    · exact h.observers hn'
    · exact given n hn'.symm
  · exact h.distinct_enqueue out

theorem lineUp (h : Lined s) {n : Nat} {k : Ticket α} (found : s.ticket? n = some k)
    (phase : k.phase ≠ .atLock) : Lined ((s.setPhase n .atLock).enqueue (.offer n)) := by
  have hout : .offer n ∉ s.line := by
    rw [h.offers, found]
    simp [phase]
  refine h.fewer rfl ?_ ?_ ?_ (h.distinct_enqueue hout)
  · intro m l hl
    have hl' : (s.setPhase n .atLock).ticket? m = some l := hl
    rw [ticket?_setPhase, Option.map_eq_some_iff] at hl'
    obtain ⟨l', hl', rfl⟩ := hl'
    exact ⟨l', hl', by split <;> rfl⟩
  · intro m
    show .offer m ∈ s.line ++ [.offer n] ↔
      ∃ l, (s.setPhase n .atLock).ticket? m = some l ∧ l.phase = .atLock
    rw [List.mem_append, h.offers, ticket?_setPhase]
    by_cases hm : m = n
    · subst hm
      simp [found]
    · simp [hm]
  · intro m hm
    have hm' : .observer m ∈ s.line ++ [Waiter.offer n] := hm
    simpa using hm'

theorem send (h : Lined s) {n : Nat} {k : Ticket α} (found : s.ticket? n = some k)
    (phase : k.phase ≠ .atLock) : Lined (s.setPhase n .sending) := by
  refine h.fewer rfl ?_ ?_ id h.distinct
  · intro m l hl
    rw [ticket?_setPhase, Option.map_eq_some_iff] at hl
    obtain ⟨l', hl', rfl⟩ := hl
    exact ⟨l', hl', by split <;> rfl⟩
  · intro m
    show .offer m ∈ s.line ↔ _
    rw [h.offers, ticket?_setPhase]
    by_cases hm : m = n
    · subst hm
      simp [found, phase]
    · simp [hm]

theorem ticket?_of_answer {n m : Nat} {o : Outcome ν} {k : Ticket α}
    (hk : (s.answer n o).ticket? m = some k) :
    ∃ l, s.ticket? m = some l ∧ l.offer = k.offer := by
  rw [ticket?_answer] at hk
  split at hk
  · cases hk
  · exact ⟨k, hk, rfl⟩

theorem answer (h : Lined s) {n : Nat} {k : Ticket α} (found : s.ticket? n = some k)
    (phase : k.phase ≠ .atLock) (o : Outcome ν) : Lined (s.answer n o) := by
  refine h.fewer rfl ticket?_of_answer ?_ id h.distinct
  intro m
  show .offer m ∈ s.line ↔ _
  rw [h.offers, ticket?_answer]
  split
  · rename_i hm
    subst hm
    rw [found]
    simp [phase]
  · rfl

theorem mem_of_rest {w v : Waiter} {rest : List Waiter} (head : s.line = w :: rest)
    (hv : v ∈ rest) : v ∈ s.line :=
  head ▸ List.mem_cons_of_mem _ hv

theorem atLock_of_head (h : Lined s) {n : Nat} {k : Ticket α} {rest : List Waiter}
    (head : s.line = .offer n :: rest) (found : s.ticket? n = some k) : k.phase = .atLock := by
  obtain ⟨l, hl, phase⟩ := h.offers.mp (head ▸ List.mem_cons_self)
  obtain rfl := Option.some.inj (found.symm.trans hl)
  exact phase

theorem leave (h : Lined s) {n : Nat} {rest : List Waiter}
    (head : s.line = .offer n :: rest) (o : Outcome ν) :
    Lined ({ s with line := rest }.answer n o) := by
  have hdistinct := h.distinct
  rw [head, List.nodup_cons] at hdistinct
  refine h.fewer rfl ?_ ?_ (mem_of_rest head) hdistinct.2
  · exact fun hk => ticket?_of_answer (s := { s with line := rest }) hk
  · intro m
    show .offer m ∈ rest ↔ _
    rw [ticket?_answer]
    split
    · rename_i hm
      subst hm
      simp [hdistinct.1]
    · rename_i hm
      show _ ↔ ∃ k, s.ticket? m = some k ∧ k.phase = .atLock
      rw [← h.offers, head, List.mem_cons]
      simp [hm]

theorem pop (h : Lined s) {w : Waiter} {rest : List Waiter} (head : s.line = w :: rest)
    (other : ∀ n, w ≠ .offer n) : Lined { s with line := rest } := by
  have hdistinct := h.distinct
  rw [head, List.nodup_cons] at hdistinct
  refine h.fewer rfl (fun hk => ⟨_, hk, rfl⟩) ?_ (mem_of_rest head) hdistinct.2
  intro n
  show .offer n ∈ rest ↔ ∃ k, s.ticket? n = some k ∧ k.phase = .atLock
  rw [← h.offers, head, List.mem_cons]
  have hne : ¬ Waiter.offer n = w := fun e => other n e.symm
  simp [hne]

end Lined

namespace Orderly

variable {s t : State α ν}

theorem same (h : Orderly s) (offers : t.offers = s.offers := by rfl)
    (next : t.nextNumber = s.nextNumber := by rfl) (line : t.line = s.line := by rfl)
    (scheduler : t.scheduler = s.scheduler := by rfl) : Orderly t := by
  refine ⟨h.toLined.same offers next line, ?_⟩
  rw [line, scheduler]
  exact h.scheduler

theorem out (h : Orderly s) (other : ∀ wait draining, s.scheduler ≠ .locking wait draining) :
    .scheduler ∉ s.line := by
  rw [h.scheduler]
  rintro ⟨wait, draining, turn⟩
  exact other wait draining turn

theorem out_of_rest (h : Orderly s) {rest : List Waiter} (head : s.line = .scheduler :: rest) :
    .scheduler ∉ rest := by
  have hdistinct := h.distinct
  rw [head, List.nodup_cons] at hdistinct
  exact hdistinct.1

theorem elsewhere (h : Lined t) (out : .scheduler ∉ t.line)
    (other : ∀ wait draining, t.scheduler ≠ .locking wait draining) : Orderly t := by
  refine ⟨h, ?_⟩
  constructor
  · intro hmem
    exact absurd hmem out
  · rintro ⟨wait, draining, turn⟩
    exact absurd turn (other wait draining)

theorem wait (h : Lined s) (out : .scheduler ∉ s.line) {wait : ν} {draining : Bool}
    (turn : s.scheduler = .locking wait draining) : Orderly (s.enqueue .scheduler) := by
  refine ⟨h.enqueue out (fun n => by simp) (fun n => by simp), ?_⟩
  constructor
  · intro _
    exact ⟨wait, draining, turn⟩
  · intro _
    exact List.mem_append_right _ List.mem_cons_self

variable [Number ν]

theorem proceed (h : Lined s) (out : .scheduler ∉ s.line) : Orderly s.proceed := by
  cases hclosing : s.closing with
  | true =>
    rw [proceed_of_closing hclosing]
    exact wait h.same out rfl
  | false =>
    have hline : s.proceed.line = s.line := by
      simp [State.proceed, hclosing]
    have hscheduler : ∀ wait draining, s.nextWait ≠ .locking wait draining := by
      intro wait draining
      rcases nextWait_cases s with ⟨closing, _⟩ | ⟨_, parked | ⟨wait', asleep⟩⟩
      · rw [hclosing] at closing
        cases closing
      · rw [parked]
        simp
      · rw [asleep]
        simp
    refine elsewhere (h.same rfl rfl hline) ?_ hscheduler
    rw [hline]
    exact out

end Orderly

/-! ## Numbers

A number is looked up by the first offer that has it, so an offer under way is found
only if no other has its number. -/

theorem ticket?_of_mem {s : State α ν} (distinct : (s.offers.map (·.number)).Nodup)
    {k : Ticket α} (hk : k ∈ s.offers) : s.ticket? k.number = some k := by
  rw [State.ticket?]
  generalize s.offers = offers at distinct hk ⊢
  induction offers with
  | nil => cases hk
  | cons l rest ih =>
    rw [List.map_cons, List.nodup_cons] at distinct
    rcases List.mem_cons.mp hk with rfl | hk
    · simp
    · have hne : ¬ l.number = k.number := fun e =>
        distinct.1 (e ▸ List.mem_map_of_mem hk)
      simpa [hne] using ih distinct.2 hk

theorem numbers_answer {s : State α ν} (hs : (s.offers.map (·.number)).Nodup) (n : Nat)
    (o : Outcome ν) : ((s.answer n o).offers.map (·.number)).Nodup :=
  hs.sublist (List.filter_sublist.map _)

theorem numbers_setPhase (s : State α ν) (n : Nat) (p : OfferPhase) :
    (s.setPhase n p).offers.map (·.number) = s.offers.map (·.number) := by
  rw [State.setPhase, List.map_map]
  refine List.map_congr_left fun k _ => ?_
  show Ticket.number (if k.number = n then _ else k) = k.number
  split <;> rfl

/-- An offer under way, and the others. -/
theorem offers_perm {s : State α ν} (distinct : (s.offers.map (·.number)).Nodup) {n : Nat}
    {k : Ticket α} (found : s.ticket? n = some k) :
    s.offers.Perm (k :: s.offers.filter (·.number ≠ n)) := by
  rw [State.ticket?] at found
  generalize s.offers = offers at distinct found ⊢
  induction offers with
  | nil => cases found
  | cons l rest ih =>
    rw [List.map_cons, List.nodup_cons] at distinct
    by_cases hl : l.number = n
    · obtain rfl : l = k := by simpa [hl] using found
      have hothers : rest.filter (·.number ≠ n) = rest := by
        rw [List.filter_eq_self]
        intro m hm
        have hne : m.number ≠ n := fun e => distinct.1 (hl ▸ e ▸ List.mem_map_of_mem hm)
        simpa using hne
      simp only [List.filter_cons, hl, ne_eq, not_true_eq_false, decide_false,
        Bool.false_eq_true, if_false]
      rw [hothers]
    · have hrest := ih distinct.2 (by simpa [hl] using found)
      simp only [List.filter_cons, hl, ne_eq, not_false_eq_true, decide_true, if_true]
      exact (hrest.cons l).trans (List.Perm.swap k l _)

theorem setPhase_perm {s : State α ν} (distinct : (s.offers.map (·.number)).Nodup) {n : Nat}
    {k : Ticket α} (found : s.ticket? n = some k) (p : OfferPhase) :
    (s.setPhase n p).offers.Perm ({ k with phase := p } :: s.offers.filter (·.number ≠ n)) := by
  have hperm := (offers_perm distinct found).map
    fun l => if l.number = n then { l with phase := p } else l
  refine hperm.trans (List.Perm.of_eq ?_)
  rw [List.map_cons, if_pos (ticket?_number found)]
  congr 1
  refine (List.map_congr_left fun l hl => ?_).trans (List.map_id _)
  have hne : l.number ≠ n := by simpa using (List.mem_filter.mp hl).2
  exact if_neg hne

/-! ## What every run keeps -/

variable [Number ν]

theorem orderly_fresh {s : State α ν} (h : Fresh s) : Orderly s := by
  have hticket : ∀ n, s.ticket? n = none := fun n => by
    simp [State.ticket?, h.offers]
  constructor
  · constructor
    · intro n k hk
      simp [hticket n] at hk
    · intro n k hk
      simp [hticket n] at hk
    · intro n
      simp [h.line, hticket n]
    · intro n hn
      simp [h.line] at hn
    · rw [h.line]
      exact List.nodup_nil
  · simp [h.line, h.scheduler]

theorem orderly_move {s t : State α ν} {e : Event α ν} (h : Move s e t) (hs : Orderly s) :
    Orderly t := by
  have hl := hs.toLined
  cases h with
  | elapse | close | proberEnds | probe | learn | probeFails | probeCrashes => exact hs.same
  | offerNothing => exact ⟨hl.number.same, hs.scheduler⟩
  | offer filled => exact ⟨(hl.arrive filled).same, hs.scheduler⟩
  | measure =>
    refine ⟨hl.number.enqueue ?_ (fun n => by simp) ?_, ?_⟩
    · intro hmem
      exact absurd (hl.observers hmem) (Nat.lt_irrefl _)
    · intro n hn
      obtain rfl := Waiter.observer.inj hn
      exact Nat.lt_succ_self _
    · show .scheduler ∈ s.line ++ [.observer s.nextNumber] ↔ _
      rw [List.mem_append, hs.scheduler]
      simp [State.enqueue]
  | refuse found phase => exact ⟨hl.answer found (by simp [phase]) _, hs.scheduler⟩
  | @lineUp n k found phase =>
    refine ⟨hl.lineUp found (by simp [phase]), ?_⟩
    show .scheduler ∈ s.line ++ [.offer n] ↔ _
    rw [List.mem_append, hs.scheduler]
    simp [State.enqueue, State.setPhase]
  | send found phase => exact ⟨(hl.send found (by simp [phase])).same, hs.scheduler⟩
  | @bounce n k rest free head | @append n k rest free head =>
    refine ⟨(hl.leave head .accepted).same, ?_⟩
    show .scheduler ∈ rest ↔ ∃ wait draining, s.scheduler = .locking wait draining
    rw [← hs.scheduler, head, List.mem_cons]
    simp
  | @measured n rest free head =>
    refine ⟨(hl.pop head (fun n => by simp)).same, ?_⟩
    show .scheduler ∈ rest ↔ ∃ wait draining, s.scheduler = .locking wait draining
    rw [← hs.scheduler, head, List.mem_cons]
    simp
  | @nobody w rest free head gone =>
    have hmem : w ∈ s.line := head ▸ List.mem_cons_self
    rcases gone with ⟨n, rfl, gone⟩ | ⟨rfl, gone⟩
    · obtain ⟨k, found, _⟩ := hl.offers.mp hmem
      rw [gone] at found
      cases found
    · exact absurd hmem (hs.out gone)
  | shut free head | flush free head =>
    exact .elsewhere (hl.pop head (fun n => by simp)).same (hs.out_of_rest head)
      (fun wait draining => by simp [State.beginFlush, State.note])
  | idle free head | defer free head =>
    exact .proceed (hl.pop head (fun n => by simp)).same (hs.out_of_rest head)
  | directReturns fault found phase =>
    exact ⟨(hl.answer found (by simp [phase]) (.ofSend fault)).same, hs.scheduler⟩
  | directCrashes found phase => exact ⟨hl.answer found (by simp [phase]) _, hs.scheduler⟩
  | unpark parked => exact .proceed hl (hs.out (by simp [parked]))
  | @wake wait asleep => exact .wait hl.same (hs.out (by simp [asleep])) rfl
  | flushReturns delivering | flushFails fault delivering =>
    exact .proceed hl.same (hs.out (by simp [delivering]))
  | flushCrashes old | takeGate old | closeReturns old | closeFails fault old
  | closeCrashes old =>
    exact .elsewhere hl.same (hs.out (by simp [old]))
      (fun wait draining => by simp [State.note, State.reportFailure])

omit [Number ν] in
theorem orderly_reorder {s : State α ν} {line : List Waiter} (order : s.line.Perm line)
    (hs : Orderly s) : Orderly { s with line } := by
  refine ⟨⟨hs.known, hs.filled, ?_, ?_, order.nodup_iff.mp hs.distinct⟩, ?_⟩
  · intro n
    exact order.mem_iff.symm.trans hs.offers
  · intro n hn
    exact hs.observers (order.mem_iff.mpr hn)
  · exact order.mem_iff.symm.trans hs.scheduler

theorem orderly_of_raced {s : State α ν} (hs : Raced s) : Orderly s :=
  of_raced orderly_fresh (fun _ => orderly_move) orderly_reorder hs

theorem numbers_move {s t : State α ν} {e : Event α ν} (h : Move s e t) (ho : Orderly s)
    (hs : (s.offers.map (·.number)).Nodup) : (t.offers.map (·.number)).Nodup := by
  cases h with
  | offer =>
    show (List.map _ (s.offers ++ [_])).Nodup
    rw [List.map_append, List.nodup_append]
    refine ⟨hs, by simp, ?_⟩
    intro n hn m hm
    obtain rfl : m = s.nextNumber := by simpa using hm
    obtain ⟨k, hk, rfl⟩ := List.mem_map.mp hn
    have hknown : k.number < s.nextNumber := ho.known (ticket?_of_mem hs hk)
    exact Nat.ne_of_lt hknown
  | @lineUp n => exact (numbers_setPhase s n .atLock).symm ▸ hs
  | @send n => exact (numbers_setPhase s n .sending).symm ▸ hs
  | refuse | directCrashes => exact numbers_answer hs _ _
  | bounce | append | directReturns => exact numbers_answer (s := s) hs _ .accepted
  | _ => exact hs

theorem numbers_of_raced {s : State α ν} (hs : Raced s) :
    (s.offers.map (·.number)).Nodup := by
  refine of_raced (P := fun s => (s.offers.map Ticket.number).Nodup) ?_ ?_ (fun _ hs => hs) hs
  · intro s h
    rw [h.offers]
    exact List.nodup_nil
  · intro s t e hs h ih
    exact numbers_move h (orderly_of_raced hs) ih

end Engine
end AdaptiveBatch
