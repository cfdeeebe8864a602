import AdaptiveBatch.Proofs.Engine.Work

/-!
# Shutdown

As long as some task of a closing engine has not ended and none of them waits for the
sink, one can go on, and no task can go on for ever.  So an engine that is closing
closes, with few more flushes and at most one more tick that comes to nothing.

An offer that is past the gate may be overtaken again and again on its way to the buffer.
If it finds the buffer empty it brings one more flush, and if it finds it sealed it brings
none.
-/

namespace AdaptiveBatch
namespace Engine

variable {α ν : Type} [Number ν]

/-! ## No deadlock -/

/-- Nothing is left to run. -/
def State.Finished (s : State α ν) : Prop :=
  s.offers = [] ∧ s.proberEnded = true ∧ s.schedulerEnded = true

/-- Some task waits for the sink. -/
def State.WaitsForSink (s : State α ν) : Prop :=
  s.sending = true ∨ s.prober = .probing ∨ s.scheduler.call?.isSome = true

/-- Some task can go on. -/
def State.CanStep (s : State α ν) : Prop :=
  ∃ e t, e.isTask = true ∧ e.crashes = false ∧ s.step? e = some t

theorem canStep_of_isSome {s : State α ν} {e : Event α ν} (task : e.isTask = true)
    (calm : e.crashes = false) (h : (s.step? e).isSome = true) : s.CanStep := by
  obtain ⟨t, ht⟩ := Option.isSome_iff_exists.mp h
  exact ⟨e, t, task, calm, ht⟩

theorem canStep_of_waits {s : State α ν} (distinct : (s.offers.map (·.number)).Nodup)
    (h : s.WaitsForSink) : s.CanStep := by
  rcases h with sending | probing | hcall
  · obtain ⟨k, hk, phase⟩ := List.any_eq_true.mp sending
    have found := ticket?_of_mem distinct hk
    refine canStep_of_isSome (e := .directReturns k.number none) rfl rfl ?_
    simp [State.step?, found, of_decide_eq_true phase]
  · refine canStep_of_isSome (e := .probeReturns (.fault (.other ""))) rfl rfl ?_
    simp [State.step?, probing, ProbeReply.isLate]
  · cases hphase : s.scheduler with
    | delivering items reason =>
      refine canStep_of_isSome (e := .flushReturns none) rfl rfl ?_
      simp [State.step?, hphase]
    | closing =>
      refine canStep_of_isSome (e := .closeReturns none) rfl rfl ?_
      simp [State.step?, hphase]
    | _ =>
      rw [hphase] at hcall
      cases hcall

theorem canStep_of_line {s : State α ν} {w : Waiter} (free : s.lockHeld = false)
    (waits : w ∈ s.line) : s.CanStep := by
  refine canStep_of_isSome (e := .acquire) rfl rfl ?_
  cases head : s.line with
  | nil =>
    rw [head] at waits
    cases waits
  | cons v rest => simp [State.step?, free, head]

theorem canStep_of_offer {s : State α ν} (ho : Orderly s) (free : s.lockHeld = false)
    (opened : s.gateOpen = true) (still : s.sending = false) (left : s.offers ≠ []) :
    s.CanStep := by
  obtain ⟨k, hk⟩ := List.exists_mem_of_ne_nil _ left
  have hfound : (s.ticket? k.number).isSome = true :=
    List.find?_isSome.mpr ⟨k, hk, decide_eq_true rfl⟩
  obtain ⟨l, found⟩ := Option.isSome_iff_exists.mp hfound
  cases phase : l.phase with
  | atGate =>
    refine canStep_of_isSome (e := .enter k.number) rfl rfl ?_
    simp [State.step?, found, phase, opened]
  | sending => exact absurd phase (without_sending.mp still l (ticket?_mem found))
  | atLock => exact canStep_of_line free (ho.offers.mpr ⟨l, found, phase⟩)

/-- A closing engine does not get stuck: as long as something is unfinished and nobody
waits for the sink, some task can go on. -/
theorem canStep_of_closing {s : State α ν} (ho : Orderly s) (closing : s.closing = true)
    (unfinished : ¬ s.Finished) (idle : ¬ s.WaitsForSink) : s.CanStep := by
  have still : s.sending = false := Bool.eq_false_iff.mpr fun h => idle (.inl h)
  cases hprober : s.prober with
  | sleeping =>
    refine canStep_of_isSome (e := .proberWakes) rfl rfl ?_
    simp [State.step?, hprober]
  | probing => exact absurd (.inr (.inl hprober)) idle
  | ended crashed =>
    cases hphase : s.scheduler with
    | parked =>
      refine canStep_of_isSome (e := .schedulerWakes) rfl rfl ?_
      simp [State.step?, hphase, closing]
    | sleeping wait =>
      refine canStep_of_isSome (e := .schedulerWakes) rfl rfl ?_
      simp [State.step?, hphase]
    | locking wait draining =>
      have free : s.lockHeld = false := by rw [State.lockHeld, hphase]
      exact canStep_of_line free (ho.scheduler.mpr ⟨wait, draining, hphase⟩)
    | delivering items reason => exact absurd (.inr (.inr (by rw [hphase]; rfl))) idle
    | atGate =>
      refine canStep_of_isSome (e := .takeGate) rfl rfl ?_
      simp [State.step?, hphase, still]
    | closing => exact absurd (.inr (.inr (by rw [hphase]; rfl))) idle
    | ended crashed' =>
      have free : s.lockHeld = false := by rw [State.lockHeld, hphase]
      have opened : s.gateOpen = true := by rw [State.gateOpen, hphase]
      have hended : s.proberEnded = true ∧ s.schedulerEnded = true :=
        ⟨by rw [State.proberEnded, hprober], by rw [State.schedulerEnded, hphase]⟩
      have left : s.offers ≠ [] := fun hoffers => unfinished ⟨hoffers, hended⟩
      exact canStep_of_offer ho free opened still left

/-- A closing engine in which no task can go on has finished, with no offer left. -/
theorem finished_of_raced {s : State α ν} (hs : Raced s) (closing : s.closing = true)
    (stuck : ¬ s.CanStep) : s.Finished := by
  have idle : ¬ s.WaitsForSink := fun h => stuck (canStep_of_waits (numbers_of_raced hs) h)
  by_contra unfinished
  exact stuck (canStep_of_closing (orderly_of_raced hs) closing unfinished idle)

/-- What a closing engine comes to when no task can go on. -/
theorem finished_of_stuck {s : State α ν} (hs : Steady s) (closing : s.closing = true)
    (stuck : ¬ s.CanStep) :
    s.Finished ∧ s.buffer.items = [] ∧ s.buffer.sealed = true ∧ s.closers = [.scheduler] := by
  have finished := finished_of_raced hs.raced closing stuck
  obtain ⟨crashed, hphase⟩ : ∃ crashed, s.scheduler = .ended crashed := by
    have hended := finished.2.2
    cases hphase : s.scheduler <;> simp [State.schedulerEnded, hphase] at hended ⊢
  have staged := staged_of_steady hs
  have hsealed : s.buffer.sealed = true := by
    rw [staged.sealed, hphase]
    rfl
  have hclosers := closers_of_steady hs
  rw [hphase] at hclosers
  exact ⟨finished, (staged.drained hsealed).2, hsealed, hclosers⟩

theorem race_to_end {s : State α ν} (hs : Steady s) (closing : s.closing = true) :
    ∃ as t, Calm as ∧ s.race? as = some t ∧ t.Finished := by
  generalize hwork : s.work = w
  induction w using Nat.strongRecOn generalizing s with
  | ind w ih =>
    by_cases hcan : s.CanStep
    · obtain ⟨e, u, task, calm, hstep⟩ := hcan
      have hmove := move_of_step hstep
      have hlt := work_task hmove closing task
      have hact : s.act? (.event e) = some u := hstep
      obtain ⟨as, t, hcalm, hrun, hfinished⟩ :=
        ih u.work (hwork ▸ hlt) (.act (a := .event e) hs calm hact) (closing_act closing hact) rfl
      refine ⟨.event e :: as, t, List.forall_mem_cons.mpr ⟨calm, hcalm⟩, ?_, hfinished⟩
      exact race_cons.mpr ⟨u, hact, hrun⟩
    · have hfinished := (finished_of_stuck hs closing hcan).1
      exact ⟨[], s, fun a ha => (by cases ha), rfl, hfinished⟩

/-! ## The last flushes

Each offer in line may call for one more flush, and so may what is buffered. -/

omit [Number ν] in
/-- Ending an offer takes it out of every count of offers that it was in. -/
theorem countP_answer {s : State α ν} {n : Nat} {k : Ticket α} (found : s.ticket? n = some k)
    {p : Ticket α → Bool} (counted : p k = true) (o : Outcome ν) :
    (s.answer n o).offers.countP p + 1 ≤ s.offers.countP p := by
  have hsplit := List.countP_eq_countP_filter_add s.offers p (·.number ≠ n)
  have hk : k ∈ s.offers.filter fun l => !decide (l.number ≠ n) := by
    rw [List.mem_filter]
    exact ⟨ticket?_mem found, by simp [ticket?_number found]⟩
  have hpos : 0 < (s.offers.filter fun l => !decide (l.number ≠ n)).countP p :=
    List.countP_pos_iff.mpr ⟨k, hk, counted⟩
  show (s.offers.filter _).countP p + 1 ≤ _
  omega

omit [Number ν] in
theorem countP_answer_le (s : State α ν) (n : Nat) (o : Outcome ν) (p : Ticket α → Bool) :
    (s.answer n o).offers.countP p ≤ s.offers.countP p :=
  List.filter_sublist.countP_le

/-- The flushes so far, and those that may still come of what is under way. -/
def State.flushesDue (s : State α ν) : Nat :=
  s.flushed.length + s.offers.countP (·.phase = .atLock) +
    (if s.buffer.items.isEmpty then 0 else 1)

omit [Number ν] in
theorem flushesDue_answer (s : State α ν) (n : Nat) (o : Outcome ν) :
    (s.answer n o).flushesDue ≤ s.flushesDue :=
  Nat.add_le_add_right (Nat.add_le_add_left (countP_answer_le s n o _) _) _

theorem flushesDue_move {s t : State α ν} {e : Event α ν} (h : Move s e t) (ho : Orderly s)
    (closing : s.closing = true) : t.flushesDue ≤ s.flushesDue := by
  cases h with
  | lineUp found phase opened running | send found phase opened running
  | probe asleep running =>
    rw [closing] at running
    cases running
  | offer =>
    show s.flushed.length + (s.offers ++ [_]).countP _ + _ ≤ _
    rw [List.countP_append]
    exact Nat.le_refl _
  | refuse | directCrashes => exact flushesDue_answer s _ _
  | bounce | directReturns => exact flushesDue_answer (s := s) _ .accepted
  | @append n k rest free head found =>
    have phase := ho.atLock_of_head head found
    have hleft : (s.answer n .accepted).offers.countP (·.phase = .atLock) + 1 ≤
        s.offers.countP (·.phase = .atLock) :=
      countP_answer found (decide_eq_true phase) .accepted
    have hone : (if (State.joined s.buffer k.offer).items.isEmpty then 0 else 1) ≤ 1 := by
      split <;> omega
    show s.flushed.length + (s.answer n .accepted).offers.countP (·.phase = .atLock) +
      (if (State.joined s.buffer k.offer).items.isEmpty then 0 else 1) ≤ s.flushesDue
    rw [State.flushesDue]
    omega
  | @flush wait draining rest free head turn filled =>
    have hone : (if s.buffer.items.isEmpty then 0 else 1) = 1 := by
      simpa using filled
    rw [State.flushesDue, flushed_beginFlush, State.flushesDue, hone, List.length_append]
    show s.flushed.length + 1 + s.offers.countP _ + 0 ≤ s.flushed.length + s.offers.countP _ + 1
    omega
  | _ => exact Nat.le_refl _

/-- The ticks that left the buffer as it was, with how much was in it. -/
def State.lulls (s : State α ν) : List Nat :=
  s.seen fun
    | .idle => some 0
    | .deferred size _ _ _ => some size
    | _ => none

/-- Whether the scheduler lined up before it saw the shutdown. -/
def SchedulerPhase.isStale : SchedulerPhase α ν → Bool
  | .locking _ draining => !draining
  | _ => false

/-- The lulls so far, and the one that may still come. -/
def State.lullsDue (s : State α ν) : Nat :=
  s.lulls.length + (if s.scheduler.isStale then 1 else 0)

theorem lullsDue_proceed {s t : State α ν} (closing : t.closing = true)
    (lulls : t.lulls.length ≤ s.lullsDue) : t.proceed.lullsDue ≤ s.lullsDue := by
  rw [proceed_of_closing closing]
  exact lulls

/-- A tick with a stale view of the shutdown leaves the scheduler with a true one. -/
theorem lullsDue_lull {s t : State α ν} {size : Nat} (closing : t.closing = true)
    (stale : s.scheduler.isStale = true) (lulls : t.lulls = s.lulls ++ [size]) :
    t.proceed.lullsDue ≤ s.lullsDue := by
  refine lullsDue_proceed closing ?_
  rw [lulls, List.length_append, State.lullsDue, if_pos stale]
  exact Nat.le_refl _

theorem lullsDue_move {s t : State α ν} {e : Event α ν} (h : Move s e t)
    (closing : s.closing = true) : t.lullsDue ≤ s.lullsDue := by
  cases h with
  | idle free head turn =>
    exact lullsDue_lull closing (by rw [turn]; rfl) List.reverse_cons
  | @defer wait draining rest free head turn filled decision =>
    cases draining with
    | true =>
      rw [shouldFlush_of_draining] at decision
      cases decision
    | false => exact lullsDue_lull closing (by rw [turn]; rfl) List.reverse_cons
  | unpark | flushReturns | flushFails => exact lullsDue_proceed closing (Nat.le_add_right _ _)
  | @wake wait asleep =>
    rw [closing]
    exact Nat.le_add_right _ _
  | shut | flush | flushCrashes | takeGate | closeReturns | closeFails | closeCrashes =>
    exact Nat.le_add_right _ _
  | _ => exact Nat.le_refl _

/-! ## Shutdown completes -/

/-- What is still to come of an engine that is closing. -/
structure Completes (s : State α ν) : Prop where
  /-- As long as something is unfinished and nobody waits for the sink, some task can go
  on. -/
  progress : ∀ {as t}, s.race? as = some t → ¬ t.Finished → ¬ t.WaitsForSink → t.CanStep
  /-- The tasks take no more steps than there is work, of which each newcomer brings one. -/
  bounded : ∀ {as t}, s.race? as = some t →
    as.countP (·.isTask) ≤ s.work + as.countP (·.arrives)
  /-- When no task can go on, everything has ended, and the sink has been closed. -/
  ends : ∀ {as t}, Calm as → s.race? as = some t → ¬ t.CanStep →
    t.Finished ∧ t.buffer.items = [] ∧ t.buffer.sealed = true ∧ t.closers = [.scheduler]
  /-- It can come to that. -/
  reaches : ∃ as t, Calm as ∧ s.race? as = some t ∧ t.Finished
  /-- One flush for each offer in line, and one for what is buffered or joins late. -/
  flushes : ∀ {as t}, s.race? as = some t →
    t.flushed.length ≤ s.flushed.length + s.offers.countP (·.phase = .atLock) + 1
  /-- One tick that neither flushes nor seals. -/
  lulls : ∀ {as t}, s.race? as = some t → t.lulls.length ≤ s.lulls.length + 1

theorem flushes_race {s t : State α ν} {as : List (Act α ν)} (ho : Orderly s)
    (closing : s.closing = true) (h : s.race? as = some t) :
    t.flushed.length ≤ s.flushed.length + s.offers.countP (·.phase = .atLock) + 1 := by
  have hkept : Orderly t ∧ t.closing = true ∧ t.flushesDue ≤ s.flushesDue :=
    race_keeps (P := fun u => Orderly u ∧ u.closing = true ∧ u.flushesDue ≤ s.flushesDue)
      (fun hmove hu => ⟨orderly_move hmove hu.1, closing_move hmove hu.2.1,
        Nat.le_trans (flushesDue_move hmove hu.1 hu.2.1) hu.2.2⟩)
      (fun order hu => ⟨orderly_reorder order hu.1, hu.2⟩)
      h ⟨ho, closing, Nat.le_refl _⟩
  have hdue := hkept.2.2
  have hone : (if s.buffer.items.isEmpty then 0 else 1) ≤ 1 := by
    split <;> omega
  rw [State.flushesDue, State.flushesDue] at hdue
  omega

theorem lulls_race {s t : State α ν} {as : List (Act α ν)} (closing : s.closing = true)
    (h : s.race? as = some t) : t.lulls.length ≤ s.lulls.length + 1 := by
  have hkept : t.closing = true ∧ t.lullsDue ≤ s.lullsDue :=
    race_keeps (P := fun u => u.closing = true ∧ u.lullsDue ≤ s.lullsDue)
      (fun hmove hu => ⟨closing_move hmove hu.1,
        Nat.le_trans (lullsDue_move hmove hu.1) hu.2⟩)
      (fun _ hu => hu) h ⟨closing, Nat.le_refl _⟩
  have hdue := hkept.2
  have hone : (if s.scheduler.isStale then 1 else 0) ≤ 1 := by
    split <;> omega
  rw [State.lullsDue, State.lullsDue] at hdue
  omega

/-- Shutdown completes from wherever it is requested, whatever the flush model makes of
the numbers and whoever is overtaken in line. -/
theorem completes_of_closing {s : State α ν} (hs : Steady s) (closing : s.closing = true) :
    Completes s := by
  have horderly := orderly_of_raced hs.raced
  constructor
  · intro as t h unfinished idle
    have ht := orderly_of_raced (raced_of_race hs.raced h)
    exact canStep_of_closing ht (closing_race closing h) unfinished idle
  · intro as t h
    have hwork := work_race closing h
    omega
  · intro as t calm h stuck
    exact finished_of_stuck (steady_of_race hs calm h) (closing_race closing h) stuck
  · exact race_to_end hs closing
  · exact fun h => flushes_race horderly closing h
  · exact fun h => lulls_race closing h

/-- One offer is buffered, two more have passed the gate, and shutdown is requested. -/
def lateOffers : List (Act Nat Rat) :=
  List.map .event [.offer (.all [1, 2]), .enter 0, .acquire, .schedulerWakes, .offer (.one 3),
    .enter 1, .offer (.one 4), .enter 2, .close]

/-- The scheduler overtakes both of them, flushes what each of them brings on its own, and
ends. -/
def drainOneByOne : List (Act Nat Rat) :=
  .event .schedulerWakes :: .reorder [.scheduler, .offer 1, .offer 2] ::
  List.map .event [.acquire, .flushReturns none, .acquire] ++
  .reorder [.scheduler, .offer 2] :: List.map .event [.acquire, .flushReturns none, .acquire,
    .acquire, .flushReturns none, .acquire, .takeGate, .closeReturns none, .proberWakes]

theorem completes_of_lateOffers :
    ∃ s t, State.play? .standard "sink" 50 lateOffers = some s ∧ Steady s ∧
      s.closing = true ∧ s.flushed.length = 0 ∧ s.offers.countP (·.phase = .atLock) = 2 ∧
      s.race? drainOneByOne = some t ∧ t.flushed.length = 3 ∧ t.closers = [.scheduler] ∧
      Completes s := by
  have hplay : (State.play? .standard "sink" 50 lateOffers).bind (fun s =>
      (s.race? drainOneByOne).map fun t =>
        (s.closing, s.flushed.length, s.offers.countP (·.phase = .atLock), t.flushed.length,
          t.closers)) =
      some (true, 0, 2, 3, [.scheduler]) := by
    decide +kernel
  obtain ⟨s, hs, hrest⟩ := Option.bind_eq_some_iff.mp hplay
  obtain ⟨t, hrun, hfacts⟩ := Option.map_eq_some_iff.mp hrest
  simp only [Prod.mk.injEq] at hfacts
  obtain ⟨closing, hflushed, hlate, hended, hclosers⟩ := hfacts
  have steady : Steady s := steady_of_play hs (by decide)
  exact ⟨s, t, hs, steady, closing, hflushed, hlate, hrun, hended, hclosers,
    completes_of_closing steady closing⟩

end Engine
end AdaptiveBatch
