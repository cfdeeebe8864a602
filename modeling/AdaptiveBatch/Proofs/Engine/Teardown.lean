import AdaptiveBatch.Proofs.Engine.Call

/-!
# Closing the sink

The sink is closed once, after the last send has returned.  Buffered sends are kept
away by the seal, which comes when the buffer is empty and stays, and direct ones by
the gate.  An offer that was past the shutdown check when shutdown came may be overtaken
on its way to the lock by all that the scheduler still has to do.  It finds the seal then,
even if the sink has long been closed.
-/

namespace AdaptiveBatch
namespace Engine

variable {α ν : Type} [Number ν]

/-- Whoever has the gate to itself keeps it, and from then on nothing is sent. -/
theorem sends_move {s t : State α ν} {e : Event α ν} (hs : Staged s)
    (calm : e.crashes = false) (h : Move s e t) (alone : s.scheduler.isAlone = true) :
    t.scheduler.isAlone = true ∧ t.sends = s.sends := by
  have hsealed := hs.sealed.trans (SchedulerPhase.isLast_of_isAlone alone)
  have closing : s.closing = true := (hs.drained hsealed).1
  cases h with
  | send found phase opened running =>
    rw [closing] at running
    cases running
  | shut free head old | idle free head old | defer free head old | flush free head old
  | unpark old | wake old | flushReturns old | flushFails fault old | takeGate old =>
    rw [old] at alone
    cases alone
  | closeReturns | closeFails => exact ⟨rfl, rfl⟩
  | directCrashes | probeCrashes | flushCrashes | closeCrashes => cases calm
  | _ => exact ⟨alone, rfl⟩

/-- What holds while the scheduler closes the sink, and ever after. -/
structure Quiet (s : State α ν) : Prop where
  closing : s.closing = true
  empty : s.buffer.items = []
  sealed : s.buffer.sealed = true
  /-- No call that hands anything to the sink is in progress. -/
  still : ∀ {c r}, s.openCall? c = some r → r.isSend = false

theorem quiet_of_alone {s : State α ν} (hs : Steady s) (alone : s.scheduler.isAlone = true) :
    Quiet s := by
  have staged := staged_of_steady hs
  have hsealed := staged.sealed.trans (SchedulerPhase.isLast_of_isAlone alone)
  refine ⟨(staged.drained hsealed).1, (staged.drained hsealed).2, hsealed, ?_⟩
  intro c r hopen
  rw [Bool.eq_false_iff]
  intro send
  rcases waits_of_openCall? hs hopen send with
    ⟨n, k, _, found, phase⟩ | ⟨_, items, reason, delivering⟩
  · exact staged.alone alone k (ticket?_mem found) phase
  · rw [delivering] at alone
    cases alone

/-- What a run does to the sink in closing it. -/
structure ClosesOnce (s : State α ν) : Prop where
  once : s.closers = [] ∨ s.closers = [.scheduler]
  /-- The call to close the sink begins when all is quiet. -/
  begins : ∀ {a t}, a.crashes = false → s.act? a = some t → t.closers ≠ s.closers → Quiet t
  /-- From then on all stays quiet, nothing is sent, and another request to shut down
  changes nothing. -/
  after : s.closers ≠ [] → ∀ {as t}, Calm as → s.race? as = some t →
    Quiet t ∧ t.sends = s.sends ∧ t.closers = s.closers ∧ t.step? .close = some t

theorem alone_of_closers {s : State α ν} (hs : Steady s) (closed : s.closers ≠ []) :
    s.scheduler.isAlone = true := by
  rw [closers_of_steady hs] at closed
  cases halone : s.scheduler.isAlone with
  | true => rfl
  | false => simp [halone] at closed

theorem sends_race {s t : State α ν} {as : List (Act α ν)} (hs : Steady s) (hcalm : Calm as)
    (h : s.race? as = some t) (alone : s.scheduler.isAlone = true) :
    t.scheduler.isAlone = true ∧ t.sends = s.sends := by
  refine calm_race_keeps (P := fun u => u.scheduler.isAlone = true ∧ u.sends = s.sends) ?_
    (fun _ hkept => hkept) hs hcalm h ⟨alone, rfl⟩
  intro u v e hu calm hmove hkept
  have hstep := sends_move (staged_of_steady hu) calm hmove hkept.1
  exact ⟨hstep.1, hstep.2.trans hkept.2⟩

/-- Unless a sink call brings its caller down, the sink is closed at most once, by the
scheduler, and never while anything is being sent. -/
theorem closesOnce_of_steady {s : State α ν} (hs : Steady s) : ClosesOnce s := by
  constructor
  · rw [closers_of_steady hs]
    cases s.scheduler.isAlone with
    | true => exact .inr rfl
    | false => exact .inl rfl
  · intro a t calm h new
    have ht : Steady t := .act hs calm h
    refine quiet_of_alone ht (alone_of_closers ht fun hnone => ?_)
    rw [hnone] at new
    have alone := alone_of_closers hs new.symm
    have hone : s.race? [a] = some t := race_cons.mpr ⟨t, h, rfl⟩
    have hkept := sends_race hs (List.forall_mem_singleton.mpr calm) hone alone
    rw [closers_of_steady ht, hkept.1] at hnone
    cases hnone
  · intro closed as t hcalm h
    have alone := alone_of_closers hs closed
    have hkept := sends_race hs hcalm h alone
    have ht := steady_of_race hs hcalm h
    have hquiet := quiet_of_alone ht hkept.1
    refine ⟨hquiet, hkept.2, ?_, ?_⟩
    · rw [closers_of_steady ht, closers_of_steady hs, hkept.1, alone]
    · have hclosing := hquiet.closing
      show some { t with closing := true } = some t
      rw [← hclosing]

/-- A direct send is under way when packing is switched on.  Another offer passes the gate,
shutdown is requested, and the scheduler has sealed the buffer and closes the sink by the
time that this offer asks for the lock. -/
def overtakenByClose : List (Act Nat Rat) :=
  List.map .event [.offer (.one 1), .enter 0, .proberWakes, .probeReturns (.answer 50),
    .offer (.one 2), .enter 1, .close, .schedulerWakes] ++
  .reorder [.scheduler, .offer 1] :: List.map .event [.acquire, .directReturns 0 none, .takeGate]

theorem closesOnce_of_overtakenByClose :
    ∃ s t, State.play? .standard "sink" 0 overtakenByClose = some s ∧ Steady s ∧
      s.closers = [.scheduler] ∧ s.line = [.offer 1] ∧ s.act? (.event .acquire) = some t ∧
      t.offers = [] ∧ t.appended = [] ∧ ClosesOnce s := by
  have hplay : (State.play? .standard "sink" 0 overtakenByClose).bind (fun s =>
      (s.act? (.event .acquire)).map fun t =>
        (s.closers, s.line, t.offers.length, t.appended)) =
      some ([.scheduler], [.offer 1], 0, []) := by
    decide +kernel
  obtain ⟨s, hs, hnext⟩ := Option.bind_eq_some_iff.mp hplay
  obtain ⟨t, ht, hfacts⟩ := Option.map_eq_some_iff.mp hnext
  simp only [Prod.mk.injEq, List.length_eq_zero_iff] at hfacts
  obtain ⟨hclosers, hline, hoffers, happended⟩ := hfacts
  have steady : Steady s := steady_of_play hs (by decide)
  exact ⟨s, t, hs, steady, hclosers, hline, ht, hoffers, happended,
    closesOnce_of_steady steady⟩

end Engine
end AdaptiveBatch
