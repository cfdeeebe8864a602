import AdaptiveBatch.Proofs.Engine.Race
import AdaptiveBatch.Proofs.Metrics.Counters
import AdaptiveBatch.Proofs.Metrics.Recorder

/-!
# What is recorded is never read

Counters, metric series and the log are written by every task and looked at by none.  So
two engines that differ in their records alone take the same steps and add the same to
what they have, and the difference between their records stays what it was.
-/

namespace AdaptiveBatch
namespace Engine

open Metrics

variable {α ν : Type}

/-- The same engine with other records. -/
def State.rerecord (s : State α ν) (counters : Counters) (recorder : Recorder ν)
    (log : List (Nat × Entry α ν)) : State α ν :=
  { s with counters, recorder, log }

/-- The states `s` and `t` differ as `u` and `v` do, and only in their records. -/
structure Apart (u v s t : State α ν) : Prop where
  same : t = s.rerecord t.counters t.recorder t.log
  counters : Counters.Offset u.counters v.counters s.counters t.counters
  recorder : Recorder.Offset u.recorder v.recorder s.recorder t.recorder
  /-- What has been logged since is the same. -/
  log : ∃ later, s.log = later ++ u.log ∧ t.log = later ++ v.log

namespace Apart

variable {u v s t : State α ν}

/-- States that are the same but for their records differ as themselves. -/
theorem start (same : v = u.rerecord v.counters v.recorder v.log)
    (counters : u.counters = { v.counters with flushFailures := u.counters.flushFailures })
    (gauges : u.recorder.gauges = v.recorder.gauges)
    (histograms : u.recorder.histograms = v.recorder.histograms) : Apart u v u v := by
  refine ⟨same, ⟨counters, ?_⟩, ⟨fun k => ?_, gauges, histograms⟩, ⟨[], rfl, rfl⟩⟩
  · exact UInt64.add_comm _ _
  · exact UInt64.add_comm _ _

theorem symm (h : Apart u v s t) : Apart v u t s := by
  obtain ⟨later, hs, ht⟩ := h.log
  refine ⟨?_, h.counters.symm, h.recorder.symm, ⟨later, ht, hs⟩⟩
  rw [h.same]
  rfl

theorem log_cons {l m : List (Nat × Entry α ν)}
    (h : ∃ later, l = later ++ u.log ∧ m = later ++ v.log) (entry : Nat × Entry α ν) :
    ∃ later, entry :: l = later ++ u.log ∧ entry :: m = later ++ v.log := by
  obtain ⟨later, hl, hm⟩ := h
  exact ⟨entry :: later, congrArg (entry :: ·) hl, congrArg (entry :: ·) hm⟩

end Apart

variable [Number ν] {u v : State α ν}

/-- A move asks nothing of the records, and writes the same to any. -/
theorem apart_move {s t : State α ν} {e : Event α ν} (h : Move s e t) {c : Counters}
    {r : Recorder ν} {l : List (Nat × Entry α ν)} (hs : Apart u v s (s.rerecord c r l)) :
    ∃ t', Move (s.rerecord c r l) e t' ∧ Apart u v t t' := by
  obtain ⟨_, hc, hr, hl⟩ := hs
  -- a move makes up to two entries, and the same ones in either state
  have hl₁ := fun e => Apart.log_cons hl e
  have hl₂ := fun e f => Apart.log_cons (Apart.log_cons hl e) f
  cases h with
  | elapse ms => exact ⟨_, .elapse ms, rfl, hc, hr, hl⟩
  | offerNothing empty => exact ⟨_, .offerNothing empty, rfl, hc, hr, hl₂ _ _⟩
  | offer filled => exact ⟨_, .offer filled, rfl, hc, hr, hl₁ _⟩
  | measure => exact ⟨_, .measure, rfl, hc, hr, hl⟩
  | close => exact ⟨_, .close, rfl, hc, hr, hl⟩
  | refuse found phase opened closing =>
    exact ⟨_, .refuse found phase opened closing, rfl, hc, hr, hl₁ _⟩
  | lineUp found phase opened running packing =>
    exact ⟨_, .lineUp found phase opened running packing, rfl, hc, hr, hl⟩
  | send found phase opened running direct =>
    exact ⟨_, .send found phase opened running direct, rfl, hc, hr, hl₁ _⟩
  | bounce free head found sealed =>
    exact ⟨_, .bounce free head found sealed, rfl, hc, hr, hl₁ _⟩
  | append free head found unsealed =>
    exact ⟨_, .append free head found unsealed, rfl, hc.buffered _, hr, hl₂ _ _⟩
  | measured free head => exact ⟨_, .measured free head, rfl, hc, hr, hl₁ _⟩
  | nobody free head gone => exact ⟨_, .nobody free head gone, rfl, hc, hr, hl⟩
  | shut free head turn empty => exact ⟨_, .shut free head turn empty, rfl, hc, hr, hl⟩
  | idle free head turn empty => exact ⟨_, .idle free head turn empty, rfl, hc, hr, hl₁ _⟩
  | defer free head turn filled decision =>
    exact ⟨_, .defer free head turn filled decision, rfl, hc.skippedTick, hr.skippedTick _ _,
      hl₁ _⟩
  | flush free head turn filled decision =>
    exact ⟨_, .flush free head turn filled decision, rfl, hc, hr, hl₂ _ _⟩
  | directReturns fault found phase =>
    exact ⟨_, .directReturns fault found phase, rfl, hc.direct _, hr.directSend _ _ _, hl₂ _ _⟩
  | directCrashes found phase => exact ⟨_, .directCrashes found phase, rfl, hc, hr, hl₁ _⟩
  | proberEnds asleep closing => exact ⟨_, .proberEnds asleep closing, rfl, hc, hr, hl⟩
  | probe asleep running => exact ⟨_, .probe asleep running, rfl, hc, hr, hl₁ _⟩
  | @learn reply millis probing counts =>
    have hlatency := hr.latencyEstimate s.settings.name (s.model.publish millis).estimate
    have hlearn : Recorder.Offset u.recorder v.recorder (s.learn millis).recorder
        ((s.rerecord c r l).learn millis).recorder := by
      show Recorder.Offset _ _ (if s.model.enables millis then _ else _)
        (if s.model.enables millis then _ else _)
      split
      · exact hlatency.set _ _
      · exact hlatency
    exact ⟨_, .learn probing counts, rfl, hc.probed, hlearn, hl₁ _⟩
  | probeFails probing fails =>
    exact ⟨_, .probeFails probing fails, rfl, hc.probeFailed, hr.add _ _, hl₁ _⟩
  | probeCrashes probing => exact ⟨_, .probeCrashes probing, rfl, hc, hr, hl⟩
  | unpark parked reason => exact ⟨_, .unpark parked reason, rfl, hc, hr, hl⟩
  | wake asleep => exact ⟨_, .wake asleep, rfl, hc, hr, hl⟩
  | flushReturns delivering =>
    exact ⟨_, .flushReturns delivering, rfl, hc.flushed _, hr.flush _ _ _ _, hl₁ _⟩
  | flushFails fault delivering =>
    exact ⟨_, .flushFails fault delivering, rfl, (hc.flushed _).flushFailed,
      (hr.flush _ _ _ _).add _ _, hl₂ _ _⟩
  | flushCrashes delivering => exact ⟨_, .flushCrashes delivering, rfl, hc, hr, hl⟩
  | takeGate waits still => exact ⟨_, .takeGate waits still, rfl, hc, hr, hl₁ _⟩
  | closeReturns closing => exact ⟨_, .closeReturns closing, rfl, hc, hr, hl₁ _⟩
  | closeFails fault closing =>
    exact ⟨_, .closeFails fault closing, rfl, hc, hr.add _ _, hl₂ _ _⟩
  | closeCrashes closing => exact ⟨_, .closeCrashes closing, rfl, hc, hr, hl⟩

theorem apart_step {s s' t : State α ν} {e : Event α ν} (hs : Apart u v s s')
    (h : s.step? e = some t) : ∃ t', s'.step? e = some t' ∧ Apart u v t t' := by
  have hsettings : s'.settings = s.settings := by
    rw [hs.same]
    rfl
  have hrerecord : Apart u v s (s.rerecord s'.counters s'.recorder s'.log) := by
    rw [← hs.same]
    exact hs
  obtain ⟨t', hmove, ht⟩ := apart_move (move_of_step h) hrerecord
  rw [← hs.same] at hmove
  exact ⟨t', step_of_move hmove (hsettings ▸ inTime_of_step h), ht⟩

theorem apart_act {s s' t : State α ν} {a : Act α ν} (hs : Apart u v s s')
    (h : s.act? a = some t) : ∃ t', s'.act? a = some t' ∧ Apart u v t t' := by
  cases a with
  | event e => exact apart_step hs h
  | reorder line =>
    obtain ⟨order, rfl⟩ := reorder_of_act h
    have hline : s'.line = s.line := by
      rw [hs.same]
      rfl
    refine ⟨{ s' with line }, ?_, ?_, hs.counters, hs.recorder, hs.log⟩
    · rw [State.act?, hline, if_pos order]
    · exact congrArg (fun w : State α ν => { w with line }) hs.same

theorem apart_race {s s' t : State α ν} {as : List (Act α ν)} (hs : Apart u v s s')
    (h : s.race? as = some t) : ∃ t', s'.race? as = some t' ∧ Apart u v t t' := by
  refine race_induction
    (motive := fun s as t =>
      ∀ s', Apart u v s s' → ∃ t', s'.race? as = some t' ∧ Apart u v t t')
    ?_ ?_ h s' hs
  · exact fun s s' hs => ⟨s', rfl, hs⟩
  · intro s w t a as hact _ ih s' hs
    obtain ⟨w', hact', hw⟩ := apart_act hs hact
    obtain ⟨t', hrest', ht⟩ := ih w' hw
    exact ⟨t', race_cons.mpr ⟨w', hact', hrest'⟩, ht⟩

/-- Whatever happens to one of two engines that differ in their records happens to the
other, and their records go on differing as they did. -/
theorem apart_races {s t : State α ν} (h : Apart u v s t) (as : List (Act α ν)) :
    Option.Rel (Apart u v) (s.race? as) (t.race? as) := by
  cases hs : s.race? as with
  | some s' =>
    obtain ⟨t', ht, hend⟩ := apart_race h hs
    rw [ht]
    exact .some hend
  | none =>
    cases ht : t.race? as with
    | none => exact .none
    | some t' =>
      -- to differ is symmetric, so neither stops where the other goes on
      obtain ⟨s', hs', _⟩ := apart_race h.symm ht
      rw [hs] at hs'
      cases hs'

end Engine
end AdaptiveBatch
