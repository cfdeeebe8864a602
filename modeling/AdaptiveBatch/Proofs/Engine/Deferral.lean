import AdaptiveBatch.Proofs.Engine.Delivery
import AdaptiveBatch.Proofs.Engine.Routing
import AdaptiveBatch.Proofs.Engine.Start
import AdaptiveBatch.Proofs.Engine.Work
import AdaptiveBatch.Proofs.Flush.Decision

/-!
# How long items wait

Over exact numbers the time lost to waits is never more than the ceiling allows what is
buffered.  Each tick that decides to wait adds a tenth of a millisecond to it at least,
so between two flushes there are only so many of them.
-/

namespace AdaptiveBatch
namespace Engine

variable {α : Type}

/-! ## The estimate -/

theorem ofProbe_nonneg {reply : ProbeReply Rat} {v : Rat} (h : reply.cost? = some v) :
    0 ≤ (Estimate.ofProbe v).latency ∧ 0 ≤ (Estimate.ofProbe v).perItem := by
  cases reply with
  | answer w =>
    rw [ProbeReply.cost?] at h
    split at h
    · rename_i counts
      obtain rfl := Option.some.inj h
      have hv : ¬ w < 0 := of_decide_eq_false counts.2
      rw [not_lt] at hv
      constructor
      · show 0 ≤ (0.9 : Rat) * w
        exact mul_nonneg (by norm_num) hv
      · show 0 ≤ (0.1 : Rat) * w
        exact mul_nonneg (by norm_num) hv
    · cases h
  | fault | late => cases h

/-- No call is expected to cost less than nothing. -/
theorem estimate_nonneg {s : State α Rat} (hs : Raced s) :
    0 ≤ s.model.estimate.latency ∧ 0 ≤ s.model.estimate.perItem := by
  refine raced_induction
    (P := fun s => 0 ≤ s.model.estimate.latency ∧ 0 ≤ s.model.estimate.perItem) ?_ ?_
    (fun _ hs => hs) hs
  · intro settings sink now delay reply s h
    obtain ⟨b, millis, _, counts, hseeded⟩ := blank_of_spawn h
    rw [hseeded]
    exact ofProbe_nonneg counts
  · intro s t e _ h hs
    cases h with
    | learn probing counts => exact ofProbe_nonneg (judgeProbe_ok.mp counts)
    | _ => exact hs

theorem ceiling_pos {s : State α Rat} (hs : Raced s) : 0 < s.settings.itemCeiling := by
  have hcheck := (check_ok s.settings).mp (check_of_raced hs)
  obtain ⟨_, _, _, ⟨_, hceiling⟩, _⟩ := hcheck
  exact of_decide_eq_true hceiling

/-! ## The waits -/

/-- The wait that will be credited to a tick, unless the engine has begun to drain. -/
def SchedulerPhase.wait? {ν : Type} : SchedulerPhase α ν → Option ν
  | .sleeping wait | .locking wait false => some wait
  | _ => none

theorem tickWait_bounds (latency : Rat) :
    (0.1 : Rat) ≤ tickWait latency ∧ tickWait latency ≤ (60000 : Rat) := by
  have hwait : tickWait latency =
      if latency < (0.1 : Rat) then (0.1 : Rat)
      else if (60000.0 : Rat) < latency then (60000.0 : Rat) else latency := by
    show (if false = true then _ else if decide (latency < (0.1 : Rat)) = true then (0.1 : Rat)
      else if decide ((60000.0 : Rat) < latency) = true then (60000.0 : Rat) else latency) = _
    simp
  rw [hwait]
  split
  · norm_num
  · rename_i low
    split
    · norm_num
    · rename_i high
      rw [not_lt] at low high
      norm_num at low high ⊢
      exact ⟨low, high⟩

def Paced (s : State α Rat) : Prop :=
  ∀ wait, s.scheduler.wait? = some wait → (0.1 : Rat) ≤ wait ∧ wait ≤ 60000

section Ticked

variable {ν : Type} [Number ν]

/-- Every wait is the one that some latency asks for. -/
def Ticked (s : State α ν) : Prop :=
  ∀ wait, s.scheduler.wait? = some wait → ∃ latency, wait = tickWait latency

theorem ticked_proceed (s : State α ν) : Ticked s.proceed := by
  intro wait hwait
  have hnext : s.nextWait.wait? = some wait := hwait
  rw [State.nextWait] at hnext
  cases hclosing : s.closing with
  | true => simp [hclosing, SchedulerPhase.wait?] at hnext
  | false =>
    cases hpacking : s.model.packing with
    | true =>
      have htick : tickWait s.model.estimate.latency = wait := by
        simpa [hclosing, hpacking, SchedulerPhase.wait?] using hnext
      exact ⟨_, htick.symm⟩
    | false => simp [hclosing, hpacking, SchedulerPhase.wait?] at hnext

theorem ticked_move {s t : State α ν} {e : Event α ν} (h : Move s e t) (hs : Ticked s) :
    Ticked t := by
  cases h with
  | idle | defer | unpark | flushReturns | flushFails => exact ticked_proceed _
  | @wake wait asleep =>
    intro credited hcredited
    refine hs credited ?_
    rw [asleep]
    cases hclosing : s.closing with
    | true =>
      simp [State.enqueue, hclosing, SchedulerPhase.wait?] at hcredited
    | false =>
      simpa [State.enqueue, hclosing, SchedulerPhase.wait?] using hcredited
  | shut | flush | flushCrashes | takeGate | closeReturns | closeFails | closeCrashes =>
    intro credited hcredited
    cases hcredited
  | _ => exact hs

theorem ticked_of_raced {s : State α ν} (hs : Raced s) : Ticked s := by
  refine of_raced (P := Ticked) ?_ (fun _ => ticked_move) (fun _ hs => hs) hs
  intro s h wait hwait
  rw [h.scheduler] at hwait
  cases hwait

end Ticked

theorem paced_of_raced {s : State α Rat} (hs : Raced s) : Paced s := by
  intro wait hwait
  obtain ⟨latency, rfl⟩ := ticked_of_raced hs wait hwait
  exact tickWait_bounds latency

/-! ## The time lost -/

/-- The time lost is no more than the ceiling allows what is buffered. -/
structure Patient (s : State α Rat) : Prop where
  nonneg : 0 ≤ s.buffer.lost
  empty : s.buffer.items = [] → s.buffer.lost = 0
  bounded : s.buffer.lost ≤ s.settings.itemCeiling * s.buffer.size

theorem size_pos {ν : Type} {b : Flush.Buffer α ν} (filled : b.items ≠ []) : 0 < b.size := by
  rw [← length_items]
  exact List.length_pos_iff.mpr filled

theorem lost_joined (b : Flush.Buffer α Rat) (o : Offer α) : (State.joined b o).lost = b.lost := by
  cases o <;> rfl

theorem size_joined (b : Flush.Buffer α Rat) (o : Offer α) :
    (State.joined b o).size = b.size + o.items.length := by
  rw [← length_items, ← length_items, items_joined, List.length_append]

/-- A tick that waits is one that has not seen the shutdown. -/
theorem lost_of_defer {s : State α Rat} (hs : Raced s) {wait : Rat} {draining : Bool}
    (turn : s.scheduler = .locking wait draining) (filled : s.buffer.items ≠ [])
    (decision : (s.evaluation wait draining).shouldFlush = false) :
    (0.1 : Rat) ≤ wait ∧ s.buffer.lost + wait ≤ s.settings.itemCeiling * s.buffer.size := by
  cases draining with
  | true =>
    rw [shouldFlush_of_draining] at decision
    cases decision
  | false =>
    have hwait := paced_of_raced hs wait (by rw [turn]; rfl)
    have hcosts := estimate_nonneg hs
    have hlost := Flush.lost_le_of_waiting decision (size_pos filled) hcosts.1 hcosts.2
    exact ⟨hwait.1, hlost⟩

theorem patient_move {s t : State α Rat} {e : Event α Rat} (h : Move s e t) (hr : Raced s)
    (hs : Patient s) : Patient t := by
  have hceiling := ceiling_pos hr
  cases h with
  | @append n k rest free head found =>
    have hlost := lost_joined s.buffer k.offer
    have hsize := size_joined s.buffer k.offer
    refine ⟨?_, ?_, ?_⟩
    · show 0 ≤ (State.joined s.buffer k.offer).lost
      rw [hlost]
      exact hs.nonneg
    · intro empty
      have hjoined : (State.joined s.buffer k.offer).items = [] := empty
      rw [items_joined] at hjoined
      show (State.joined s.buffer k.offer).lost = 0
      rw [hlost]
      exact hs.empty (List.append_eq_nil_iff.mp hjoined).1
    · show (State.joined s.buffer k.offer).lost ≤
        s.settings.itemCeiling * ((State.joined s.buffer k.offer).size : Rat)
      rw [hlost, hsize]
      have hmore : (s.buffer.size : Rat) ≤ ((s.buffer.size + k.offer.items.length : Nat) : Rat) := by
        exact_mod_cast Nat.le_add_right _ _
      exact hs.bounded.trans (mul_le_mul_of_nonneg_left hmore hceiling.le)
  | @defer wait draining rest free head turn filled decision =>
    obtain ⟨hwait, hlost⟩ := lost_of_defer hr turn filled decision
    refine ⟨?_, ?_, ?_⟩
    · show 0 ≤ s.buffer.lost + wait
      have hnonneg := hs.nonneg
      norm_num at hwait
      linarith
    · intro empty
      exact absurd empty filled
    · exact hlost
  | flush =>
    refine ⟨?_, fun _ => rfl, ?_⟩
    · exact le_refl (0 : Rat)
    · show (0 : Rat) ≤ s.settings.itemCeiling * ((0 : Nat) : Rat)
      simp
  | _ => exact ⟨hs.nonneg, hs.empty, hs.bounded⟩

theorem patient_of_raced {s : State α Rat} (hs : Raced s) : Patient s := by
  refine of_raced (P := Patient) ?_ (fun hr h => patient_move h hr) ?_ hs
  · intro s h
    obtain ⟨start, hbuffer⟩ := h.buffer
    have hlost : ∀ b : Flush.Buffer α Rat, b = .empty start → b.lost = 0 := by
      rintro b rfl
      rfl
    have hzero := hlost _ hbuffer
    refine ⟨hzero.ge, fun _ => hzero, ?_⟩
    rw [hzero, hbuffer]
    simp [Flush.Buffer.size, Flush.Buffer.empty]
  · exact fun _ hs => ⟨hs.nonneg, hs.empty, hs.bounded⟩

/-! ## The ticks that wait -/

/-- Between two flushes every tick that waits is paid for in time lost. -/
theorem lost_move {s t : State α Rat} {e : Event α Rat} (h : Move s e t) (hr : Raced s)
    (same : t.flushed = s.flushed) :
    s.buffer.lost - s.skips.length / 10 ≤ t.buffer.lost - t.skips.length / 10 := by
  cases h with
  | @append n k rest =>
    have hlost := lost_joined s.buffer k.offer
    show s.buffer.lost - _ ≤ (State.joined s.buffer k.offer).lost - _
    rw [hlost]
    exact le_refl _
  | @defer wait draining rest free head turn filled decision =>
    have hwait := (lost_of_defer hr turn filled decision).1
    have hskips : State.skips (State.proceed (State.defer { s with line := rest }
        (s.evaluation wait draining))) = s.skips ++ [s.buffer.size] := List.reverse_cons
    rw [hskips, List.length_append]
    show s.buffer.lost - _ ≤ s.buffer.lost + wait - _
    norm_num at hwait ⊢
    linarith
  | flush =>
    rw [flushed_beginFlush] at same
    simp [State.flushed, State.seen] at same
  | _ => exact le_refl _

theorem lost_act {s t : State α Rat} {a : Act α Rat} (hr : Raced s) (h : s.act? a = some t)
    (same : t.flushed = s.flushed) :
    s.buffer.lost - s.skips.length / 10 ≤ t.buffer.lost - t.skips.length / 10 := by
  cases a with
  | event e => exact lost_move (move_of_step h) hr same
  | reorder line =>
    obtain ⟨_, rfl⟩ := reorder_of_act h
    exact le_refl _

theorem lost_race {s t : State α Rat} {as : List (Act α Rat)} (hr : Raced s)
    (h : s.race? as = some t) (same : t.flushed = s.flushed) :
    s.buffer.lost - s.skips.length / 10 ≤ t.buffer.lost - t.skips.length / 10 := by
  refine race_induction
    (motive := fun (s : State α Rat) _ t => Raced s → t.flushed = s.flushed →
      s.buffer.lost - s.skips.length / 10 ≤ t.buffer.lost - t.skips.length / 10)
    (fun _ _ _ => le_refl _) ?_ h hr same
  intro s u t a as hact hrest ih hr same
  have hfirst : s.race? [a] = some u := race_cons.mpr ⟨u, hact, rfl⟩
  -- what was flushed at the start and is all there is at the end is all there is between
  have hbefore : s.flushed <+: u.flushed := seen_race hfirst _
  have hafter : u.flushed <+: t.flushed := seen_race hrest _
  have hlength : u.flushed.length ≤ s.flushed.length := by
    rw [← same]
    exact hafter.length_le
  have hu : u.flushed = s.flushed := (hbefore.eq_of_length_le hlength).symm
  exact (lost_act hr hact hu).trans (ih (.act hr hact) (same.trans hu.symm))

/-- What bounds the waits of an engine. -/
structure BoundedWaits (s : State α Rat) : Prop where
  nonneg : 0 ≤ s.buffer.lost
  empty : s.buffer.items = [] → s.buffer.lost = 0
  bounded : s.buffer.lost ≤ s.settings.itemCeiling * s.buffer.size
  /-- What is credited to a tick that does not drain. -/
  credited : ∀ {wait}, s.scheduler = .locking wait false → (0.1 : Rat) ≤ wait ∧ wait ≤ 60000
  /-- The ticks that wait while nothing is flushed.  What is buffered only grows meanwhile,
  so it is at most what it is in the end. -/
  deferred : ∀ {as t} {n : Nat}, s.race? as = some t → t.flushed = s.flushed →
    t.buffer.size ≤ n →
      (t.skips.length : Rat) - s.skips.length ≤ 10 * s.settings.itemCeiling * n

/-- However the sink answers and whatever is offered when, nothing waits for long. -/
theorem boundedWaits_of_raced {s : State α Rat} (hs : Raced s) : BoundedWaits s := by
  have patient := patient_of_raced hs
  refine ⟨patient.nonneg, patient.empty, patient.bounded, ?_, ?_⟩
  · intro wait turn
    exact paced_of_raced hs wait (by rw [turn]; rfl)
  · intro as t n h same hn
    have hlost := lost_race hs h same
    have hend := (patient_of_raced (raced_of_race hs h)).bounded
    rw [settings_race h] at hend
    have hsize : (t.buffer.size : Rat) ≤ n := by exact_mod_cast hn
    have hmost : s.settings.itemCeiling * t.buffer.size ≤ s.settings.itemCeiling * n :=
      mul_le_mul_of_nonneg_left hsize (ceiling_pos hs).le
    have hstart := patient.nonneg
    linarith

/-- One item waits for four ticks, for want of another and with time to spare.  Somebody who
asks how much is buffered has overtaken it. -/
def lonelyItem : List (Act Nat Rat) :=
  List.map .event [.offer (.one 7), .enter 0, .measure] ++
  .reorder [.observer 1, .offer 0] :: List.map .event [.acquire, .acquire, .schedulerWakes,
    .schedulerWakes, .acquire, .schedulerWakes, .acquire, .schedulerWakes, .acquire,
    .schedulerWakes, .acquire]

theorem boundedWaits_of_lonelyItem :
    ∃ s, State.play? .standard "sink" 1 lonelyItem = some s ∧ Raced s ∧
      s.skips = [1, 1, 1, 1] ∧ s.buffer.lost = 3.6 ∧ BoundedWaits s := by
  have hplay : (State.play? .standard "sink" 1 lonelyItem).map
      (fun s => (s.skips, s.buffer.lost)) = some ([1, 1, 1, 1], 3.6) := by decide +kernel
  obtain ⟨s, hs, hfacts⟩ := Option.map_eq_some_iff.mp hplay
  have raced : Raced s := raced_of_play hs
  exact ⟨s, hs, raced, congrArg Prod.fst hfacts, congrArg Prod.snd hfacts,
    boundedWaits_of_raced raced⟩

end Engine
end AdaptiveBatch
