import Mathlib.Algebra.GroupWithZero.Nat
import Mathlib.Algebra.Order.BigOperators.Group.List
import Mathlib.Algebra.Order.Group.Nat
import AdaptiveBatch.Proofs.Engine.Line

/-!
# What is still to be done

Everything that has still to be done in an engine has a weight: a place in line, an offer
under way, a buffer that is to be flushed, and the phases of the scheduler and the prober.
The weights pay if each of these outweighs what it may lead to.  Then every step of a task
makes the engine lighter, but for the steps that a timer brings about, and each of those
adds only so much.
-/

namespace AdaptiveBatch
namespace Engine

variable {α ν : Type}

/-- Whether a step is one of an engine's tasks, or of those who wait in line. -/
def Event.isTask : Event α ν → Bool
  | .elapse _ | .offer _ | .measure | .close => false
  | _ => true

/-- Whether a step comes of a timer. -/
def State.alarm (s : State α ν) : Event α ν → Bool
  | .schedulerWakes =>
    match s.scheduler with
    | .sleeping _ => !s.closing
    | _ => false
  | .proberWakes => !s.closing
  | _ => false

structure Weights (α ν : Type) where
  waiter : Waiter → Nat
  offer : OfferPhase → Nat
  /-- Of a buffer that holds anything. -/
  buffer : Nat
  scheduler : SchedulerPhase α ν → Nat
  prober : ProberPhase → Nat
  /-- What a timer may add. -/
  alarm : Nat

namespace Weights

/-! ## Weighing -/

section Weigh

variable (W : Weights α ν)

def items (items : List α) : Nat := if items.isEmpty then 0 else W.buffer

def weigh (s : State α ν) : Nat :=
  (s.line.map W.waiter).sum + (s.offers.map (W.offer ·.phase)).sum + W.items s.buffer.items +
    W.scheduler s.scheduler + W.prober s.prober

/-- The scheduler in line for its next tick. -/
def turn (wait : ν) (draining : Bool) : Nat :=
  W.waiter .scheduler + W.scheduler (.locking wait draining)

theorem items_le (items : List α) : W.items items ≤ W.buffer := by
  rw [Weights.items]
  split
  · exact Nat.zero_le _
  · exact Nat.le_refl _

theorem items_filled {items : List α} (filled : items ≠ []) : W.items items = W.buffer := by
  cases items with
  | nil => exact absurd rfl filled
  | cons x rest => rfl

/-! ## What a change of the state does to it -/

variable (s : State α ν)

theorem weigh_scheduler (p : SchedulerPhase α ν) :
    W.weigh { s with scheduler := p } + W.scheduler s.scheduler = W.weigh s + W.scheduler p := by
  simp only [weigh]
  omega

theorem weigh_prober (p : ProberPhase) :
    W.weigh { s with prober := p } + W.prober s.prober = W.weigh s + W.prober p := by
  simp only [weigh]
  omega

theorem weigh_enqueue (w : Waiter) : W.weigh (s.enqueue w) = W.weigh s + W.waiter w := by
  simp only [weigh, State.enqueue, List.map_append, List.sum_append, List.map_singleton,
    List.sum_singleton]
  omega

theorem weigh_arrive (k : Ticket α) (next : Nat) :
    W.weigh { s with offers := s.offers ++ [k], nextNumber := next } =
      W.weigh s + W.offer k.phase := by
  simp only [weigh, List.map_append, List.sum_append, List.map_singleton, List.sum_singleton]
  omega

variable {s}

theorem weigh_scheduler_lt {p : SchedulerPhase α ν}
    (less : W.scheduler p < W.scheduler s.scheduler) :
    W.weigh { s with scheduler := p } < W.weigh s := by
  have hscheduler := W.weigh_scheduler s p
  omega

theorem weigh_prober_lt {p : ProberPhase} (less : W.prober p < W.prober s.prober) :
    W.weigh { s with prober := p } < W.weigh s := by
  have hprober := W.weigh_prober s p
  omega

theorem weigh_pop {w : Waiter} {rest : List Waiter} (head : s.line = w :: rest) :
    W.weigh { s with line := rest } + W.waiter w = W.weigh s := by
  simp only [weigh, head, List.map_cons, List.sum_cons]
  omega

theorem weigh_reorder {line : List Waiter} (order : s.line.Perm line) :
    W.weigh { s with line } = W.weigh s := by
  simp only [weigh, (order.map W.waiter).sum_nat]

/-- An offer that ends takes its weight with it. -/
theorem weigh_answer {n : Nat} {k : Ticket α} (found : s.ticket? n = some k) (o : Outcome ν) :
    W.weigh (s.answer n o) + W.offer k.phase ≤ W.weigh s := by
  have hrest : k ∈ s.offers.filter fun l => !decide (l.number ≠ n) := by
    rw [List.mem_filter]
    exact ⟨ticket?_mem found, by simp [ticket?_number found]⟩
  have hone : W.offer k.phase ≤
      ((s.offers.filter fun l => !decide (l.number ≠ n)).map (W.offer ·.phase)).sum :=
    List.le_sum_of_mem (List.mem_map_of_mem hrest)
  have hsplit := ((List.filter_append_perm (fun l => decide (l.number ≠ n)) s.offers).map
    (W.offer ·.phase)).sum_nat
  rw [List.map_append, List.sum_append] at hsplit
  simp only [weigh, State.answer, State.note]
  omega

theorem weigh_setPhase (distinct : (s.offers.map (·.number)).Nodup) {n : Nat} {k : Ticket α}
    (found : s.ticket? n = some k) (p : OfferPhase) :
    W.weigh (s.setPhase n p) + W.offer k.phase = W.weigh s + W.offer p := by
  have hbefore := ((offers_perm distinct found).map (W.offer ·.phase)).sum_nat
  have hafter : ((s.setPhase n p).offers.map (W.offer ·.phase)).sum =
      W.offer p + ((s.offers.filter (·.number ≠ n)).map (W.offer ·.phase)).sum :=
    ((setPhase_perm distinct found p).map (W.offer ·.phase)).sum_nat
  rw [List.map_cons, List.sum_cons] at hbefore
  show (s.line.map W.waiter).sum + ((s.setPhase n p).offers.map (W.offer ·.phase)).sum +
    W.items s.buffer.items + W.scheduler s.scheduler + W.prober s.prober + _ = _
  rw [hafter, weigh, hbefore]
  omega

end Weigh

/-! ## Weights that pay -/

/-- In an engine that is closing, whatever a task has still to do outweighs what doing it
leads to. -/
structure Pays (W : Weights α ν) : Prop where
  waiter : ∀ w, 0 < W.waiter w
  /-- An offer that joins the buffer may be what fills it. -/
  joins : ∀ n, W.buffer < W.waiter (.offer n)
  answers : ∀ p, p ≠ .atLock → 0 < W.offer p
  unparks : ∀ wait, W.turn wait true < W.scheduler .parked
  wakes : ∀ wait later, W.turn later true < W.scheduler (.sleeping wait)
  idles : ∀ wait later, W.turn later true < W.turn wait false
  flushes : ∀ wait draining items reason,
    W.scheduler (.delivering items reason) < W.turn wait draining + W.buffer
  returns : ∀ items reason later, W.turn later true < W.scheduler (.delivering items reason)
  shuts : ∀ wait, W.scheduler .atGate < W.turn wait true
  takesGate : W.scheduler .closing < W.scheduler .atGate
  ends : ∀ crashed, W.scheduler (.ended crashed) < W.scheduler .closing
  proberEnds : ∀ crashed, W.prober (.ended crashed) < W.prober .sleeping
  probeEnds : ∀ crashed, W.prober (.ended crashed) < W.prober .probing

/-- The same of an engine that is not, where offers pass the gate and both loops go round. -/
structure Runs (W : Weights α ν) : Prop where
  linesUp : ∀ n, W.offer .atLock + W.waiter (.offer n) < W.offer .atGate
  sends : W.offer .sending < W.offer .atGate
  unparks : ∀ wait, W.scheduler (.sleeping wait) < W.scheduler .parked
  idles : ∀ wait, W.scheduler .parked < W.turn wait false
  returns : ∀ items reason, W.scheduler .parked < W.scheduler (.delivering items reason)
  wakes : ∀ wait, W.turn wait false < W.scheduler (.sleeping wait) + W.alarm
  probes : W.prober .probing < W.prober .sleeping + W.alarm
  rests : W.prober .sleeping < W.prober .probing

variable {W : Weights α ν} {s t : State α ν}

theorem Pays.answer (hW : W.Pays) {n : Nat} {k : Ticket α} (found : s.ticket? n = some k)
    (phase : k.phase ≠ .atLock) (o : Outcome ν) : W.weigh (s.answer n o) < W.weigh s := by
  have hanswer := W.weigh_answer found o
  have hoffer := hW.answers k.phase phase
  omega

theorem Pays.pop (hW : W.Pays) {w : Waiter} {rest : List Waiter} (head : s.line = w :: rest) :
    W.weigh { s with line := rest } < W.weigh s := by
  have hpop := W.weigh_pop head
  have hwaiter := hW.waiter w
  omega

/-- The place in line pays for the tick that the buffer may now need. -/
theorem Pays.join (hW : W.Pays) {n : Nat} {k : Ticket α} {rest : List Waiter}
    (head : s.line = .offer n :: rest) (found : s.ticket? n = some k)
    (buffer : Flush.Buffer α ν) (o : Outcome ν) :
    W.weigh (State.answer { s with line := rest, buffer } n o) < W.weigh s := by
  have hpop := W.weigh_pop head
  have hanswer := W.weigh_answer (s := { s with line := rest }) found o
  have hitems := W.items_le buffer.items
  have hjoins := hW.joins n
  simp only [weigh, State.answer, State.note] at hpop hanswer ⊢
  omega

theorem Pays.prober (hW : W.Pays) (running : s.closing = false → W.Runs)
    (probing : s.prober = .probing) : W.weigh s.proceedProber < W.weigh s := by
  refine W.weigh_prober_lt (s := s) ?_
  rw [probing]
  cases closing : s.closing with
  | true => exact hW.probeEnds false
  | false => exact (running closing).rests

variable [Number ν]

/-! ## Rounds of the loop -/

/-- A flush that returned would be followed by all that one that crashes leaves out. -/
theorem Pays.crashes (hW : W.Pays) (items : List α) (reason : Flush.Reason) :
    W.scheduler (.ended true) < W.scheduler (.delivering items reason) := by
  have hreturns := hW.returns items reason (Number.ofCount 0)
  have hshuts := hW.shuts (Number.ofCount 0)
  have hends := hW.ends true
  have htakes := hW.takesGate
  omega

/-- What the scheduler's loop comes to next. -/
def later (W : Weights α ν) (s : State α ν) : Nat :=
  (if s.closing then W.waiter .scheduler else 0) + W.scheduler s.nextWait

theorem weigh_proceed (W : Weights α ν) (s : State α ν) :
    W.weigh s.proceed + W.scheduler s.scheduler = W.weigh s + W.later s := by
  simp only [weigh, later, State.proceed]
  cases s.closing with
  | true =>
    simp only [if_true, List.map_append, List.sum_append, List.map_singleton,
      List.sum_singleton]
    omega
  | false =>
    simp only [Bool.false_eq_true, if_false]
    omega

theorem later_lt {m : Nat} (drains : ∀ wait, W.turn wait true < m)
    (sleeps : s.closing = false → ∀ wait, W.scheduler (.sleeping wait) < m)
    (parks : s.closing = false → s.model.packing = false → W.scheduler .parked < m) :
    W.later s < m := by
  rw [later, State.nextWait]
  cases closing : s.closing with
  | true => exact drains _
  | false =>
    simp only [Bool.false_eq_true, if_false, Nat.zero_add]
    cases packing : s.model.packing with
    | true => exact sleeps closing _
    | false => exact parks closing packing

/-- A round that ends costs what it was for. -/
theorem round {spent : Nat} (line : W.weigh s + spent = W.weigh t)
    (less : W.later s < W.scheduler s.scheduler + spent) : W.weigh s.proceed < W.weigh t := by
  have hproceed := W.weigh_proceed s
  omega

theorem Pays.later_idle (hW : W.Pays) (running : s.closing = false → W.Runs) (wait : ν) :
    W.later s < W.turn wait false := by
  refine later_lt (hW.idles wait) ?_ ?_
  · exact fun closing later => Nat.lt_trans ((running closing).unparks later)
      ((running closing).idles wait)
  · exact fun closing _ => (running closing).idles wait

theorem Pays.later_returns (hW : W.Pays) (running : s.closing = false → W.Runs)
    (items : List α) (reason : Flush.Reason) :
    W.later s < W.scheduler (.delivering items reason) := by
  refine later_lt (hW.returns items reason) ?_ ?_
  · exact fun closing later => Nat.lt_trans ((running closing).unparks later)
      ((running closing).returns items reason)
  · exact fun closing _ => (running closing).returns items reason

/-- There is packing to do or nothing at all, so the scheduler is not parked again. -/
theorem Pays.later_unparks (hW : W.Pays) (running : s.closing = false → W.Runs)
    (reason : s.closing = true ∨ s.model.packing = true) :
    W.later s < W.scheduler .parked := by
  refine later_lt hW.unparks (fun closing => (running closing).unparks) ?_
  intro closing direct
  rcases reason with reason | reason
  · rw [closing] at reason
    cases reason
  · rw [direct] at reason
    cases reason

omit [Number ν] in
/-- A timer of the scheduler brings about another tick, unless it is shutdown that wakes it. -/
theorem Pays.wake (hW : W.Pays) (running : s.closing = false → W.Runs) {wait : ν}
    (asleep : s.scheduler = .sleeping wait) :
    W.weigh (State.enqueue { s with scheduler := .locking wait s.closing } .scheduler) <
      W.weigh s + if s.alarm .schedulerWakes then W.alarm else 0 := by
  have hphase := W.weigh_scheduler s (.locking wait s.closing)
  rw [W.weigh_enqueue, State.alarm, asleep]
  rw [asleep] at hphase
  cases closing : s.closing with
  | true =>
    have hless := hW.wakes wait wait
    rw [closing] at hphase
    rw [turn] at hless
    show _ < _ + 0
    omega
  | false =>
    have hless := (running closing).wakes wait
    rw [closing] at hphase
    rw [turn] at hless
    show _ < _ + W.alarm
    omega

/-! ## Steps -/

/-- Every step of a task makes the engine lighter, unless a timer brings it about. -/
theorem Pays.task (hW : W.Pays) {e : Event α ν} (h : Move s e t) (task : e.isTask = true)
    (running : s.closing = false → W.Runs)
    (distinct : s.closing = false → (s.offers.map (·.number)).Nodup) :
    W.weigh t < W.weigh s + if s.alarm e then W.alarm else 0 := by
  have hstep : W.weigh t < W.weigh s →
      W.weigh t < W.weigh s + if s.alarm e then W.alarm else 0 :=
    fun hlt => Nat.lt_of_lt_of_le hlt (Nat.le_add_right _ _)
  cases h with
  | elapse | close | offerNothing | offer | measure => cases task
  | wake asleep => exact hW.wake running asleep
  | probe asleep opened =>
    have hprober := W.weigh_prober s .probing
    have hless := (running opened).probes
    rw [asleep] at hprober
    rw [State.alarm, opened]
    show W.weigh { s with prober := .probing } < W.weigh s + W.alarm
    omega
  | refuse found phase => exact hstep (hW.answer found (by simp [phase]) _)
  | @lineUp n k found phase _ opened =>
    have hphase := W.weigh_setPhase (distinct opened) found .atLock
    have hline := W.weigh_enqueue (s.setPhase n .atLock) (.offer n)
    have hless := (running opened).linesUp n
    rw [phase] at hphase
    exact hstep (by omega)
  | @send n k found phase _ opened =>
    have hphase := W.weigh_setPhase (distinct opened) found .sending
    have hless := (running opened).sends
    rw [phase] at hphase
    refine hstep ?_
    show W.weigh (s.setPhase n .sending) < W.weigh s
    omega
  | @bounce n k rest free head found =>
    have hpop := hW.pop head
    have hanswer := W.weigh_answer (s := { s with line := rest }) found
      (.refused (.closed s.settings.name))
    exact hstep (by omega)
  | @append n k rest free head found =>
    exact hstep (hW.join head found (State.joined s.buffer k.offer) .accepted)
  | measured free head | nobody free head => exact hstep (hW.pop head)
  | @shut wait rest free head turn empty =>
    have hpop := W.weigh_pop head
    have hless := hW.shuts wait
    rw [Weights.turn, ← turn] at hless
    refine hstep ?_
    show W.weigh { s with line := rest, scheduler := .atGate } < W.weigh s
    simp only [weigh] at hpop ⊢
    omega
  | @idle wait rest free head turn =>
    refine hstep (round (W.weigh_pop head) ?_)
    show W.later s < W.scheduler s.scheduler + W.waiter .scheduler
    rw [turn, Nat.add_comm]
    exact hW.later_idle running wait
  | @defer wait draining rest free head turn filled decision =>
    cases draining with
    | true =>
      rw [shouldFlush_of_draining] at decision
      cases decision
    | false =>
      refine hstep (round (W.weigh_pop head) ?_)
      show W.later s < W.scheduler s.scheduler + W.waiter .scheduler
      rw [turn, Nat.add_comm]
      exact hW.later_idle running wait
  | @flush wait draining rest free head turn filled =>
    -- what was buffered pays for the delivery
    have hpop := W.weigh_pop head
    have hfilled := W.items_filled filled
    have hless := hW.flushes wait draining s.buffer.items
      (s.evaluation wait draining).reasons.primary
    rw [Weights.turn, ← turn] at hless
    refine hstep ?_
    show (rest.map W.waiter).sum + (s.offers.map (W.offer ·.phase)).sum + 0 +
      W.scheduler (.delivering s.buffer.items (s.evaluation wait draining).reasons.primary) +
        W.prober s.prober < W.weigh s
    simp only [weigh] at hpop ⊢
    omega
  | directReturns fault found phase =>
    exact hstep (hW.answer (s := s) found (by simp [phase]) (.ofSend fault))
  | directCrashes found phase => exact hstep (hW.answer found (by simp [phase]) _)
  | proberEnds asleep =>
    refine hstep (W.weigh_prober_lt ?_)
    rw [asleep]
    exact hW.proberEnds false
  | probeCrashes probing =>
    refine hstep (W.weigh_prober_lt ?_)
    rw [probing]
    exact hW.probeEnds true
  | @learn reply millis probing =>
    exact hstep (hW.prober (s := s.learn millis) running probing)
  | @probeFails reply error probing =>
    exact hstep (hW.prober (s := s.reportFailure .probe 0 error) running probing)
  | unpark parked reason =>
    refine hstep (round (Nat.add_zero _) ?_)
    rw [parked]
    exact hW.later_unparks running reason
  | flushReturns delivering | flushFails fault delivering =>
    refine hstep (round (Nat.add_zero _) ?_)
    show W.later s < W.scheduler s.scheduler
    rw [delivering]
    exact hW.later_returns running _ _
  | flushCrashes old =>
    refine hstep (W.weigh_scheduler_lt ?_)
    rw [old]
    exact hW.crashes _ _
  | takeGate old =>
    refine hstep (W.weigh_scheduler_lt (s := s) ?_)
    rw [old]
    exact hW.takesGate
  | closeReturns old | closeFails fault old | closeCrashes old =>
    refine hstep (W.weigh_scheduler_lt (s := s) ?_)
    rw [old]
    exact hW.ends _

end Weights

end Engine
end AdaptiveBatch
