import AdaptiveBatch.Proofs.Engine.Weight

/-!
# The effort left

`State.work` bounds what the tasks of a closing engine have still to do.  An engine that is
not closing goes on for ever, but only because its two timers do: every step that no timer
brings about uses up some of a larger measure, to which each timer that fires adds a
little.
-/

namespace AdaptiveBatch
namespace Engine

variable {α ν : Type}

/-! ## The measure -/

def Waiter.effort : Waiter → Nat
  | .offer _ => 5
  | .scheduler | .observer _ => 1

def OfferPhase.effort : OfferPhase → Nat
  | .atGate => 6
  | .sending => 1
  | .atLock => 0

/-- A tick may lead to a delivery, and that to any wait of the loop. -/
def SchedulerPhase.effort : SchedulerPhase α ν → Nat
  | .parked => 5
  | .sleeping _ => 4
  | .locking _ draining => if draining then 2 else 5
  | .delivering _ _ => 6
  | .atGate => 2
  | .closing => 1
  | .ended _ => 0

def ProberPhase.effort : ProberPhase → Nat
  | .sleeping => 1
  | .probing => 2
  | .ended _ => 0

def offersEffort (offers : List (Ticket α)) : Nat := (offers.map (·.phase.effort)).sum

def lineEffort (line : List Waiter) : Nat := (line.map Waiter.effort).sum

def itemsEffort (items : List α) : Nat := if items.isEmpty then 0 else 4

/-- How many steps the tasks have left, at most, if no timer fires any more and nobody calls
on the engine. -/
def State.effort (s : State α ν) : Nat :=
  lineEffort s.line + offersEffort s.offers + itemsEffort s.buffer.items + s.scheduler.effort +
    s.prober.effort

/-! ## Its weights -/

/-- The effort is by definition what an engine weighs with these. -/
def Weights.effort : Weights α ν where
  waiter := Waiter.effort
  offer := OfferPhase.effort
  buffer := 4
  scheduler := SchedulerPhase.effort
  prober := ProberPhase.effort
  alarm := 3

theorem pays_effort : (Weights.effort : Weights α ν).Pays where
  waiter w := by cases w <;> exact Nat.succ_pos _
  joins _ := by show 4 < 5; decide
  answers p hp := by
    cases p with
    | atLock => exact absurd rfl hp
    | atGate | sending => exact Nat.succ_pos _
  unparks _ := by show 1 + 2 < 5; decide
  wakes _ _ := by show 1 + 2 < 4; decide
  idles _ _ := by show 1 + 2 < 1 + 5; decide
  flushes _ draining _ _ := by
    cases draining
    · show 6 < 1 + 5 + 4; decide
    · show 6 < 1 + 2 + 4; decide
  returns _ _ _ := by show 1 + 2 < 6; decide
  shuts _ := by show 2 < 1 + 2; decide
  takesGate := by show 1 < 2; decide
  ends _ := by show 0 < 1; decide
  proberEnds _ := by show 0 < 1; decide
  probeEnds _ := by show 0 < 2; decide

theorem runs_effort : (Weights.effort : Weights α ν).Runs where
  linesUp _ := by show 0 + 5 < 6; decide
  sends := by show 1 < 6; decide
  unparks _ := by show 4 < 5; decide
  idles _ := by show 5 < 1 + 5; decide
  returns _ _ := by show 5 < 6; decide
  wakes _ := by show 1 + 5 < 4 + 3; decide
  probes := by show 2 < 1 + 3; decide
  rests := by show 1 < 2; decide

theorem effort_reorder {s : State α ν} {line : List Waiter} (order : s.line.Perm line) :
    State.effort { s with line } = s.effort :=
  Weights.weigh_reorder Weights.effort order

theorem effort_arrive (s : State α ν) (x : α) :
    (s.arrive (.one x)).effort = s.effort + 6 :=
  Weights.weigh_arrive Weights.effort s
    { number := s.nextNumber, offer := .one x, phase := .atGate } (s.nextNumber + 1)

/-! ## Steps -/

/-- Every step of a task uses up some of the effort, unless a timer brings it about. -/
theorem effort_task [Number ν] {s t : State α ν} {e : Event α ν} (h : Move s e t)
    (distinct : (s.offers.map (·.number)).Nodup) (task : e.isTask = true) :
    t.effort < s.effort + if s.alarm e then 3 else 0 :=
  pays_effort.task h task (fun _ => runs_effort) (fun _ => distinct)

end Engine
end AdaptiveBatch
