import AdaptiveBatch.Proofs.Engine.Call
import AdaptiveBatch.Proofs.Engine.Weight

/-!
# The work left

Once shutdown is requested every step of a task uses up some of the work that is
left, and new work comes only with those who still call on the engine.

The flush decision plays no part in this.  A scheduler that has seen the shutdown
flushes whatever is buffered, and one that lined up before it did has one tick left
in which the decision counts.
-/

namespace AdaptiveBatch
namespace Engine

variable {α ν : Type}

/-- Whether somebody calls on the engine. -/
def Event.arrives : Event α ν → Bool
  | .offer _ | .measure => true
  | _ => false

def Act.isTask : Act α ν → Bool
  | .event e => e.isTask
  | .reorder _ => false

def Act.arrives : Act α ν → Bool
  | .event e => e.arrives
  | .reorder _ => false

/-! ## The measure -/

/-- An offer in line may yet fill the buffer, for which the scheduler has to have one
more tick. -/
def Waiter.work : Waiter → Nat
  | .offer _ => 3
  | .scheduler | .observer _ => 1

def SchedulerPhase.work : SchedulerPhase α ν → Nat
  | .parked | .sleeping _ | .delivering _ _ => 4
  | .locking _ draining => if draining then 2 else 3
  | .atGate => 2
  | .closing => 1
  | .ended _ => 0

def ProberPhase.work : ProberPhase → Nat
  | .sleeping | .probing => 1
  | .ended _ => 0

def lineWork : List Waiter → Nat
  | [] => 0
  | w :: line => w.work + lineWork line

/-- The offers in line are counted there. -/
def offerWork (offers : List (Ticket α)) : Nat := offers.countP (·.phase ≠ .atLock)

def itemWork (items : List α) : Nat := if items.isEmpty then 0 else 2

/-- How many steps the tasks of a closing engine have left, at most. -/
def State.work (s : State α ν) : Nat :=
  lineWork s.line + offerWork s.offers + itemWork s.buffer.items + s.scheduler.work +
    s.prober.work

/-! ## Its weights -/

/-- No timer adds anything: once shutdown is requested nothing waits for one. -/
def Weights.work : Weights α ν where
  waiter := Waiter.work
  offer := fun p => if p = .atLock then 0 else 1
  buffer := 2
  scheduler := SchedulerPhase.work
  prober := ProberPhase.work
  alarm := 0

theorem lineWork_eq (line : List Waiter) : lineWork line = (line.map Waiter.work).sum := by
  induction line with
  | nil => rfl
  | cons w rest ih => rw [lineWork, ih, List.map_cons, List.sum_cons]

theorem offerWork_eq (offers : List (Ticket α)) :
    offerWork offers = (offers.map fun k => if k.phase = .atLock then 0 else 1).sum := by
  induction offers with
  | nil => rfl
  | cons k rest ih =>
    rw [List.map_cons, List.sum_cons, ← ih, offerWork, List.countP_cons, Nat.add_comm]
    by_cases hk : k.phase = .atLock <;> simp [hk, offerWork]

theorem weigh_work (s : State α ν) : Weights.work.weigh s = s.work := by
  rw [State.work, lineWork_eq, offerWork_eq]
  rfl

theorem pays_work : (Weights.work : Weights α ν).Pays where
  waiter w := by cases w <;> exact Nat.succ_pos _
  joins _ := by show 2 < 3; decide
  answers p hp := by
    have hone : (Weights.work : Weights α ν).offer p = 1 := if_neg hp
    rw [hone]
    decide
  unparks _ := by show 1 + 2 < 4; decide
  wakes _ _ := by show 1 + 2 < 4; decide
  idles _ _ := by show 1 + 2 < 1 + 3; decide
  flushes _ draining _ _ := by
    cases draining
    · show 4 < 1 + 3 + 2; decide
    · show 4 < 1 + 2 + 2; decide
  returns _ _ _ := by show 1 + 2 < 4; decide
  shuts _ := by show 2 < 1 + 2; decide
  takesGate := by show 1 < 2; decide
  ends _ := by show 0 < 1; decide
  proberEnds _ := by show 0 < 1; decide
  probeEnds _ := by show 0 < 1; decide

theorem work_reorder {s : State α ν} {line : List Waiter} (order : s.line.Perm line) :
    State.work { s with line } = s.work := by
  rw [← weigh_work, ← weigh_work, Weights.weigh_reorder _ order]

variable [Number ν]

/-! ## Steps and runs -/

/-- Every step of a task uses up some of the work that is left. -/
theorem work_task {s t : State α ν} {e : Event α ν} (h : Move s e t)
    (closing : s.closing = true) (task : e.isTask = true) : t.work < s.work := by
  have running : s.closing ≠ false := by simp [closing]
  have hless := pays_work.task h task (absurd · running) (absurd · running)
  rw [weigh_work, weigh_work] at hless
  simpa [Weights.work] using hless

theorem work_arrival {s t : State α ν} {e : Event α ν} (h : Move s e t)
    (outside : e.isTask = false) : t.work ≤ s.work + (if e.arrives then 1 else 0) := by
  rw [← weigh_work, ← weigh_work]
  cases h with
  | elapse | close => exact Nat.le_refl _
  | offerNothing => exact Nat.le_succ _
  | @offer o =>
    exact Nat.le_of_eq (Weights.weigh_arrive Weights.work s
      { number := s.nextNumber, offer := o, phase := .atGate } (s.nextNumber + 1))
  | measure =>
    exact Nat.le_of_eq (Weights.weigh_enqueue Weights.work s (.observer s.nextNumber))
  | _ => cases outside

theorem work_act {s t : State α ν} {a : Act α ν} (h : s.act? a = some t)
    (closing : s.closing = true) :
    t.work + (if a.isTask then 1 else 0) ≤ s.work + (if a.arrives then 1 else 0) := by
  cases a with
  | reorder line =>
    obtain ⟨order, rfl⟩ := reorder_of_act h
    exact Nat.le_of_eq (work_reorder order)
  | event e =>
    show t.work + (if e.isTask then 1 else 0) ≤ s.work + (if e.arrives then 1 else 0)
    have hmove := move_of_step h
    cases htask : e.isTask with
    | true => exact Nat.le_add_right_of_le (work_task hmove closing htask)
    | false => exact work_arrival hmove htask

theorem work_race {s t : State α ν} {as : List (Act α ν)} (closing : s.closing = true)
    (h : s.race? as = some t) :
    t.work + as.countP (·.isTask) ≤ s.work + as.countP (·.arrives) := by
  refine race_induction
    (motive := fun s as t => s.closing = true →
      t.work + as.countP (·.isTask) ≤ s.work + as.countP (·.arrives))
    (fun _ _ => Nat.le_refl _) ?_ h closing
  intro s u t a as hact _ ih closing
  have hone := work_act hact closing
  have hrest := ih (closing_act closing hact)
  rw [List.countP_cons, List.countP_cons]
  omega

end Engine
end AdaptiveBatch
