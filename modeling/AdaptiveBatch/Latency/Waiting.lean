import AdaptiveBatch.Latency.Model

/-!
# Waiting for the packing switch

A task that waits for packing mode looks at the switch, and if it is off lines up
for one notification; when that comes it looks again.  Turning the switch on sends
one notification, once: to the first task in line, or, if there is none, to the
next task that asks for one.
-/

namespace AdaptiveBatch
namespace Latency

/-- The notification that the switch sends, and the tasks, by number, that are in
line for it or have it and have not run since. -/
structure Waiting where
  /-- A notification that nobody was there to take. -/
  permit : Bool := false
  line : List Nat := []
  notified : List Nat := []
  deriving DecidableEq, Repr

namespace Waiting

/-- One notification is sent. -/
def notify (w : Waiting) : Waiting :=
  match w.line with
  | [] => { w with permit := true }
  | t :: rest => { w with line := rest, notified := w.notified ++ [t] }

/-- Task `t` runs, with the switch as it is: the answer is whether it goes on
past its wait. -/
def poll (w : Waiting) (packing : Bool) (t : Nat) : Bool × Waiting :=
  if t ∈ w.line then (false, w)
  else
    let w := { w with notified := w.notified.filter (· ≠ t) }
    if packing then (true, w)
    -- A permit from before is used up, and the look that follows finds the switch off.
    else (false, { w with permit := false, line := w.line ++ [t] })

/-- Task `t` gives up.  A notification that it had and did not act on goes to the
next in line. -/
def abandon (w : Waiting) (t : Nat) : Waiting :=
  let rest := { w with
    line := w.line.filter (· ≠ t), notified := w.notified.filter (· ≠ t) }
  if t ∈ w.notified then rest.notify else rest

end Waiting

/-- The model together with the tasks that wait for its switch. -/
structure Watched (ν : Type) where
  model : Model ν
  waiting : Waiting := {}

namespace Watched

variable {ν : Type} [Number ν]

/-- Takes in a probe's answer; the task first in line hears of it if that is what
turns packing on.  The answer is whether it is. -/
def publish (w : Watched ν) (probe : ν) : Bool × Watched ν :=
  let enables := w.model.enables probe
  (enables,
    { model := w.model.publish probe
      waiting := if enables then w.waiting.notify else w.waiting })

/-- Task `t` runs. -/
def poll (w : Watched ν) (t : Nat) : Bool × Watched ν :=
  let (done, waiting) := w.waiting.poll w.model.packing t
  (done, { w with waiting })

def abandon (w : Watched ν) (t : Nat) : Watched ν :=
  { w with waiting := w.waiting.abandon t }

end Watched
end Latency
end AdaptiveBatch
