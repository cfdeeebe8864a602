import AdaptiveBatch.Config.Settings
import AdaptiveBatch.Duration
import AdaptiveBatch.Metrics.Tally
import AdaptiveBatch.Sink.Behaviour

/-!
# The simulated sink

Stands in for a slow peer.  A call takes a fixed overhead and a cost for each item,
and the sink keeps a tally of its calls and of the time they really took.
-/

namespace AdaptiveBatch
namespace Sink

structure Simulated (ν : Type) where
  name : String
  probe : ν
  callOverhead : ν
  perItemCost : ν
  tally : Metrics.Tally ν

namespace Simulated

variable {α ν : Type} [Number ν]

def ofWorkload (name : String) (w : Workload ν) : Simulated ν :=
  { name, probe := w.probe, callOverhead := w.callOverhead, perItemCost := w.perItemCost
    tally := .empty }

/-- The milliseconds that a call with this many items is meant to take. -/
def callCost (s : Simulated ν) (items : Nat) : ν :=
  s.callOverhead + Number.ofCount items * s.perItemCost

/-- A call that costs anything sleeps for it.  A cost beyond every timer brings the
caller down. -/
def plan (s : Simulated ν) (items : Nat) : Plan ν :=
  let cost := s.callCost items
  if Number.less (Number.ofCount 0) cost then
    match Duration.ofMillis? cost with
    | some d => { delay := d.ticks, reply := .done }
    | none => { delay := 0, reply := .crash }
  else { delay := 0, reply := .done }

def start (s : Simulated ν) (r : Request α) : Simulated ν × Plan ν :=
  match r with
  | .probe => (s, { delay := 0, reply := .answer s.probe })
  | .close => (s, { delay := 0, reply := .done })
  | _ => (s, s.plan r.items.length)

/-- Enters a call into the tally, with the time it took. -/
def finish (s : Simulated ν) (r : Request α) (millis : Nat) : Simulated ν :=
  let cost : ν := (Duration.ofMilliseconds millis).toMillis
  match r with
  | .probe | .close => s
  | .sendDirect _ => { s with tally := s.tally.direct 1 cost }
  | .sendDirectAll xs => { s with tally := s.tally.direct xs.length cost }
  | .sendBatch xs => { s with tally := s.tally.batch xs.length cost }
  | .sendSingle _ => { s with tally := s.tally.single cost }

def behaviour (α ν : Type) [Number ν] : Behaviour (Simulated ν) α ν :=
  { name := Simulated.name, start := start, finish := finish }

end Simulated
end Sink
end AdaptiveBatch
