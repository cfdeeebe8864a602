import AdaptiveBatch.Sink.Behaviour

/-!
# Scripted sinks

A sink whose every call is planned in advance, for trials.
-/

namespace AdaptiveBatch
namespace Sink

/-- The plans for the calls of each kind, in order. -/
structure Scripted (ν : Type) where
  name : String
  probe : List (Plan ν)
  direct : List (Plan ν)
  flush : List (Plan ν)
  close : List (Plan ν)

/-- The next plan and the rest.  The last one repeats, and where there is none
every call succeeds at once. -/
def nextPlan {ν : Type} : List (Plan ν) → Plan ν × List (Plan ν)
  | [] => ({ delay := 0, reply := .done }, [])
  | [p] => (p, [p])
  | p :: rest => (p, rest)

namespace Scripted

def start {α ν : Type} (s : Scripted ν) : Request α → Scripted ν × Plan ν
  | .probe =>
    let (p, rest) := nextPlan s.probe
    ({ s with probe := rest }, p)
  | .sendDirect _ | .sendDirectAll _ =>
    let (p, rest) := nextPlan s.direct
    ({ s with direct := rest }, p)
  | .sendBatch _ | .sendSingle _ =>
    let (p, rest) := nextPlan s.flush
    ({ s with flush := rest }, p)
  | .close =>
    let (p, rest) := nextPlan s.close
    ({ s with close := rest }, p)

def behaviour (α ν : Type) : Behaviour (Scripted ν) α ν :=
  { name := Scripted.name, start := start, finish := fun s _ _ => s }

end Scripted
end Sink
end AdaptiveBatch
