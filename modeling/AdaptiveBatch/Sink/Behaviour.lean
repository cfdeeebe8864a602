import AdaptiveBatch.Engine.State

/-!
# Sinks

A sink decides when a call begins how long it takes and what it comes to, and may
keep a state of its own.
-/

namespace AdaptiveBatch
namespace Sink

/-- What a sink call comes to. -/
inductive Reply (ν : Type) where
  | done
  /-- The answer of a probe. -/
  | answer (millis : ν)
  | fault (fault : Fault)
  /-- The call brings down the task that made it. -/
  | crash
  /-- A probe that is given up before it answers. -/
  | late
  deriving DecidableEq, Repr

/-- The fate of a call: how many milliseconds it takes, and what comes then. -/
structure Plan (ν : Type) where
  delay : Nat
  reply : Reply ν
  deriving DecidableEq, Repr

/-- A sink with state `σ` for items of type `α`. -/
structure Behaviour (σ α ν : Type) where
  name : σ → String
  start : σ → Request α → σ × Plan ν
  /-- What a call that succeeded leaves behind, given the milliseconds it took. -/
  finish : σ → Request α → Nat → σ

/-- The fault in a reply, if it is one. -/
def Reply.fault? {ν : Type} : Reply ν → Option Fault
  | .fault f => some f
  | _ => none

/-- The reply of a probe.  A sink that answers nothing answers zero. -/
def Reply.probe {ν : Type} [Number ν] : Reply ν → ProbeReply ν
  | .answer v => .answer v
  | .fault f => .fault f
  | .late => .late
  | .done | .crash => .answer (Number.ofCount 0)

/-- A plan under a time limit in milliseconds.  A call that takes as long as the
limit or longer is given up when the limit is reached. -/
def Plan.within {ν : Type} (p : Plan ν) : Option UInt64 → Plan ν
  | none => p
  | some limit =>
    if limit.toNat ≤ p.delay then { delay := limit.toNat, reply := .late } else p

end Sink
end AdaptiveBatch
