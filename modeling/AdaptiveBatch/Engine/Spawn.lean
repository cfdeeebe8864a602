import AdaptiveBatch.Engine.Step

/-!
# Starting an engine

An engine is built from settings that pass the check, probes its sink once, and
only if that probe counts starts its two background tasks.
-/

namespace AdaptiveBatch
namespace Engine

/-- Why there is no engine. -/
inductive SpawnFailure (ν : Type) where
  | refused (error : EngineError ν)
  /-- A channel of this capacity cannot be made. -/
  | crashed
  deriving DecidableEq, Repr

namespace State

variable {α ν : Type} [Number ν]

/-- An engine at its seed probe, before either of its tasks runs. -/
def build (settings : Settings ν) (sink : String) (now : Nat) :
    Except (SpawnFailure ν) (State α ν) :=
  match settings.check with
  | .error f => .error (.refused (.settings f))
  | .ok () =>
    if greatestCapacity < settings.failureCapacity.toNat then .error .crashed
    else
      .ok <| State.note
        { settings, sink, now
          model := .initial settings.packingThreshold
          buffer := .empty (Duration.ofMilliseconds now)
          closing := false
          offers := []
          nextNumber := 0
          line := []
          scheduler := .parked
          prober := .probing
          counters := {}
          recorder := {}
          log := [] }
        (.called .starter .probe)

/-- The seed probe has come to something: an engine that has its first estimate
and runs, or none. -/
def seed (s : State α ν) (reply : ProbeReply ν) : Except (SpawnFailure ν) (State α ν) :=
  match judgeProbe s.sink s.settings.probeTimeout reply with
  | .ok millis => .ok { s.learn millis with prober := .sleeping }
  | .error e => .error (.refused e)

/-- A running engine, from the settings and what the seed probe came to after
`delay` milliseconds. -/
def spawn (settings : Settings ν) (sink : String) (now delay : Nat)
    (reply : ProbeReply ν) : Except (SpawnFailure ν) (State α ν) := do
  let s ← build settings sink now
  { s with now := s.now + delay }.seed reply

end State

end Engine
end AdaptiveBatch
