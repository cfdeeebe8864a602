import AdaptiveBatch.Simulation.World

/-!
# Simulations on a clock

Of all the ways that the turns of a simulation can come in, the clock's is this one:
what is due at the start comes first, then the producers in their order, then the
engine's tasks in theirs, and time passes when nobody can go on.
-/

namespace AdaptiveBatch
namespace Simulation

/-- What failed and why, outermost first. -/
def Failure.chain {ν : Type} [Number ν] : Failure ν → List String
  | .start e => "Failed to start batcher" :: e.chain
  | .producer e => "Producer failed" :: e.chain
  | .tasks e => "Batcher tasks failed" :: e.chain
  | .crashed => ["Failed to start batcher"]

variable {ν : Type} [Number ν]

/-- Whether a producer can go on: it is not done, and does not wait for an offer that is
still under way. -/
def Producer.ready (p : Producer) (c : Run ν) : Bool :=
  match p.phase with
  | .fresh => true
  | .waiting n => (c.engine.ticket? n).isNone
  | .done => false

namespace World

/-- The engine's tasks alone. -/
def taskTurn? (w : World ν) : Option Turn := w.run.nextTask?.map .task

/-- Time passes until the next timer, or until `stop`. -/
def waitTurn? (stop : Option Nat) (w : World ν) : Option Turn :=
  (([w.run.nextDue?, stop].filterMap id).min?).map fun t => .elapse (t - w.run.now)

/-- The turn that comes next on the clock.  Shutdown is requested at the moment `shutdown`,
if the producers are not done before, and ahead of whatever else is due then. -/
def clockTurn? (shutdown : Option Nat) (w : World ν) : Option Turn :=
  if w.isOver then none
  else if w.wrapped then w.taskTurn? <|> w.waitTurn? none
  else if w.producers.all (·.phase = .done) then w.taskTurn? <|> some .wrapUp
  else
    let stop := if w.interrupted then none else shutdown
    if (stop.map (decide <| · ≤ w.run.now)).getD false then some .shutdown
    else
      (w.producers.findIdx? (·.ready w.run)).map Turn.producer <|> w.taskTurn? <|>
        w.waitTurn? stop

end World

/-- A whole simulation.  The answer has the engine's last state beside the figures,
so that what it recorded can be looked at. -/
def run [SquareRoot ν] (settings : Settings ν) (workload : Workload ν)
    (shutdown : Option Nat) :
    Except (Failure ν) (Stats ν × Engine.State Payload ν) := do
  let size := workload.payloadBytes.toNat
  let w ← World.start settings workload
  let driven := do
    let w ← w.drive size World.taskTurn? Engine.Clock.enough
    w.drive size (World.clockTurn? shutdown) Engine.Clock.enough
  match driven with
  | .error e => .error (.producer e)
  | .ok w => return (← w.conclude, w.run.engine)

end Simulation
end AdaptiveBatch
