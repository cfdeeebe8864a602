import AdaptiveBatch.Engine.Clock
import AdaptiveBatch.Sink.Simulated

/-!
# The world of a simulation

A number of producers offer payloads through one engine to a simulated sink, each
one its own number of items and one offer at a time, until all are done or
shutdown is requested.

The engine's tasks, the producers and the runner that waits for them take turns, and
nothing is said here about whose turn it is: `step?` answers none for a turn that
cannot be taken, and any other may come next.
-/

namespace AdaptiveBatch
namespace Simulation

/-- The items of a simulation.  The sink counts them and looks no further. -/
structure Payload where
  producer : Nat
  sequence : Nat
  /-- The length in bytes: as configured, but never below that of its header. -/
  size : Nat
  deriving DecidableEq, Repr

/-- A payload; none is as long as `2 ^ 63` bytes. -/
def Payload.make? (producer sequence size : Nat) : Option Payload :=
  if size < 0x8000000000000000 then some { producer, sequence, size := max 16 size } else none

inductive ProducerPhase where
  /-- It has not had its first turn. -/
  | fresh
  /-- It waits for this offer of its own. -/
  | waiting (number : Nat)
  | done
  deriving DecidableEq, Repr

/-- A producer: how many items it has offered with success, and how many it has not. -/
structure Producer where
  index : Nat
  accepted : Nat
  left : Nat
  phase : ProducerPhase
  deriving DecidableEq, Repr

abbrev Run (ν : Type) := Engine.Clock (Sink.Simulated ν) Payload ν

/-- Why a simulation came to nothing. -/
inductive Failure (ν : Type) where
  | start (error : EngineError ν)
  | producer (error : EngineError ν)
  | tasks (error : EngineError ν)
  /-- The engine could not be built at all. -/
  | crashed

structure Stats (ν : Type) where
  itemsOffered : Nat
  duration : Duration
  interrupted : Bool
  packing : Bool
  latency : ν
  failures : Nat
  batcher : Metrics.Counters
  delivery : Metrics.DeliverySummary ν

/-! ## Producers -/

namespace Producer

/-- A producer that was brought down.  What it had offered is not counted. -/
def crash (p : Producer) : Producer := { p with accepted := 0, phase := .done }

/-- The offer that a producer waits for. -/
def waitsFor? (p : Producer) : Option Nat :=
  match p.phase with
  | .waiting n => some n
  | .fresh | .done => none

variable {ν : Type} [Number ν]

/-- The producer makes its next offer, if it has any left; one whose payload cannot be made
goes down. -/
def next (p : Producer) (size : Nat) (c : Run ν) : Producer × Run ν :=
  if p.left = 0 then ({ p with phase := .done }, c)
  else
    match Payload.make? p.index p.accepted size with
    | some payload =>
      let (n, c) := c.offer (.one payload)
      ({ p with phase := .waiting n }, c)
    | none => (p.crash, c)

/-- What a producer does once its offer has ended: it goes on after a success and
stops when the engine is closed. -/
def resume (p : Producer) (size : Nat) (c : Run ν) :
    Engine.Outcome ν → Except (EngineError ν) (Producer × Run ν)
  | .accepted => .ok (next { p with accepted := p.accepted + 1, left := p.left - 1 } size c)
  | .refused (.closed _) => .ok ({ p with phase := .done }, c)
  | .refused e => .error e
  | .crashed => .ok (p.crash, c)

/-- A producer begins, or goes on once its offer has ended. -/
def turn? (p : Producer) (size : Nat) (c : Run ν) :
    Option (Except (EngineError ν) (Producer × Run ν)) :=
  match p.phase with
  | .fresh => some (.ok (p.next size c))
  | .waiting n =>
    match c.engine.ticket? n with
    | some _ => none
    | none => (c.engine.outcome? n).map fun (_, o) => p.resume size c o
  | .done => none

end Producer

/-- What all producers together have offered with success. -/
def counted : List Producer → Nat
  | [] => 0
  | p :: ps => p.accepted + counted ps

/-- The producers of a workload, none of which has begun. -/
def crew {ν : Type} (w : Workload ν) : List Producer :=
  (List.range w.producers.toNat).map fun i =>
    { index := i, accepted := 0, left := w.itemsPerProducer.toNat, phase := .fresh }

/-! ## Turns -/

inductive Turn where
  | elapse (millis : Nat)
  | task (task : Engine.Task)
  /-- Those in line for the buffer lock have come to it in another order: between passing the
  gate and asking for the lock an offer may be overtaken. -/
  | reorder (line : List Engine.Waiter)
  | producer (place : Nat)
  /-- Shutdown is requested from outside. -/
  | shutdown
  /-- The runner finds all producers done and closes the engine. -/
  | wrapUp
  deriving DecidableEq, Repr

structure World (ν : Type) where
  run : Run ν
  producers : List Producer
  interrupted : Bool
  /-- The runner waits for the background tasks and for nothing else. -/
  wrapped : Bool

/-- The name of the simulated sink of an engine. -/
def sinkName (batcher : String) : String := batcher ++ "-sink"

namespace World

variable {ν : Type} [Number ν]

/-- A simulation whose engine has had its seed probe and nothing else. -/
def start (settings : Settings ν) (workload : Workload ν) :
    Except (Failure ν) (World ν) :=
  let sink := Sink.Simulated.ofWorkload (sinkName settings.name) workload
  match Engine.Clock.start (Sink.Simulated.behaviour Payload ν) sink settings with
  | .error a =>
    match a.failure with
    | .refused e => .error (.start e)
    | .crashed => .error .crashed
  | .ok run => .ok { run, producers := crew workload, interrupted := false, wrapped := false }

/-- What a turn leads to, if it can be taken.  The offer of a producer may have failed, and
with it the simulation. -/
def step? (size : Nat) (w : World ν) : Turn → Option (Except (EngineError ν) (World ν))
  | .elapse ms => some (.ok { w with run := w.run.apply (.elapse ms) })
  | .task t => (w.run.event? t).map fun e => .ok { w with run := w.run.apply e }
  | .reorder line =>
    if w.run.engine.line.Perm line then
      some (.ok { w with run := { w.run with engine := { w.run.engine with line } } })
    else none
  | .producer i =>
    w.producers[i]?.bind fun p =>
      (p.turn? size w.run).map fun r => r.map fun (p, run) =>
        { w with run, producers := w.producers.set i p }
  | .shutdown =>
    if w.interrupted || w.wrapped then none
    else some (.ok { w with run := w.run.close, interrupted := true })
  | .wrapUp =>
    if w.wrapped || !w.producers.all (·.phase = .done) then none
    else some (.ok { w with run := w.run.close, wrapped := true })

/-- Whether there is nothing left to wait for. -/
def isOver (w : World ν) : Bool := w.wrapped && w.run.tasksEnded

def stats [SquareRoot ν] (w : World ν) : Stats ν :=
  { itemsOffered := counted w.producers
    duration := Duration.ofMilliseconds w.run.now
    interrupted := w.interrupted
    packing := w.run.engine.model.packing
    latency := w.run.engine.model.estimate.latency
    failures := w.run.engine.failures.length
    batcher := w.run.engine.counters
    delivery := w.run.sink.tally.summary }

/-- What the runner makes of a simulation that is over. -/
def conclude [SquareRoot ν] (w : World ν) : Except (Failure ν) (Stats ν) :=
  match w.run.joinError? with
  | some e => .error (.tasks e)
  | none => .ok w.stats

/-- Takes turns as they are chosen, as far as `fuel` goes. -/
def drive (size : Nat) (choose : World ν → Option Turn) :
    Nat → World ν → Except (EngineError ν) (World ν)
  | 0, w => .ok w
  | fuel + 1, w =>
    match (choose w).bind (w.step? size) with
    | none => .ok w
    | some (.error e) => .error e
    | some (.ok w) => drive size choose fuel w

end World
end Simulation
end AdaptiveBatch
