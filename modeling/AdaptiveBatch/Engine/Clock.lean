import AdaptiveBatch.Engine.Spawn
import AdaptiveBatch.Sink.Behaviour

/-!
# Engines on a clock

A clock drives one engine and its sink.  Time is counted in whole milliseconds and
stands still as long as any task can go on; then it moves to the next timer.

At one instant sends that have returned to their callers come first, then offers at
the gate, then the line for the lock, then the flush scheduler, and the prober
last: a tick is taken with the estimate from before a probe that is due with it.
Every choice is one of the engine's enabled steps.
-/

namespace AdaptiveBatch
namespace Engine

/-- The sink call that an event has begun, read off the state that it led to. -/
def State.begun? {α ν : Type} (s : State α ν) : Event α ν → Option (Request α)
  | .enter n =>
    match s.ticket? n with
    | some t => if t.phase = .sending then some t.offer.request else none
    | none => none
  | .acquire =>
    match s.scheduler with
    | .delivering items _ => some (State.flushRequest items)
    | _ => none
  | .takeGate => some .close
  | .proberWakes =>
    match s.prober with
    | .probing => some .probe
    | _ => none
  | _ => none

structure Flight (α ν : Type) where
  request : Request α
  begun : Nat
  due : Nat
  reply : Sink.Reply ν

structure Clock (σ α ν : Type) where
  behaviour : Sink.Behaviour σ α ν
  engine : State α ν
  sink : σ
  /-- Direct sends, by the number of their offer. -/
  direct : List (Nat × Flight α ν)
  /-- A flush, or the closing of the sink. -/
  delivery : Option (Flight α ν)
  probe : Option (Flight α ν)
  tickDue : Option Nat
  probeDue : Option Nat

/-- Those who may go on by themselves. -/
inductive Task where
  | offer (number : Nat)
  /-- The first in line for the buffer lock. -/
  | line
  /-- The timer of the flush scheduler. -/
  | tick
  | scheduler
  /-- The timer of the prober. -/
  | beat
  | prober
  deriving DecidableEq, Repr

namespace Clock

variable {σ α ν : Type} [Number ν]

def now (c : Clock σ α ν) : Nat := c.engine.now

def reached (c : Clock σ α ν) (due : Option Nat) : Bool :=
  match due with
  | some t => t ≤ c.now
  | none => false

def landed (c : Clock σ α ν) (f : Flight α ν) : Bool := f.due ≤ c.now

/-! ## What happens next -/

/-- How a direct send ends. -/
def directEnd (n : Nat) (f : Flight α ν) : Event α ν :=
  match f.reply with
  | .crash => .directCrashes n
  | r => .directReturns n r.fault?

/-- An offer passes the gate now, or its direct send returns. -/
def offerEvent? (c : Clock σ α ν) (n : Nat) : Option (Event α ν) :=
  match c.engine.ticket? n with
  | some t =>
    match t.phase with
    | .atGate => if c.engine.gateOpen then some (.enter n) else none
    | .sending =>
      match c.direct.find? (·.1 = n) with
      | some (_, f) => if c.landed f then some (directEnd n f) else none
      | none => none
    | .atLock => none
  | none => none

def acquireEvent? (c : Clock σ α ν) : Option (Event α ν) :=
  if c.engine.lockHeld || c.engine.line.isEmpty then none else some .acquire

/-- The scheduler has slept long enough. -/
def tickEvent? (c : Clock σ α ν) : Option (Event α ν) :=
  match c.engine.scheduler with
  | .sleeping _ =>
    if !c.engine.closing && c.reached c.tickDue then some .schedulerWakes else none
  | _ => none

def schedulerEvent? (c : Clock σ α ν) : Option (Event α ν) :=
  match c.engine.scheduler with
  | .parked =>
    if c.engine.closing || c.engine.model.packing then some .schedulerWakes else none
  | .sleeping _ => if c.engine.closing then some .schedulerWakes else none
  | .delivering .. =>
    match c.delivery with
    | some f =>
      if c.landed f then
        match f.reply with
        | .crash => some .flushCrashes
        | r => some (.flushReturns r.fault?)
      else none
    | none => none
  | .atGate => if c.engine.sending then none else some .takeGate
  | .closing =>
    match c.delivery with
    | some f =>
      if c.landed f then
        match f.reply with
        | .crash => some .closeCrashes
        | r => some (.closeReturns r.fault?)
      else none
    | none => none
  | .locking .. | .ended _ => none

/-- The prober has slept long enough. -/
def beatEvent? (c : Clock σ α ν) : Option (Event α ν) :=
  match c.engine.prober with
  | .sleeping =>
    if !c.engine.closing && c.reached c.probeDue then some .proberWakes else none
  | _ => none

def proberEvent? (c : Clock σ α ν) : Option (Event α ν) :=
  match c.engine.prober with
  | .sleeping => if c.engine.closing then some .proberWakes else none
  | .probing =>
    match c.probe with
    | some f =>
      if c.landed f then
        match f.reply with
        | .crash => some .probeCrashes
        | r => some (.probeReturns r.probe)
      else none
    | none => none
  | .ended _ => none

/-- What a task that can go on at this instant comes to. -/
def event? (c : Clock σ α ν) : Task → Option (Event α ν)
  | .offer n => c.offerEvent? n
  | .line => c.acquireEvent?
  | .tick => c.tickEvent?
  | .scheduler => c.schedulerEvent?
  | .beat => c.beatEvent?
  | .prober => c.proberEvent?

/-- An offer that can go on: one whose direct send returns, or else one at the gate. -/
def nextOffer? (c : Clock σ α ν) : Option Nat :=
  (c.direct.find? fun (n, f) => c.landed f && (c.offerEvent? n).isSome).map (·.1) <|>
    if c.engine.gateOpen then (c.engine.offers.find? (·.phase = .atGate)).map (·.number)
    else none

/-- The task that goes on next at this instant, if any can. -/
def nextTask? (c : Clock σ α ν) : Option Task :=
  c.nextOffer?.map Task.offer <|>
    [Task.line, .scheduler, .tick, .prober, .beat].find? fun t => (c.event? t).isSome

/-- The next event at this instant, if there is any. -/
def next? (c : Clock σ α ν) : Option (Event α ν) := c.nextTask?.bind c.event?

/-! ## What follows from an event -/

/-- The sink is told of a call that has succeeded. -/
def finish (c : Clock σ α ν) (f : Flight α ν) : Clock σ α ν :=
  match f.reply with
  | .done => { c with sink := c.behaviour.finish c.sink f.request (c.now - f.begun) }
  | _ => c

/-- Sink calls that an event has brought to their end are over. -/
def land (c : Clock σ α ν) : Event α ν → Clock σ α ν
  | .directReturns n _ | .directCrashes n =>
    match c.direct.find? (·.1 = n) with
    | some (_, f) => { c.finish f with direct := c.direct.filter (·.1 ≠ n) }
    | none => c
  | .flushReturns _ | .flushCrashes | .closeReturns _ | .closeCrashes =>
    match c.delivery with
    | some f => { c.finish f with delivery := none }
    | none => c
  | .probeReturns _ | .probeCrashes => { c with probe := none }
  | _ => c

/-- Begins a sink call that event `e` has led to. -/
def launch (c : Clock σ α ν) (e : Event α ν) (r : Request α) : Clock σ α ν :=
  let (sink, plan) := c.behaviour.start c.sink r
  let c := { c with sink }
  let flight (p : Sink.Plan ν) : Flight α ν :=
    { request := r, begun := c.now, due := c.now + p.delay, reply := p.reply }
  match r, e with
  | .probe, _ =>
    { c with probe := some (flight (plan.within c.engine.settings.probeTimeout)) }
  | .sendDirect _, .enter n | .sendDirectAll _, .enter n =>
    { c with direct := c.direct ++ [(n, flight plan)] }
  | _, _ => { c with delivery := some (flight plan) }

/-- Timers of tasks that have begun to sleep start, and those of tasks that sleep
no more are gone. -/
def setTimers (c : Clock σ α ν) : Clock σ α ν :=
  let tickDue :=
    match c.engine.scheduler with
    | .sleeping wait =>
      some (c.tickDue.getD (c.now + ((Duration.ofMillis? wait).map Duration.ticks).getD 0))
    | _ => none
  let probeDue :=
    match c.engine.prober with
    | .sleeping => some (c.probeDue.getD (c.now + c.engine.settings.probeInterval.toNat))
    | _ => none
  { c with tickDue, probeDue }

/-- Applies an event; one that is not enabled changes nothing. -/
def apply (c : Clock σ α ν) (e : Event α ν) : Clock σ α ν :=
  match c.engine.step? e with
  | none => c
  | some engine =>
    let c := { c.land e with engine }
    let c :=
      match engine.begun? e with
      | some r => c.launch e r
      | none => c
    c.setTimers

/-! ## Running -/

/-- All that is due at this instant, as far as `fuel` goes. -/
def settle : Nat → Clock σ α ν → Clock σ α ν
  | 0, c => c
  | fuel + 1, c =>
    match c.next? with
    | some e => settle fuel (c.apply e)
    | none => c

def nextDue? (c : Clock σ α ν) : Option Nat :=
  ([c.tickDue, c.probeDue, c.delivery.map (·.due), c.probe.map (·.due)].filterMap id ++
    c.direct.map (·.2.due)).min?

def moveTo (c : Clock σ α ν) (t : Nat) : Clock σ α ν :=
  c.apply (.elapse (t - c.now))

/-- Runs until `done`, or until nothing more can happen, or time would pass `limit`,
or `fuel` is used up. -/
def runUntil (limit : Option Nat) (done : Clock σ α ν → Bool) :
    Nat → Clock σ α ν → Clock σ α ν
  | 0, c => c
  | fuel + 1, c =>
    if done c then c
    else
      match c.next? with
      | some e => runUntil limit done fuel (c.apply e)
      | none =>
        match c.nextDue? with
        | none => c
        | some t =>
          if (limit.map (decide <| t ≤ ·)).getD true then
            runUntil limit done fuel (c.moveTo t)
          else c

/-- Enough for any run that is meant to end. -/
def enough : Nat := 1000000000000

/-- Everything due up to and at a moment happens. -/
def runTo (t : Nat) (c : Clock σ α ν) : Clock σ α ν :=
  let c := c.runUntil (some t) (fun _ => false) enough
  if c.now < t then c.moveTo t else c

def tasksEnded (c : Clock σ α ν) : Bool :=
  c.engine.proberEnded && c.engine.schedulerEnded

def join (c : Clock σ α ν) : Clock σ α ν := c.runUntil none tasksEnded enough

/-- How the background tasks ended: the prober is asked first. -/
def joinError? (c : Clock σ α ν) : Option (EngineError ν) :=
  match c.engine.prober, c.engine.scheduler with
  | .ended true, _ => some (.taskFailed .prober "crashed")
  | _, .ended true => some (.taskFailed .flushScheduler "crashed")
  | _, _ => none

def close (c : Clock σ α ν) : Clock σ α ν := c.apply .close

/-- Makes an offer; the answer is its number. -/
def offer (c : Clock σ α ν) (o : Offer α) : Nat × Clock σ α ν :=
  (c.engine.nextNumber, c.apply (.offer o))

def offered (number : Nat) (c : Clock σ α ν) : Bool :=
  (c.engine.ticket? number).isNone

def offerAndWait (c : Clock σ α ν) (o : Offer α) :
    Option (Nat × Outcome ν) × Clock σ α ν :=
  let (n, c) := c.offer o
  let c := c.runUntil none (offered n) enough
  (c.engine.outcome? n, c)

/-- Asks how much is buffered and waits for the answer. -/
def measure (c : Clock σ α ν) : Option Nat × Clock σ α ν :=
  let n := c.engine.nextNumber
  let c := (c.apply .measure).runUntil none
    (fun c => !c.engine.line.contains (.observer n)) enough
  (c.engine.measured? n, c)

/-! ## Starting -/

/-- What is left of an engine that could not be started. -/
structure Aborted (σ α ν : Type) where
  failure : SpawnFailure ν
  now : Nat
  calls : List (Nat × Request α)
  failures : List (FailureEvent ν)
  counters : Metrics.Counters
  recorder : Metrics.Recorder ν
  sink : σ

/-- Builds an engine and waits for its seed probe.  Neither of its tasks has taken a step
yet. -/
def start (behaviour : Sink.Behaviour σ α ν) (sink : σ) (settings : Settings ν) :
    Except (Aborted σ α ν) (Clock σ α ν) :=
  match State.build settings (behaviour.name sink) 0 with
  | .error failure =>
    .error { failure, now := 0, calls := [], failures := [], counters := {}, recorder := {}, sink }
  | .ok engine =>
    let (sink, plan) := behaviour.start sink .probe
    let plan := plan.within settings.probeTimeout
    let engine := { engine with now := engine.now + plan.delay }
    let aborted (failure : SpawnFailure ν) : Aborted σ α ν :=
      { failure, now := engine.now, calls := engine.calls, failures := engine.failures
        counters := engine.counters, recorder := engine.recorder, sink }
    match plan.reply with
    | .crash => .error (aborted .crashed)
    | reply =>
      match engine.seed reply.probe with
      | .error failure => .error (aborted failure)
      | .ok engine =>
        let c : Clock σ α ν :=
          { behaviour, engine, sink
            direct := [], delivery := none, probe := none, tickDue := none
            probeDue := none }
        .ok c.setTimers

/-- An engine that has started and has done all that is due at once. -/
def spawn (behaviour : Sink.Behaviour σ α ν) (sink : σ) (settings : Settings ν) :
    Except (Aborted σ α ν) (Clock σ α ν) :=
  (start behaviour sink settings).map (·.settle enough)

end Clock
end Engine
end AdaptiveBatch
