import AdaptiveBatch.Engine.State

/-!
# The steps of an engine

Each step takes one task from one of its waits to the next.  `step?` answers none
for a step that is not enabled; any other may come next, and nothing is said about
which does.  A schedule, such as that of a clock, is a choice among them.
-/

namespace AdaptiveBatch
namespace Engine

/-- The shortest and the longest sleep between two ticks, in milliseconds: an
estimate of zero must not spin, and a huge one must not outrun the timer. -/
def shortestWait {ν : Type} [Number ν] : ν := 0.1

def longestWait {ν : Type} [Number ν] : ν := 60000.0

def tickWait {ν : Type} [Number ν] (latency : ν) : ν :=
  if Number.isUndefined latency then shortestWait
  else if Number.less latency shortestWait then shortestWait
  else if Number.less longestWait latency then longestWait
  else latency

/-- Why a probe does not count, or the milliseconds that it answered. -/
def judgeProbe {ν : Type} [Number ν] (sink : String) (limit : Option UInt64) :
    ProbeReply ν → Except (EngineError ν) ν
  | .answer v => if Number.isCost v then .ok v else .error (.invalidProbe sink v)
  | .fault f => .error (.sink f)
  | .late => .error (.probeTimeout sink (limit.getD 0))

inductive Event (α ν : Type) where
  | elapse (millis : Nat)
  | offer (offer : Offer α)
  /-- Somebody asks how much is buffered. -/
  | measure
  | close
  /-- An offer passes the gate. -/
  | enter (number : Nat)
  /-- The first in line takes the buffer lock. -/
  | acquire
  | directReturns (number : Nat) (fault : Option Fault)
  | directCrashes (number : Nat)
  /-- The prober's sleep is over, or shutdown cuts it short. -/
  | proberWakes
  | probeReturns (reply : ProbeReply ν)
  | probeCrashes
  /-- What the scheduler waited for has come, or shutdown. -/
  | schedulerWakes
  | flushReturns (fault : Option Fault)
  | flushCrashes
  /-- The scheduler has the gate to itself. -/
  | takeGate
  | closeReturns (fault : Option Fault)
  | closeCrashes

/-- Whether a sink call brings its task down. -/
def Event.crashes {α ν : Type} : Event α ν → Bool
  | .directCrashes _ | .probeCrashes | .flushCrashes | .closeCrashes => true
  | _ => false

namespace State

variable {α ν : Type} [Number ν]

/-- Counts, records and publishes a failure that no caller waits for. -/
def reportFailure (s : State α ν) (stage : Stage) (items : Nat) (error : EngineError ν) :
    State α ν :=
  let counters :=
    match stage with
    | .probe => s.counters.probeFailed
    | .flush => s.counters.flushFailed
    | .close => s.counters
  { s with counters, recorder := s.recorder.failure s.settings.name stage }.note
    (.failed { batcher := s.settings.name, stage, items, error })

/-- Takes in the answer of a probe that counts. -/
def learn (s : State α ν) (millis : ν) : State α ν :=
  let model := s.model.publish millis
  let recorder := s.recorder.latencyEstimate s.settings.name model.estimate
  { s with
    model
    counters := s.counters.probed
    recorder :=
      if s.model.enables millis then recorder.packingEnabled s.settings.name else recorder
  }.note (.learned millis)

/-- The wait that the scheduler's loop comes to next. -/
def nextWait (s : State α ν) : SchedulerPhase α ν :=
  if s.closing then .locking (Number.ofCount 0) true
  else if s.model.packing then .sleeping (tickWait s.model.estimate.latency)
  else .parked

/-- The scheduler goes round its loop to its next wait, which once the engine is
closing is that for the buffer lock. -/
def proceed (s : State α ν) : State α ν :=
  { s with
    scheduler := s.nextWait
    line := if s.closing then s.line ++ [.scheduler] else s.line }

/-- The prober goes round its loop: a shutdown that has come ends it. -/
def proceedProber (s : State α ν) : State α ν :=
  { s with prober := if s.closing then .ended false else .sleeping }

/-- What the flush model says of the present buffer. -/
def evaluation (s : State α ν) (wait : ν) (draining : Bool) : Flush.Evaluation ν :=
  Flush.evaluate
    { wait
      size := s.buffer.size
      lost := s.buffer.lost
      total := s.buffer.total
      elapsed := s.buffer.elapsed (Duration.ofMilliseconds s.now)
      estimate := s.model.estimate
      draining }
    s.settings.itemCeiling s.settings.projection

/-- A tick that leaves the buffer as it is. -/
def defer (s : State α ν) (e : Flush.Evaluation ν) : State α ν :=
  let size := s.buffer.size
  { s with
    buffer := s.buffer.setLost e.lost
    counters := s.counters.skippedTick
    recorder := s.recorder.skippedTick s.settings.name size
  }.note (.deferred size e.lost e.averageItem e.nextAverageItem)

/-- A tick that hands `items`, all that is buffered, to the sink. -/
def beginFlush (s : State α ν) (e : Flush.Evaluation ν) (items : List α)
    (request : Request α) : State α ν :=
  let reason := e.reasons.primary
  let s := s.note
    (.flushing items.length reason s.model.estimate.latency e.lost e.averageItem)
  { s with
    buffer := (s.buffer.setLost (Number.ofCount 0)).clear
    scheduler := .delivering items reason
  }.note (.called .scheduler request)

/-- One tick, with the lock in hand.  An empty buffer is sealed once the engine is
draining; one item goes alone and more go as a batch. -/
def tick (s : State α ν) (wait : ν) (draining : Bool) : State α ν :=
  match s.buffer.items with
  | [] =>
    if draining then { s with buffer := s.buffer.shut, scheduler := .atGate }
    else (s.note .idle).proceed
  | x :: rest =>
    let e := s.evaluation wait draining
    if e.shouldFlush then
      match rest with
      | [] => s.beginFlush e [x] (.sendSingle x)
      | y :: more => s.beginFlush e (x :: y :: more) (.sendBatch (x :: y :: more))
    else (s.defer e).proceed

/-- The buffer once an offer has joined it. -/
def joined (b : Flush.Buffer α ν) : Offer α → Flush.Buffer α ν
  | .one x => b.push x
  | .all xs => b.extend xs

def append (s : State α ν) (number : Nat) (offer : Offer α) : State α ν :=
  if s.buffer.sealed then s.answer number (.refused (.closed s.settings.name))
  else
    let s := { s with
      buffer := joined s.buffer offer
      counters := s.counters.buffered offer.items.length }
    (s.note (.appended number offer.items)).answer number .accepted

def serve (s : State α ν) : Waiter → State α ν
  | .offer n =>
    match s.ticket? n with
    | some t => s.append n t.offer
    | none => s
  | .observer n => s.note (.measured n s.buffer.size)
  | .scheduler =>
    match s.scheduler with
    | .locking wait draining => s.tick wait draining
    | _ => s

def finishDirect (s : State α ν) (t : Ticket α) (fault : Option Fault) : State α ν :=
  let count := t.offer.items.length
  let s := { s with
    counters := s.counters.direct count
    recorder := s.recorder.directSend s.settings.name count fault.isNone }
  (s.note (.returned (.offer t.number) t.offer.request fault)).answer t.number
    (.ofSend fault)

/-- The request that a flush of these items is. -/
def flushRequest (items : List α) : Request α :=
  match items with
  | [x] => .sendSingle x
  | xs => .sendBatch xs

/-- The result of a flush: a failed one loses its items, and says so. -/
def finishFlush (s : State α ν) (items : List α) (reason : Flush.Reason)
    (fault : Option Fault) : State α ν :=
  let count := items.length
  let s := { s with
    counters := s.counters.flushed count
    recorder := s.recorder.flush s.settings.name count reason.name fault.isNone
  }.note (.returned .scheduler (flushRequest items) fault)
  match fault with
  | none => s.proceed
  | some f => (s.reportFailure .flush count (.sink f)).proceed

/-- Passes the gate.  The shutdown check, the choice of the way and the first step
on it are one step.  An offer may come to ask for the buffer lock later than this, and
then others have overtaken it in line. -/
def pass (s : State α ν) (t : Ticket α) : State α ν :=
  if s.closing then s.answer t.number (.refused (.closed s.settings.name))
  else if s.model.packing then (s.setPhase t.number .atLock).enqueue (.offer t.number)
  else (s.setPhase t.number .sending).note (.called (.offer t.number) t.offer.request)

/-- A new offer; one of no items is accepted as it comes. -/
def arrive (s : State α ν) (offer : Offer α) : State α ν :=
  let number := s.nextNumber
  let s := { s with nextNumber := number + 1 }.note (.offered number offer)
  if offer.items.isEmpty then s.note (.answered number .accepted)
  else { s with offers := s.offers ++ [{ number, offer, phase := .atGate }] }

/-- The next state, if the event is enabled. -/
def step? (s : State α ν) : Event α ν → Option (State α ν)
  | .elapse ms => some { s with now := s.now + ms }
  | .offer o => some (s.arrive o)
  | .measure =>
    some ({ s with nextNumber := s.nextNumber + 1 }.enqueue (.observer s.nextNumber))
  | .close => some { s with closing := true }
  | .enter n =>
    match s.ticket? n with
    | some t => if t.phase = .atGate ∧ s.gateOpen then some (s.pass t) else none
    | none => none
  | .acquire =>
    if s.lockHeld then none
    else
      match s.line with
      | [] => none
      | w :: rest => some ({ s with line := rest }.serve w)
  | .directReturns n fault =>
    match s.ticket? n with
    | some t => if t.phase = .sending then some (s.finishDirect t fault) else none
    | none => none
  | .directCrashes n =>
    match s.ticket? n with
    | some t => if t.phase = .sending then some (s.answer n .crashed) else none
    | none => none
  | .proberWakes =>
    match s.prober with
    | .sleeping =>
      some (if s.closing then { s with prober := .ended false }
        else { s with prober := .probing }.note (.called .prober .probe))
    | _ => none
  | .probeReturns reply =>
    match s.prober with
    | .probing =>
      if reply.isLate && s.settings.probeTimeout.isNone then none
      else
        some <|
          match judgeProbe s.sink s.settings.probeTimeout reply with
          | .ok millis => (s.learn millis).proceedProber
          | .error e => (s.reportFailure .probe 0 e).proceedProber
    | _ => none
  | .probeCrashes =>
    match s.prober with
    | .probing => some { s with prober := .ended true }
    | _ => none
  | .schedulerWakes =>
    match s.scheduler with
    | .parked => if s.closing || s.model.packing then some s.proceed else none
    | .sleeping wait =>
      some ({ s with scheduler := .locking wait s.closing }.enqueue .scheduler)
    | _ => none
  | .flushReturns fault =>
    match s.scheduler with
    | .delivering items reason => some (s.finishFlush items reason fault)
    | _ => none
  | .flushCrashes =>
    match s.scheduler with
    | .delivering .. => some { s with scheduler := .ended true }
    | _ => none
  | .takeGate =>
    match s.scheduler with
    | .atGate =>
      if s.sending then none
      else some ({ s with scheduler := .closing }.note (.called .scheduler .close))
    | _ => none
  | .closeReturns fault =>
    match s.scheduler with
    | .closing =>
      let s := { s with scheduler := .ended false }.note (.returned .scheduler .close fault)
      some <|
        match fault with
        | none => s
        | some f => s.reportFailure .close 0 (.sink f)
    | _ => none
  | .closeCrashes =>
    match s.scheduler with
    | .closing => some { s with scheduler := .ended true }
    | _ => none

end State

end Engine
end AdaptiveBatch
