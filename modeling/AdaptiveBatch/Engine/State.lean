import AdaptiveBatch.Flush.Buffer
import AdaptiveBatch.Flush.Decision
import AdaptiveBatch.Latency.Model
import AdaptiveBatch.Metrics.Counters
import AdaptiveBatch.Metrics.Recorder

/-!
# The state of an engine

An engine is a set of tasks that share a sink, a buffer and a switch: the offers
of its callers, the prober and the flush scheduler.  Tasks interleave only where
one of them waits, for a timer, for a lock or for the sink, so the state holds for
each task which of its waits it is in, and nothing else about its progress.

Everything that an observer could have seen is in the log, in order.
-/

namespace AdaptiveBatch

inductive Request (α : Type) where
  | probe
  | sendDirect (item : α)
  | sendDirectAll (items : List α)
  | sendBatch (items : List α)
  | sendSingle (item : α)
  | close
  deriving DecidableEq, Repr

def Request.items {α : Type} : Request α → List α
  | .probe | .close => []
  | .sendDirect x | .sendSingle x => [x]
  | .sendDirectAll xs | .sendBatch xs => xs

/-- What a caller hands over in one call. -/
inductive Offer (α : Type) where
  | one (item : α)
  | all (items : List α)
  deriving DecidableEq, Repr

namespace Offer

variable {α : Type}

def items : Offer α → List α
  | .one x => [x]
  | .all xs => xs

/-- The sink call that hands it on at once. -/
def request : Offer α → Request α
  | .one x => .sendDirect x
  | .all xs => .sendDirectAll xs

end Offer

/-- What a probe of the sink came to. -/
inductive ProbeReply (ν : Type) where
  | answer (millis : ν)
  | fault (fault : Fault)
  /-- No answer within the time allowed. -/
  | late
  deriving DecidableEq, Repr

def ProbeReply.isLate {ν : Type} : ProbeReply ν → Bool
  | .late => true
  | _ => false

namespace Engine

inductive OfferPhase where
  /-- For the gate, which the scheduler may have taken to close the sink. -/
  | atGate
  /-- For the sink, holding the gate open. -/
  | sending
  /-- For the buffer lock, having left the gate behind. -/
  | atLock
  deriving DecidableEq, Repr

structure Ticket (α : Type) where
  number : Nat
  offer : Offer α
  phase : OfferPhase
  deriving DecidableEq, Repr

inductive Outcome (ν : Type) where
  | accepted
  | refused (error : EngineError ν)
  /-- The sink call brought its caller down. -/
  | crashed
  deriving DecidableEq, Repr

/-- What an offer comes to once its sink call has returned. -/
def Outcome.ofSend {ν : Type} : Option Fault → Outcome ν
  | none => .accepted
  | some f => .refused (.sink f)

/-- Those who line up for the buffer lock. -/
inductive Waiter where
  | offer (number : Nat)
  | scheduler
  /-- Somebody who wants to know how much is buffered. -/
  | observer (number : Nat)
  deriving DecidableEq, Repr

/-- The waits of the flush scheduler. -/
inductive SchedulerPhase (α ν : Type) where
  /-- For packing to be switched on, or for shutdown. -/
  | parked
  /-- For this many milliseconds, or for shutdown. -/
  | sleeping (wait : ν)
  /-- For the buffer lock, with the wait it credits to the tick, and whether it had
  seen the shutdown when it lined up. -/
  | locking (wait : ν) (draining : Bool)
  /-- For the sink to take a flush, holding the lock. -/
  | delivering (items : List α) (reason : Flush.Reason)
  /-- For the direct sends under way; nobody passes the gate any more. -/
  | atGate
  /-- For the sink to close. -/
  | closing
  | ended (crashed : Bool)
  deriving DecidableEq, Repr

inductive ProberPhase where
  | sleeping
  | probing
  | ended (crashed : Bool)
  deriving DecidableEq, Repr

inductive Caller where
  /-- Whoever starts the engine, for the seed probe. -/
  | starter
  | offer (number : Nat)
  | prober
  | scheduler
  deriving DecidableEq, Repr

/-- What can be observed of an engine. -/
inductive Entry (α ν : Type) where
  | offered (number : Nat) (offer : Offer α)
  | called (caller : Caller) (request : Request α)
  /-- A sink call other than a probe returns. -/
  | returned (caller : Caller) (request : Request α) (fault : Option Fault)
  /-- A probe that counts. -/
  | learned (millis : ν)
  | appended (number : Nat) (items : List α)
  | answered (number : Nat) (outcome : Outcome ν)
  | measured (number : Nat) (size : Nat)
  | failed (event : FailureEvent ν)
  /-- A tick finds nothing to do. -/
  | idle
  | deferred (size : Nat) (lost averageItem nextAverageItem : ν)
  | flushing (size : Nat) (reason : Flush.Reason) (latency waited averageItem : ν)
  deriving DecidableEq, Repr

structure State (α ν : Type) where
  settings : Settings ν
  sink : String
  /-- Milliseconds. -/
  now : Nat
  model : Latency.Model ν
  buffer : Flush.Buffer α ν
  /-- Shutdown has been requested. -/
  closing : Bool
  /-- The offers under way, in order of arrival. -/
  offers : List (Ticket α)
  /-- The number of the next offer or observer. -/
  nextNumber : Nat
  /-- The line for the buffer lock, first come first served. -/
  line : List Waiter
  scheduler : SchedulerPhase α ν
  prober : ProberPhase
  counters : Metrics.Counters
  recorder : Metrics.Recorder ν
  /-- What has happened, and when, the latest first. -/
  log : List (Nat × Entry α ν)

namespace State

variable {α ν : Type}

def note (s : State α ν) (e : Entry α ν) : State α ν :=
  { s with log := (s.now, e) :: s.log }

/-- The buffer lock is held across the delivery of a flush and never otherwise
from one wait to the next. -/
def lockHeld (s : State α ν) : Bool :=
  match s.scheduler with
  | .delivering .. => true
  | _ => false

/-- Whether offers pass the gate.  From the moment the scheduler asks for it until
the sink is closed they do not. -/
def gateOpen (s : State α ν) : Bool :=
  match s.scheduler with
  | .atGate | .closing => false
  | _ => true

def sending (s : State α ν) : Bool := s.offers.any (·.phase = .sending)

def ticket? (s : State α ν) (number : Nat) : Option (Ticket α) :=
  s.offers.find? (·.number = number)

def setPhase (s : State α ν) (number : Nat) (phase : OfferPhase) : State α ν :=
  { s with
    offers := s.offers.map fun t => if t.number = number then { t with phase } else t }

def answer (s : State α ν) (number : Nat) (outcome : Outcome ν) : State α ν :=
  { s with offers := s.offers.filter (·.number ≠ number) }.note (.answered number outcome)

def enqueue (s : State α ν) (w : Waiter) : State α ν := { s with line := s.line ++ [w] }

def proberEnded (s : State α ν) : Bool :=
  match s.prober with
  | .ended _ => true
  | _ => false

def schedulerEnded (s : State α ν) : Bool :=
  match s.scheduler with
  | .ended _ => true
  | _ => false

/-- What an offer came to, if it has ended. -/
def outcome? (s : State α ν) (number : Nat) : Option (Nat × Outcome ν) :=
  s.log.findSome? fun (t, e) =>
    match e with
    | .answered n o => if n = number then some (t, o) else none
    | _ => none

/-- How much was buffered when an observer had its turn. -/
def measured? (s : State α ν) (number : Nat) : Option Nat :=
  s.log.findSome? fun (_, e) =>
    match e with
    | .measured n size => if n = number then some size else none
    | _ => none

/-- The failures published so far. -/
def failures (s : State α ν) : List (FailureEvent ν) :=
  s.log.reverse.filterMap fun (_, e) =>
    match e with
    | .failed event => some event
    | _ => none

/-- The sink calls begun so far, each with its time. -/
def calls (s : State α ν) : List (Nat × Request α) :=
  s.log.reverse.filterMap fun (t, e) =>
    match e with
    | .called _ r => some (t, r)
    | _ => none

end State
end Engine
end AdaptiveBatch
