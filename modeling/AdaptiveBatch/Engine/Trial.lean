import AdaptiveBatch.Engine.Clock
import AdaptiveBatch.Engine.Keyed

/-!
# Trials

A trial takes an engine on a clock through a list of actions, one after the other.
The next action begins when the last one and everything due with it are done.
-/

namespace AdaptiveBatch
namespace Engine

inductive Action (α : Type) where
  | offer (offer : Offer α)
  /-- One offer for each item. -/
  | offerEach (items : List α)
  /-- An offer that nobody waits for. -/
  | spawnOffer (offer : Offer α)
  | sleep (millis : Nat)
  | measure
  /-- The failures published since they were last asked for. -/
  | failures
  | finished
  | close
  /-- Requests shutdown and waits for both background tasks. -/
  | join

inductive Answer (ν : Type) where
  | none
  | outcome (outcome : Outcome ν)
  | size (size : Nat)
  | failures (lost : Nat) (events : List (FailureEvent ν))
  | finished (ended : Bool)
  | joined (error : Option (EngineError ν))
  | joinedBefore

structure Trial (σ α ν : Type) where
  clock : Clock σ α ν
  /-- The failures that have been asked for. -/
  heard : Nat
  /-- Somebody has waited for the background tasks. -/
  joined : Bool
  /-- The offers that nobody waits for, with the place of their action. -/
  spawned : List (Nat × Nat)

namespace Trial

variable {σ α ν : Type} [Number ν]

def ofClock (clock : Clock σ α ν) : Trial σ α ν :=
  { clock, heard := 0, joined := false, spawned := [] }

/-- One offer after the other; the answer is the last one's. -/
def offerEach : List α → Clock σ α ν → Outcome ν × Clock σ α ν
  | [], c => (.accepted, c)
  | x :: rest, c =>
    let (o, c) := c.offerAndWait (.one x)
    match rest with
    | [] => ((o.map (·.2)).getD .crashed, c)
    | rest => offerEach rest c

/-- The failures that a receiver who has had `heard` of them gets now. -/
def newFailures (t : Trial σ α ν) : Nat × List (FailureEvent ν) :=
  receive t.clock.engine.settings.failureCapacity.toNat t.heard t.clock.engine.failures

def joinNow (t : Trial σ α ν) : Answer ν × Trial σ α ν :=
  if t.joined then (.joinedBefore, t)
  else
    let clock := t.clock.close.join
    (.joined clock.joinError?, { t with clock, joined := true })

def act (t : Trial σ α ν) (place : Nat) : Action α → Answer ν × Trial σ α ν
  | .offer o =>
    let (r, clock) := t.clock.offerAndWait o
    (.outcome ((r.map (·.2)).getD .crashed), { t with clock })
  | .offerEach xs =>
    let (r, clock) := offerEach xs t.clock
    (.outcome r, { t with clock })
  | .spawnOffer o =>
    let (n, clock) := t.clock.offer o
    (.none, { t with clock, spawned := t.spawned ++ [(place, n)] })
  | .sleep ms => (.none, { t with clock := t.clock.runTo (t.clock.now + ms) })
  | .measure =>
    let (n, clock) := t.clock.measure
    (.size (n.getD 0), { t with clock })
  | .failures =>
    let (lost, events) := t.newFailures
    (.failures lost events, { t with heard := t.clock.engine.failures.length })
  | .finished => (if t.joined then .none else .finished t.clock.tasksEnded, t)
  | .close => (.none, { t with clock := t.clock.close })
  | .join => t.joinNow

def settle (t : Trial σ α ν) : Trial σ α ν :=
  { t with clock := t.clock.settle Clock.enough }

/-- All actions, each with its answer and the state that it left. -/
def run (t : Trial σ α ν) (place : Nat) :
    List (Action α) → List (Answer ν × State α ν) × Trial σ α ν
  | [] => ([], t)
  | a :: rest =>
    let (r, t) := t.act place a
    let t := t.settle
    let (later, last) := t.run (place + 1) rest
    ((r, t.clock.engine) :: later, last)

/-- Shutdown, the end of both tasks, and the end of every offer. -/
def conclude (t : Trial σ α ν) : Answer ν × Trial σ α ν :=
  let (r, t) := t.joinNow
  (r, { t with
    clock := (t.clock.runUntil none (·.engine.offers.isEmpty) Clock.enough).settle
      Clock.enough })

end Trial
end Engine
end AdaptiveBatch
