import AdaptiveBatch.Sink.Behaviour

/-!
# The channel sink

Hands every delivery to a receiver, without bound and without delay.  Once the
receiver is gone nothing can be delivered.
-/

namespace AdaptiveBatch
namespace Sink

/-- A delivery as its receiver sees it. -/
inductive Delivery (α : Type) where
  | direct (item : α)
  | directAll (items : List α)
  | batch (items : List α)
  | single (item : α)
  deriving DecidableEq, Repr

namespace Delivery

variable {α : Type}

def items : Delivery α → List α
  | .direct x | .single x => [x]
  | .directAll xs | .batch xs => xs

/-- Whether it came from a flush. -/
def isFlush : Delivery α → Bool
  | .batch _ | .single _ => true
  | .direct _ | .directAll _ => false

/-- What a sink call delivers. -/
def ofRequest? : Request α → Option (Delivery α)
  | .sendDirect x => some (.direct x)
  | .sendDirectAll xs => some (.directAll xs)
  | .sendBatch xs => some (.batch xs)
  | .sendSingle x => some (.single x)
  | .probe | .close => none

end Delivery

structure Channel (α ν : Type) where
  name : String
  /-- What every probe answers. -/
  probe : ν
  /-- The deliveries that wait for the receiver; none without one. -/
  waiting : Option (Array (Delivery α))

namespace Channel

variable {α ν : Type}

def create (name : String) (probe : ν) : Channel α ν := { name, probe, waiting := some #[] }

def call (c : Channel α ν) (r : Request α) : Channel α ν × Reply ν :=
  match r, Delivery.ofRequest? r with
  | .probe, _ => (c, .answer c.probe)
  | _, none => (c, .done)
  | _, some d =>
    match c.waiting with
    | some ds => ({ c with waiting := some (ds.push d) }, .done)
    | none => (c, .fault (.send c.name "receiver dropped"))

/-- The deliveries that wait, taken off the channel; none without a receiver. -/
def receive (c : Channel α ν) : Option (List (Delivery α)) × Channel α ν :=
  match c.waiting with
  | some ds => (some ds.toList, { c with waiting := some #[] })
  | none => (none, c)

def dropReceiver (c : Channel α ν) : Channel α ν := { c with waiting := none }

def behaviour (α ν : Type) : Behaviour (Channel α ν) α ν :=
  { name := Channel.name
    start := fun c r =>
      let (c, reply) := c.call r
      (c, { delay := 0, reply })
    finish := fun c _ _ => c }

end Channel
end Sink
end AdaptiveBatch
