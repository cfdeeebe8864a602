import AdaptiveBatch.Duration

/-!
# The pending buffer

Items that wait for a flush, in order of arrival, with the two running numbers of
the flush model: the time lost to waits since the last flush, and how many items
have ever come.
-/

namespace AdaptiveBatch
namespace Flush

structure Buffer (α ν : Type) where
  /-- The items, the latest first. -/
  latest : List α
  /-- The waits since the last flush, in milliseconds. -/
  lost : ν
  /-- The items that ever came, those already flushed among them. -/
  total : ν
  /-- The moment from which arrivals are counted. -/
  startedAt : Duration
  /-- Nothing comes in any more. -/
  sealed : Bool
  deriving DecidableEq, Repr

namespace Buffer

variable {α ν : Type} [Number ν]

def empty (startedAt : Duration) : Buffer α ν :=
  { latest := [], lost := Number.ofCount 0, total := Number.ofCount 0, startedAt
    sealed := false }

/-- The items in order of arrival. -/
def items (b : Buffer α ν) : List α := b.latest.reverse

def size (b : Buffer α ν) : Nat := b.latest.length

def push (b : Buffer α ν) (item : α) : Buffer α ν :=
  { b with latest := item :: b.latest, total := b.total + 1.0 }

def extend (b : Buffer α ν) (items : List α) : Buffer α ν :=
  { b with
    latest := items.reverse ++ b.latest
    total := b.total + Number.ofCount items.length }

/-- The buffer without its items.  The count of arrivals outlives them. -/
def clear (b : Buffer α ν) : Buffer α ν := { b with latest := [] }

def setLost (b : Buffer α ν) (lost : ν) : Buffer α ν := { b with lost }

def shut (b : Buffer α ν) : Buffer α ν := { b with sealed := true }

/-- The milliseconds since arrivals are counted. -/
def elapsed (b : Buffer α ν) (now : Duration) : ν :=
  Duration.toMillis ⟨now.nanoseconds - b.startedAt.nanoseconds⟩

end Buffer
end Flush
end AdaptiveBatch
