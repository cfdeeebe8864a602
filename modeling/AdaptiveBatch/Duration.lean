import AdaptiveBatch.Number

/-!
# Spans of time

A span is a whole number of nanoseconds.  Costs and waits are numbers of
milliseconds, and the two meet in `ofMillis?` and `toMillis`.
-/

namespace AdaptiveBatch

structure Duration where
  nanoseconds : Nat
  deriving DecidableEq, Repr

namespace Duration

def ofMilliseconds (ms : Nat) : Duration := ⟨ms * 1000000⟩

/-- A span given in milliseconds, to the nearest nanosecond.  A negative,
undefined or unboundedly long one is not a span. -/
def ofMillis? {ν : Type} [Number ν] (ms : ν) : Option Duration :=
  (Number.nanoseconds? (ms / 1000.0)).map Duration.mk

/-- The seconds: whole ones first, then the rest as a fraction, each rounded. -/
def toSeconds {ν : Type} [Number ν] (d : Duration) : ν :=
  Number.ofCount (d.nanoseconds / 1000000000) +
    Number.ofCount (d.nanoseconds % 1000000000) / 1000000000.0

def toMillis {ν : Type} [Number ν] (d : Duration) : ν := d.toSeconds * 1000.0

/-- The whole milliseconds that a timer of this length runs.  Timers fire on
millisecond ticks, so a started one counts. -/
def ticks (d : Duration) : Nat := (d.nanoseconds + 999999) / 1000000

end Duration
end AdaptiveBatch
