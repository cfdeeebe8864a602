import AdaptiveBatch.Number

/-!
# Running statistics

Count, mean, spread and extremes of a sequence of values, kept up to date value by
value.  The sum of squared deviations is updated with the deviations from the old
and from the new mean, which keeps it exact over the rationals and accurate over
floating point.
-/

namespace AdaptiveBatch
namespace Metrics

structure RunningStats (ν : Type) where
  count : UInt64
  average : ν
  /-- The sum of the squared deviations from the mean. -/
  squares : ν
  least : ν
  greatest : ν
  deriving DecidableEq, Repr

namespace RunningStats

variable {ν : Type} [Number ν]

def empty : RunningStats ν :=
  { count := 0
    average := Number.ofCount 0
    squares := Number.ofCount 0
    least := Number.ofCount 0
    greatest := Number.ofCount 0 }

def push (s : RunningStats ν) (value : ν) : RunningStats ν :=
  let count := s.count + 1
  if count = 1 then
    { count, average := value, squares := Number.ofCount 0, least := value, greatest := value }
  else
    let before := value - s.average
    let average := s.average + before / Number.ofCount count.toNat
    let after := value - average
    { count, average
      squares := s.squares + before * after
      least := Number.least s.least value
      greatest := Number.greatest s.greatest value }

def mean (s : RunningStats ν) : ν := if s.count = 0 then Number.ofCount 0 else s.average

/-- The variance of a sample: one value has none. -/
def variance (s : RunningStats ν) : ν :=
  if s.count < 2 then Number.ofCount 0 else s.squares / Number.ofCount (s.count - 1).toNat

def deviation [SquareRoot ν] (s : RunningStats ν) : ν := SquareRoot.sqrt s.variance

end RunningStats

/-- What is reported of a sequence of values. -/
structure Summary (ν : Type) where
  count : UInt64
  least : ν
  greatest : ν
  mean : ν
  deviation : ν
  deriving DecidableEq, Repr

def RunningStats.summary {ν : Type} [Number ν] [SquareRoot ν] (s : RunningStats ν) :
    Summary ν :=
  { count := s.count, least := s.least, greatest := s.greatest
    mean := s.mean, deviation := s.deviation }

end Metrics
end AdaptiveBatch
