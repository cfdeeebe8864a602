/-!
# How much is logged, and how
-/

namespace AdaptiveBatch
namespace Metrics

inductive LogFormat where
  | json
  | pretty
  | compact
  deriving DecidableEq, Repr

/-- What the logs of a run look like. -/
structure LogSettings where
  level : String
  format : LogFormat
  /-- The TCP endpoint that metrics are served at, if any. -/
  metricsPort : Option UInt16
  deriving DecidableEq, Repr

/-- The level that a count of verbosity flags asks for; quiet outranks them. -/
def LogSettings.ofVerbosity (verbose : UInt8) (quiet : Bool) : LogSettings :=
  { level :=
      if quiet then "warn"
      else if verbose = 0 then "info"
      else if verbose = 1 then "debug"
      else "trace"
    format := .json
    metricsPort := none }

def LogSettings.withFormat (s : LogSettings) (format : LogFormat) : LogSettings :=
  { s with format }

end Metrics
end AdaptiveBatch
