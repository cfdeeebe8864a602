import AdaptiveBatch.Metrics.Verbosity

/-!
# Invocations

What a command line asks for, once it has been understood.
-/

namespace AdaptiveBatch
namespace Command

structure SimulateOptions where
  /-- The configuration file; without one all settings are standard. -/
  config : Option String
  producers : Option UInt64
  items : Option UInt64
  /-- What a probe of the sink answers. -/
  probe : Option Float
  corrected : Bool
  /-- The TCP endpoint that metrics are served at; zero for none. -/
  metricsPort : UInt16

structure ValidateOptions where
  config : String
  json : Bool

inductive Task where
  | simulate (options : SimulateOptions)
  | validate (options : ValidateOptions)

structure Invocation where
  verbose : UInt8
  quiet : Bool
  logFormat : Metrics.LogFormat
  task : Task

/-- Why a command line asks for nothing that can be run. -/
inductive Refusal where
  | helpWanted
  | versionWanted
  /-- Nothing at all is given. -/
  | nothingGiven
  /-- Options, but no command. -/
  | commandMissing
  | unknownCommand
  | unknownArgument
  /-- A value that is missing, empty, or none of those allowed. -/
  | invalidValue
  /-- A value that is no number of the kind wanted. -/
  | malformedNumber
  /-- An option that is given twice, or beside one that excludes it. -/
  | conflict
  /-- A value for an option that takes none. -/
  | unexpectedValue
  deriving DecidableEq, Repr

/-- Asking for help or for the version is no mistake. -/
def Refusal.exitCode : Refusal → Nat
  | .helpWanted | .versionWanted => 0
  | _ => 2

end Command
end AdaptiveBatch
