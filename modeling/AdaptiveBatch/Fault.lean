import AdaptiveBatch.Config.Format
import AdaptiveBatch.Decimal.Digits
import AdaptiveBatch.Number

/-!
# What can go wrong

`Fault` is what sinks and configuration files report; `EngineError` is what the
engine answers to its callers, most often a fault with its context.
-/

namespace AdaptiveBatch

/-- Why a file could not be read. -/
inductive FileFault where
  | notFound
  | notDirectory
  | isDirectory
  | nameTooLong
  | nameHasNull
  | notText
  deriving DecidableEq, Repr

def FileFault.message : FileFault → String
  | .notFound => "No such file or directory (os error 2)"
  | .notDirectory => "Not a directory (os error 20)"
  | .isDirectory => "Is a directory (os error 21)"
  | .nameTooLong => "File name too long (os error 36)"
  | .nameHasNull => "file name contained an unexpected NUL byte"
  | .notText => "stream did not contain valid UTF-8"

inductive Fault where
  /-- A text that is not a configuration in the format it was read in. -/
  | unreadable (format : Config.Format) (detail : String)
  /-- Anything else that keeps a configuration from being read as one. -/
  | malformed (message : String)
  /-- A configuration that breaks a rule. -/
  | invalid (field message : String)
  | send (sink message : String)
  | probe (sink message : String)
  | close (sink message : String)
  | file (cause : FileFault)
  | other (message : String)
  deriving DecidableEq, Repr

def Fault.message : Fault → String
  | .unreadable f d => "config parse error: " ++ f.name ++ " parse error: " ++ d
  | .malformed m => "config parse error: " ++ m
  | .invalid f m => "config validation error at '" ++ f ++ "': " ++ m
  | .send s m => "sink '" ++ s ++ "' send error: " ++ m
  | .probe s m => "sink '" ++ s ++ "' probe error: " ++ m
  | .close s m => "sink '" ++ s ++ "' close error: " ++ m
  | .file c => "io error: " ++ c.message
  | .other m => m

/-- What a fault was caused by in its turn, outermost first. -/
def Fault.causes : Fault → List String
  | .unreadable _ d => [d]
  | .file c => [c.message]
  | _ => []

/-- A fault and its causes. -/
def Fault.chain (f : Fault) : List String := f.message :: f.causes

/-- The two tasks that an engine runs behind its callers' backs. -/
inductive BackgroundTask where
  | prober
  | flushScheduler
  deriving DecidableEq, Repr

def BackgroundTask.name : BackgroundTask → String
  | .prober => "prober"
  | .flushScheduler => "flush_scheduler"

inductive EngineError (ν : Type) where
  | settings (fault : Fault)
  | sink (fault : Fault)
  | invalidProbe (sink : String) (value : ν)
  | probeTimeout (sink : String) (limit : UInt64)
  | closed (name : String)
  | lengthMismatch (keys values : Nat)
  | taskFailed (task : BackgroundTask) (message : String)
  deriving DecidableEq, Repr

def EngineError.message {ν : Type} [Number ν] : EngineError ν → String
  | .settings f => "invalid batcher configuration: " ++ f.message
  | .sink f => "sink error: " ++ f.message
  | .invalidProbe s v =>
    "probe for sink '" ++ s ++ "' returned invalid latency " ++ Number.text v
  | .probeTimeout s ms =>
    "probe for sink '" ++ s ++ "' timed out after " ++ Decimal.natText ms.toNat ++ "ms"
  | .closed n => "batcher '" ++ n ++ "' is closed"
  | .lengthMismatch k v =>
    "keys and values count must be the same: " ++ Decimal.natText k ++ " keys, " ++
      Decimal.natText v ++ " values"
  | .taskFailed t m => "background task '" ++ t.name ++ "' failed: " ++ m

/-- An error and its causes, outermost first. -/
def EngineError.chain {ν : Type} [Number ν] (e : EngineError ν) : List String :=
  e.message ::
    match e with
    | .settings f | .sink f => f.chain
    | _ => []

end AdaptiveBatch
