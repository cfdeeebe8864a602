import AdaptiveBatch.Command.Invocation
import AdaptiveBatch.Decimal.Read
import AdaptiveBatch.Power

/-!
# Options

Each level of a command line has its options: those before the command and those
behind it.  Verbosity, quiet and the log format may stand at either level.
-/

namespace AdaptiveBatch
namespace Command

inductive Level where
  | top
  | simulate
  | validate
  deriving DecidableEq, Repr

inductive Name where
  | verbose
  | quiet
  | logFormat
  | config
  | producers
  | items
  | probe
  | corrected
  | metricsPort
  | json
  | help
  | version
  deriving DecidableEq, Repr

namespace Name

def long : Name → String
  | .verbose => "verbose"
  | .quiet => "quiet"
  | .logFormat => "log-format"
  | .config => "config"
  | .producers => "producers"
  | .items => "items"
  | .probe => "probe-ms"
  | .corrected => "corrected-formula"
  | .metricsPort => "metrics-port"
  | .json => "json"
  | .help => "help"
  | .version => "version"

def short? : Name → Option Char
  | .verbose => some 'v'
  | .quiet => some 'q'
  | .config => some 'c'
  | .help => some 'h'
  | .version => some 'V'
  | _ => none

def takesValue : Name → Bool
  | .logFormat | .config | .producers | .items | .probe | .metricsPort => true
  | _ => false

/-- The environment variable that stands in for the option. -/
def environmentName? : Name → Option String
  | .verbose => some "BATCHER_VERBOSE"
  | .logFormat => some "BATCHER_LOG_FORMAT"
  | .config => some "BATCHER_CONFIG"
  | .metricsPort => some "BATCHER_METRICS_PORT"
  | _ => none

end Name

namespace Level

def names : Level → List Name
  | .top => [.verbose, .quiet, .logFormat, .help, .version]
  | .simulate =>
    [.config, .producers, .items, .probe, .corrected, .metricsPort, .verbose, .quiet,
      .logFormat, .help]
  | .validate => [.config, .json, .verbose, .quiet, .logFormat, .help]

def long? (l : Level) (s : String) : Option Name := l.names.find? (·.long = s)

def short? (l : Level) (c : Char) : Option Name := l.names.find? (·.short? = some c)

/-- The options of the level that the environment can give, in order.  The file to
validate is not among them. -/
def environmentNames (l : Level) : List (Name × String) :=
  l.names.filterMap fun n =>
    if l = .validate ∧ n = .config then none else n.environmentName?.map (n, ·)

end Level

/-- Where a value comes from.  What is on the command line outranks the environment. -/
inductive Source where
  | environment
  | commandLine
  deriving DecidableEq, Repr

/-- The options of one level, as given so far. -/
structure Given where
  verbose : Option (Source × UInt8) := none
  quiet : Bool := false
  logFormat : Option (Source × Metrics.LogFormat) := none
  config : Option String := none
  producers : Option UInt64 := none
  items : Option UInt64 := none
  probe : Option Float := none
  corrected : Bool := false
  metricsPort : Option UInt16 := none
  json : Bool := false

/-! ## Values -/

/-- Digits, with a plus sign or none. -/
def natural? (s : String) : Option Nat :=
  let ds := match s.toList with
    | '+' :: r => r
    | r => r
  if ds.isEmpty || !ds.all Decimal.isDigit then none else some (Decimal.value ds)

def word? (s : String) : Option UInt64 :=
  match natural? s with
  | some n => if n < wordCount then some n.toUInt64 else none
  | none => none

/-- A number up to a bound; minus zero is one. -/
def bounded? (bound : Nat) (s : String) : Option Nat :=
  match s.toList with
  | '-' :: r =>
    if !r.isEmpty && r.all Decimal.isDigit && Decimal.value r = 0 then some 0 else none
  | _ =>
    match natural? s with
    | some n => if n ≤ bound then some n else none
    | none => none

def logFormat? (s : String) : Option Metrics.LogFormat :=
  if s = "json" then some .json
  else if s = "pretty" then some .pretty
  else if s = "compact" then some .compact
  else none

/-- A value that may be given once. -/
def once {β : Type} (before : Option β) (read : String → Option β) (refusal : Refusal)
    (value : Option String) : Except Refusal (Option β) :=
  match value with
  | none => .error .invalidValue
  | some s =>
    if before.isSome then .error .conflict
    else
      match read s with
      | some v => .ok (some v)
      | none => .error refusal

/-- A switch that may be given once. -/
def switch (before : Bool) : Except Refusal Bool :=
  if before then .error .conflict else .ok true

namespace Given

def has (g : Given) : Name → Bool
  | .verbose => g.verbose.isSome
  | .quiet => g.quiet
  | .logFormat => g.logFormat.isSome
  | .config => g.config.isSome
  | .producers => g.producers.isSome
  | .items => g.items.isSome
  | .probe => g.probe.isSome
  | .corrected => g.corrected
  | .metricsPort => g.metricsPort.isSome
  | .json => g.json
  | .help | .version => false

/-- One more verbosity flag, or the count of them that the environment gives. -/
def addVerbose (g : Given) (source : Source) : Option String → Except Refusal Given
  | none =>
    let count := match g.verbose with
      | some (_, n) => n.toNat + 1
      | none => 1
    .ok { g with verbose := some (source, (min 255 count).toUInt8) }
  | some s =>
    match bounded? 255 s with
    | some n => .ok { g with verbose := some (source, n.toUInt8) }
    | none => .error .malformedNumber

/-- Takes in an option.  A missing value counts before a repeated option, and that
before a value that is wrong. -/
def add (g : Given) (source : Source) (n : Name) (value : Option String) :
    Except Refusal Given :=
  match n with
  | .verbose => g.addVerbose source value
  | .quiet => do return { g with quiet := ← switch g.quiet }
  | .logFormat => do
    return { g with
      logFormat := ← once g.logFormat (fun s => (logFormat? s).map (source, ·)) .invalidValue value }
  | .config => do
    return { g with
      config := ← once g.config (fun s => if s = "" then none else some s) .invalidValue value }
  | .producers => do
    return { g with producers := ← once g.producers word? .malformedNumber value }
  | .items => do return { g with items := ← once g.items word? .malformedNumber value }
  | .probe => do return { g with probe := ← once g.probe Decimal.parse? .malformedNumber value }
  | .corrected => do return { g with corrected := ← switch g.corrected }
  | .metricsPort => do
    return { g with
      metricsPort := ← once g.metricsPort (fun s => (bounded? 65535 s).map Nat.toUInt16)
        .malformedNumber value }
  | .json => do return { g with json := ← switch g.json }
  | .help => .error .helpWanted
  | .version => .error .versionWanted

/-- Adds what the environment gives and the command line does not. -/
def addEnvironment (g : Given) (names : List (Name × String))
    (environment : List (String × String)) : Except Refusal Given :=
  names.foldlM (fun g (n, v) =>
    if g.has n then .ok g
    else
      match environment.lookup v with
      | some s => g.add .environment n (some s)
      | none => .ok g) g

/-- Quiet and verbose exclude each other at one level. -/
def check (g : Given) : Except Refusal Unit :=
  if g.quiet && g.verbose.isSome then .error .conflict else .ok ()

end Given

/-- The value of an option that may stand at both levels: the one before the command
counts only if it outranks the one behind it. -/
def outer {β : Type} (before behind : Option (Source × β)) : Option β :=
  match before, behind with
  | some (.commandLine, v), some (.environment, _) => some v
  | some (_, v), none => some v
  | _, some (_, v) => some v
  | none, none => none

end Command
end AdaptiveBatch
