import AdaptiveBatch.Command.Program

/-!
# The command line program

Reads what the command needs, runs it, and prints what came of it.
-/

namespace AdaptiveBatch
namespace Main

/-- Why reading failed, by the number that the system gives. -/
def faultOf : IO.Error → FileFault
  | .noFileOrDirectory .. => .notFound
  | .inappropriateType _ code _ | .resourceExhausted _ code _ | .invalidArgument _ code _ =>
    if code = 21 then .isDirectory else if code = 36 then .nameTooLong else .notDirectory
  | _ => .notFound

def readFile (path : String) : IO (Except FileFault ByteArray) := do
  try
    return .ok (← IO.FS.readBinFile path)
  catch e =>
    return .error (faultOf e)

/-- The files around the program as far as this one path goes. -/
def viewOf (path : String) : IO Files.View := do
  let content ← readFile path
  return {
    contains := fun p =>
      p = path &&
        match content with
        | .ok _ | .error .isDirectory => true
        | .error _ => false
    readText := fun p =>
      if p = path then
        match content with
        | .ok bytes =>
          match String.fromUTF8? bytes with
          | some text => .ok text
          | none => .error .notText
        | .error e => .error e
      else .error .notFound }

/-- The variables that options can come from, with a file of more of them. -/
def readEnvironment : IO Command.Environment := do
  let names := (Command.Level.simulate.environmentNames ++
    Command.Level.top.environmentNames).map (·.2)
  let values ← names.mapM fun name => do
    return (← IO.getEnv name).map (name, ·)
  let environment := values.filterMap id
  match ← readFile ".env" with
  | .ok bytes =>
    match String.fromUTF8? bytes with
    | some text => return Command.addFile environment text
    | none => return environment
  | .error _ => return environment

def fileOf : Command.Task → Option String
  | .simulate o => o.config
  | .validate o => some o.config

def usage : String :=
  Metrics.lines [
    "Adaptive batching engine simulator",
    "",
    "Usage: batcher [OPTIONS] <COMMAND>",
    "",
    "Commands:",
    "  simulate  Run producers against a simulated sink",
    "  validate  Validate configuration file without running",
    "",
    "Options:",
    "  -v, --verbose              Increase logging verbosity",
    "  -q, --quiet                Suppress all output except errors",
    "      --log-format <FORMAT>  Log output format: json, pretty or compact",
    "  -h, --help                 Print help",
    "  -V, --version              Print version"]

def refusalText : Command.Refusal → String
  | .helpWanted | .nothingGiven => usage
  | .versionWanted => "batcher\n"
  | .commandMissing => "error: a command is needed\n"
  | .unknownCommand => "error: no such command\n"
  | .unknownArgument => "error: unexpected argument\n"
  | .invalidValue => "error: a value is missing or not allowed\n"
  | .malformedNumber => "error: not a number that the option takes\n"
  | .conflict => "error: an option is given twice or excluded by another\n"
  | .unexpectedValue => "error: a value for an option that takes none\n"

def run (arguments : List String) : IO UInt32 := do
  match Command.parse (← readEnvironment) arguments with
  | .error r =>
    if r.exitCode = 0 then IO.print (refusalText r) else IO.eprint (refusalText r)
    return r.exitCode.toUInt32
  | .ok i =>
    let files ← match fileOf i.task with
      | some path => viewOf path
      | none => pure { contains := fun _ => false, readText := fun _ => .error .notFound }
    let o := Command.run files i.task
    IO.print o.printed
    match o.failure with
    | some f => IO.eprint (Command.failureText f)
    | none => pure ()
    return o.exitCode.toUInt32

end Main
end AdaptiveBatch

def main (arguments : List String) : IO UInt32 := AdaptiveBatch.Main.run arguments
