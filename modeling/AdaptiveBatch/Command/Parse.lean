import AdaptiveBatch.Command.Option

/-!
# Understanding a command line

Arguments are taken one by one.  An option whose value has not been looked at yet is
kept pending until the next option comes or the level ends, so that of several
mistakes the one that is met first is reported.
-/

namespace AdaptiveBatch
namespace Command

/-- One level under way.  An option may wait for its value, or have one that has not
been looked at. -/
structure Scan where
  given : Given := {}
  pending : Option (Name × Option String) := none

namespace Scan

/-- Looks at the pending value. -/
def resolve (s : Scan) : Except Refusal Scan :=
  match s.pending with
  | some (n, value) => do return { given := ← s.given.add .commandLine n value, pending := none }
  | none => .ok s

/-- The option that waits for a value. -/
def waiting? (s : Scan) : Option Name :=
  match s.pending with
  | some (n, none) => some n
  | _ => none

/-- Takes in an option whose value, if it has one, is known. -/
def add (s : Scan) (n : Name) (value : Option String) : Except Refusal Scan := do
  let s ← s.resolve
  return { s with given := ← s.given.add .commandLine n value }

/-- Takes in an option that waits for its value. -/
def await (s : Scan) (n : Name) : Except Refusal Scan := do
  let s ← s.resolve
  return { s with pending := some (n, none) }

/-- A long option, with what follows its equals sign. -/
def long (s : Scan) (l : Level) (name : String) (value : Option String) : Except Refusal Scan :=
  match l.long? name with
  | none => .error .unknownArgument
  | some n =>
    if n.takesValue then
      match value with
      | some v => s.add n (some v)
      | none => s.await n
    else if value.isSome then .error .unexpectedValue
    else s.add n none

/-- Short options in one argument.  One that takes a value takes the rest for it. -/
def shorts (s : Scan) (l : Level) : List Char → Except Refusal Scan
  | [] => .ok s
  | c :: r =>
    match l.short? c with
    | none => .error .unknownArgument
    | some n =>
      if n.takesValue then
        match r with
        | [] => s.await n
        | '=' :: r => s.add n (some (String.ofList r))
        | r => s.add n (some (String.ofList r))
      else do
        let s ← s.add n none
        s.shorts l r

end Scan

/-- What an argument looks like. -/
inductive Shape where
  /-- Two dashes and nothing else: no options follow. -/
  | dashes
  | long (name : String) (value : Option String)
  | shorts (flags : List Char)
  | plain

/-- A long option up to its equals sign, and what follows that. -/
def splitEquals (cs : List Char) : String × Option String :=
  match cs.span (· ≠ '=') with
  | (name, '=' :: value) => (String.ofList name, some (String.ofList value))
  | (name, _) => (String.ofList name, none)

def Shape.of (argument : String) : Shape :=
  match argument.toList with
  | ['-', '-'] => .dashes
  | '-' :: '-' :: r =>
    let (name, value) := splitEquals r
    .long name value
  | '-' :: c :: r => .shorts (c :: r)
  | _ => .plain

inductive Word where
  | task (level : Level)
  | help

def Word.of? (s : String) : Option Word :=
  if s = "simulate" then some (.task .simulate)
  else if s = "validate" then some (.task .validate)
  else if s = "help" then some .help
  else none

/-- An argument that nothing takes.  Before the command it is taken for one, unless
it is one that comes too late. -/
def stray (l : Level) (late : Bool) (argument : String) : Refusal :=
  if l = .top then
    if late && (Word.of? argument).isSome then .unknownArgument else .unknownCommand
  else .unknownArgument

/-- Help is given for one command that there is. -/
def helpRefusal : List String → Refusal
  | [] => .helpWanted
  | [a] => if (Word.of? a).isSome then .helpWanted else .unknownCommand
  | _ => .unknownCommand

/-- What a level comes to, with the command that ends it and the arguments behind
that. -/
def scan (l : Level) :
    Scan → List String → Except Refusal (Scan × Option (Level × List String))
  | s, [] => .ok (s, none)
  | s, a :: rest =>
    match (if l = .top ∧ s.waiting?.isNone then Word.of? a else none) with
    | some .help => .error (helpRefusal rest)
    | some (.task level) => .ok (s, some (level, rest))
    | none =>
      match Shape.of a with
      | .dashes =>
        match rest with
        | [] => .ok (s, none)
        | b :: _ => .error (stray l true b)
      | .long name value => do
        let s ← s.long l name value
        scan l s rest
      | .shorts flags => do
        let s ← s.shorts l flags
        scan l s rest
      | .plain =>
        match s.waiting? with
        | some n => scan l { s with pending := some (n, some a) } rest
        | none => .error (stray l false a)

/-- The options of a level, once its arguments are over. -/
def conclude (l : Level) (environment : List (String × String)) (s : Scan) :
    Except Refusal Given := do
  let s ← s.resolve
  s.given.addEnvironment l.environmentNames environment

def taskOf (l : Level) (g : Given) : Task :=
  match l with
  | .validate => .validate { config := g.config.getD "batcher.toml", json := g.json }
  | _ =>
    .simulate
      { config := g.config, producers := g.producers, items := g.items, probe := g.probe
        corrected := g.corrected, metricsPort := g.metricsPort.getD 0 }

/-- What the arguments and the environment ask for. -/
def parse (environment : List (String × String)) (arguments : List String) :
    Except Refusal Invocation := do
  let (top, command) ← scan .top {} arguments
  match command with
  | some (level, rest) =>
    let (s, _) ← scan level {} rest
    let behind ← conclude level environment s
    behind.check
    let before ← conclude .top environment top
    before.check
    return {
      verbose := (outer before.verbose behind.verbose).getD 0
      quiet := before.quiet || behind.quiet
      logFormat := (outer before.logFormat behind.logFormat).getD .pretty
      task := taskOf level behind }
  | none =>
    let before ← conclude .top environment top
    if before.verbose.isNone && !before.quiet && before.logFormat.isNone then
      .error .nothingGiven
    else .error .commandMissing

end Command
end AdaptiveBatch
