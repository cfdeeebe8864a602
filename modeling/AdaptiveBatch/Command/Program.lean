import AdaptiveBatch.Command.EnvironmentFile
import AdaptiveBatch.Command.Parse
import AdaptiveBatch.Command.Simulate
import AdaptiveBatch.Command.Validate

/-!
# The program

What a command line prints, and what it fails with.
-/

namespace AdaptiveBatch
namespace Command

/-- What has been printed, and why the program failed if it did. -/
structure Outcome where
  printed : String
  /-- The failure and its causes, outermost first. -/
  failure : Option (List String)
  /-- The program came down in the attempt. -/
  crashed : Bool := false

def Outcome.exitCode (o : Outcome) : Nat :=
  if o.crashed then 101 else if o.failure.isSome then 1 else 0

def runValidate (files : Files.View) (o : ValidateOptions) : Outcome :=
  let v := verdict files o.config
  { printed := v.print o
    failure := if v.isValid then none else some ["Configuration validation failed"] }

def runSimulate (files : Files.View) (o : SimulateOptions) : Outcome :=
  match simulate files o with
  | .ok stats => { printed := stats.report, failure := none }
  | .error (.run .crashed) => { printed := "", failure := none, crashed := true }
  | .error f => { printed := "", failure := some f.chain }

def run (files : Files.View) : Task → Outcome
  | .validate o => runValidate files o
  | .simulate o => runSimulate files o

/-! ## Failures as text -/

/-- The lines of a text, those after the first further in. -/
def indent (margin : String) (s : String) : String :=
  String.intercalate ("\n" ++ margin) (s.splitOn "\n")

def numbered : Nat → List String → List String
  | _, [] => []
  | n, s :: rest =>
    let digits := Decimal.natText n
    let blanks := String.ofList (List.replicate (5 - digits.length) ' ')
    (blanks ++ digits ++ ": " ++ indent "       " s) :: numbered (n + 1) rest

/-- A failure and its causes.  Several causes are numbered. -/
def failureText : List String → String
  | [] => ""
  | [s] => "Error: " ++ s ++ "\n"
  | [s, cause] => "Error: " ++ s ++ "\n\nCaused by:\n    " ++ indent "    " cause ++ "\n"
  | s :: causes =>
    "Error: " ++ s ++ "\n\nCaused by:\n" ++ String.intercalate "\n" (numbered 0 causes) ++ "\n"

end Command
end AdaptiveBatch
