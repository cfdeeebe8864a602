import AdaptiveBatch.Config.Schema
import AdaptiveBatch.Document.Json.Reader
import AdaptiveBatch.Document.Json.Writer
import AdaptiveBatch.Document.Toml.Reader
import AdaptiveBatch.Document.Toml.Writer
import AdaptiveBatch.Files.Tree

/-!
# Loading and rendering configurations

What is loaded has been checked: there is no way to load a configuration that
breaks a rule.
-/

namespace AdaptiveBatch
namespace Config

def readDocument? : Format → String → Option Document
  | .toml => Toml.read?
  | .json => Json.read?

/-- The configuration that a text describes. -/
def loadText (f : Format) (text : String) : Except Fault (Configuration Float) :=
  match readDocument? f text with
  | none => .error (.unreadable f "the text is malformed")
  | some d =>
    match configuration? f d with
    | none => .error (.unreadable f "the document is not a configuration")
    | some c => do
      c.check
      return c

/-- The format that a file name calls for. -/
def formatOf (path : String) : Except Fault Format :=
  match Files.extension? path with
  | none => .error (.malformed "cannot determine file format from extension")
  | some e =>
    match Format.ofExtension? e with
    | none => .error (.malformed ("unsupported config format: ." ++ e))
    | some f => .ok f

/-- The configuration in a file.  A name of no known format is refused before the
file is looked for. -/
def loadFile (files : Files.View) (path : String) : Except Fault (Configuration Float) := do
  let f ← formatOf path
  match files.readText path with
  | .error e => .error (.file e)
  | .ok text => loadText f text

/-- A configuration as text, from which it can be loaded again. -/
def render (c : Configuration Float) : Format → String
  | .toml => Toml.render (outline c)
  | .json => Json.render (outline c).document

end Config
end AdaptiveBatch
