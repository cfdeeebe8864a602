import AdaptiveBatch.Document.Toml.Scalar

/-!
# Writing TOML

An entry a line, and an empty line before each header.  What is null is left out.
The names of an outline need no quotes.
-/

namespace AdaptiveBatch
namespace Toml

def entryText (name : String) (s : Scalar) : List Char :=
  match scalarText? s with
  | some t => name.toList ++ [' ', '=', ' '] ++ t ++ ['\n']
  | none => []

def entriesText (ms : List (String × Scalar)) : List Char :=
  ms.flatMap fun (name, s) => entryText name s

def sectionText (name : String) (ms : List (String × Scalar)) : List Char :=
  ['\n', '['] ++ name.toList ++ [']', '\n'] ++ entriesText ms

def render (o : Outline) : String :=
  String.ofList (entriesText o.members ++
    o.sections.flatMap fun (name, ms) => sectionText name ms)

end Toml
end AdaptiveBatch
