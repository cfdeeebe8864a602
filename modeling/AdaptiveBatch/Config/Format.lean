/-!
# The formats of configuration files
-/

namespace AdaptiveBatch
namespace Config

inductive Format where
  | toml
  | json
  deriving DecidableEq, Repr

namespace Format

def name : Format → String
  | .toml => "TOML"
  | .json => "JSON"

/-- The format that a file extension stands for, in small or capital letters. -/
def ofExtension? (extension : String) : Option Format :=
  let e := String.ofList (extension.toList.map Char.toLower)
  if e = "toml" then some .toml else if e = "json" then some .json else none

end Format
end Config
end AdaptiveBatch
