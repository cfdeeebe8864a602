import AdaptiveBatch.Document.Json.Number
import AdaptiveBatch.Document.Json.Quoted

/-!
# Writing JSON

One member or item a line, two spaces deeper than what it belongs to.  What stands
for nothing is written as null.
-/

namespace AdaptiveBatch
namespace Json

def scalarText : Scalar → List Char
  | .null => "null".toList
  | .bool true => "true".toList
  | .bool false => "false".toList
  | .integer i => (Decimal.intText i).toList
  | .real x => realText x
  | .text s => quote s

/-- The end of a line and the blanks at the start of the next. -/
def lineBreak (depth : Nat) : List Char := '\n' :: List.replicate (2 * depth) ' '

mutual

/-- A document whose own line is `depth` steps in. -/
def write (depth : Nat) : Document → List Char
  | .scalar s => scalarText s
  | .moment | .broken => "null".toList
  | .list [] => ['[', ']']
  | .list (d :: ds) =>
    '[' :: (lineBreak (depth + 1) ++ write (depth + 1) d ++ writeItems depth ds)
  | .table [] => ['\x7b', '\x7d']
  | .table ((name, d) :: ms) =>
    '\x7b' :: (lineBreak (depth + 1) ++ quote name ++ [':', ' '] ++ write (depth + 1) d ++
      writeMembers depth ms)

/-- The items after the first, and the closing bracket. -/
def writeItems (depth : Nat) : List Document → List Char
  | [] => lineBreak depth ++ [']']
  | d :: ds => ',' :: (lineBreak (depth + 1) ++ write (depth + 1) d ++ writeItems depth ds)

/-- The members after the first, and the closing brace. -/
def writeMembers (depth : Nat) : List (String × Document) → List Char
  | [] => lineBreak depth ++ ['\x7d']
  | (name, d) :: ms =>
    ',' :: (lineBreak (depth + 1) ++ quote name ++ [':', ' '] ++ write (depth + 1) d ++
      writeMembers depth ms)

end

/-- The text of a document, without a line end. -/
def render (d : Document) : String := String.ofList (write 0 d)

end Json
end AdaptiveBatch
